import Phrasebook.Regex.Reader
import Phrasebook.Regex.Search

/-!
# Regular expressions as patterns and registries use them

All that the rest of the library knows of regular expressions is a *dialect*: which sources it
accepts, what it says about the others, what an accepted one finds in a text, and how a text is
written as a source that stands for it. The theory of patterns holds for every dialect; the program
runs with `Regex.backtracking`.
-/

namespace Phrasebook

namespace Regex

/-- What an accepted source does: it searches a text for its first match. -/
abbrev Finder := Text → Option Found

/-- A dialect of regular expressions. -/
structure Dialect where
  /-- What a source finds, or what is wrong with it. -/
  compile : Text → Except Text Finder
  /-- A text written as a source that stands for it. -/
  quote : Text → Text

/-- The dialect of backtracking search. -/
def backtracking : Dialect where
  compile source :=
    match Regex.compile source with
    | .ok program => .ok program.find
    | .error e => .error (e.message source)
  quote := Regex.quote

/-- The source that matches only where the search begins. -/
def anchored (source : Text) : Text :=
  Text.ofString "\\A(?:" ++ source ++ Text.ofString ")"

/-- The source that matches only a whole text. -/
def whole (source : Text) : Text :=
  anchored source ++ Text.ofString "\\z"

end Regex

end Phrasebook

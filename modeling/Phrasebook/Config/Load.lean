import Phrasebook.Config.Encoding
import Phrasebook.Files

/-!
# Loading definition files

A definition file is read in the format that its extension stands for. The extension is looked at
before the file is.
-/

namespace Phrasebook

namespace Config

namespace DecodeError

/-- The error in words. -/
def message : DecodeError → Text
  | .malformed => Text.ofString "malformed definitions"
  | .unstorable => Text.ofString "definitions with a value that has no place"

end DecodeError

/-- Why a definition file cannot be loaded. -/
inductive LoadError where
  /-- Its path stands for no format. -/
  | noFormat (e : Format.Error)
  /-- It cannot be opened. -/
  | unopened (path : Text) (fault : PathFault)
  /-- Its text holds no configuration. -/
  | undecoded (path : Text) (e : DecodeError)
  deriving DecidableEq, Repr

namespace LoadError

/-- The error in words. -/
def message : LoadError → Text
  | .noFormat e => e.message
  | .unopened path fault => Text.ofString "open " ++ path ++ Text.ofString ": " ++ fault.message
  | .undecoded path e => path ++ Text.ofString ": " ++ e.message

/-- Whether the file is not there. -/
def isMissing : LoadError → Bool
  | .unopened _ fault => fault = .missing
  | _ => false

end LoadError

/-- The configuration of a definition file, from what its path leads to. -/
def load (path : Text) (found : Except PathFault Entry) : Except LoadError Config :=
  match Format.ofPath path with
  | .error e => .error (.noFormat e)
  | .ok format =>
    match found with
    | .error fault => .error (.unopened path fault)
    | .ok (.folder _) => .error (.undecoded path .malformed)
    | .ok (.file contents) =>
      match decode format contents with
      | .ok config => .ok config
      | .error e => .error (.undecoded path e)

end Config

end Phrasebook

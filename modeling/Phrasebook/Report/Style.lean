import Phrasebook.Text

/-!
# Styled text

Reports are written for a terminal, with or without colours. A style is a colour that may be bold;
without colours it changes nothing.
-/

namespace Phrasebook

namespace Report

/-- The colours of reports. -/
inductive Colour where
  /-- For what failed. -/
  | red
  /-- For what matched. -/
  | green
  /-- For names. -/
  | yellow
  /-- For patterns. -/
  | cyan
  /-- For the frame around an input. -/
  | blue
  deriving DecidableEq, Repr

namespace Colour

/-- The number that selects the colour on a terminal. -/
def code : Colour → Nat
  | .red => 31
  | .green => 32
  | .yellow => 33
  | .cyan => 36
  | .blue => 94

end Colour

/-- How a piece of text looks. -/
structure Style where
  /-- Its colour. -/
  colour : Colour
  /-- Whether it is bold. -/
  bold : Bool
  deriving DecidableEq, Repr

namespace Style

/-- For what failed. -/
def failure : Style := ⟨.red, true⟩

/-- For what succeeded. -/
def success : Style := ⟨.green, true⟩

/-- For names. -/
def name : Style := ⟨.yellow, true⟩

/-- For patterns. -/
def pattern : Style := ⟨.cyan, true⟩

/-- For the frame around an input. -/
def frame : Style := ⟨.blue, true⟩

/-- For values. -/
def value : Style := ⟨.green, false⟩

/-- A sequence that changes how a terminal shows what follows. -/
def control (codes : List Nat) : Text :=
  [0x1B, 0x5B] ++ Text.join [0x3B] (codes.map Text.ofNat) ++ [0x6D]

/-- What switches the style on. -/
def opening (s : Style) : Text :=
  control (if s.bold then [s.colour.code, 1] else [s.colour.code])

/-- What switches the style off. -/
def closing (s : Style) : Text :=
  control (if s.bold then [0, 22] else [0])

/-- A text in the style, when colours are wanted. -/
def paint (s : Style) (colours : Bool) (t : Text) : Text :=
  if colours then s.opening ++ t ++ s.closing else t

@[simp]
theorem paint_false (s : Style) (t : Text) : s.paint false t = t := rfl

end Style

end Report

end Phrasebook

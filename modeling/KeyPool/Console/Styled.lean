/-!
Lines for a terminal. A line is made of pieces, plain or in a style, and styles are written only where
colours are wanted.
-/

namespace KeyPool.Console

inductive Colour where
  | red | green | yellow | cyan
  deriving DecidableEq, Repr

def Colour.code : Colour → String
  | red => "31"
  | green => "32"
  | yellow => "33"
  | cyan => "36"

structure Style where
  colour : Colour
  bold : Bool
  deriving DecidableEq, Repr

/-- The sequence that turns a style on. -/
def Style.start (style : Style) : String :=
  "\x1b[" ++ (if style.bold then "1;" else "") ++ style.colour.code ++ "m"

/-- The sequence that turns every style off. -/
def reset : String := "\x1b[0m"

inductive Piece where
  | plain (text : String)
  | styled (style : Style) (text : String)
  deriving DecidableEq, Repr

/-- The text of a piece. Where a styled text turns styles off itself, its own style is turned on
again. -/
def Piece.render (colours : Bool) : Piece → String
  | plain text => text
  | styled style text =>
    if colours then
      style.start ++ String.intercalate (reset ++ style.start) (text.splitOn reset) ++ reset
    else text

abbrev Line := List Piece

namespace Line

def plain (text : String) : Line := [.plain text]

def styled (colour : Colour) (text : String) : Line := [.styled ⟨colour, false⟩ text]

def bold (colour : Colour) (text : String) : Line := [.styled ⟨colour, true⟩ text]

/-- The text of a line with its end. -/
def render (colours : Bool) (line : Line) : String :=
  String.join (line.map (Piece.render colours)) ++ "\n"

end Line

end KeyPool.Console

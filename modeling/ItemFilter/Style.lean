/-!
# Styled text

Text for a terminal is made of pieces with styles. A style is switched on before its piece and off
behind it, and styles of one piece are nested. Where colours are not wanted, the pieces are shown as
they are.

## Main definitions

* `Style`: bold, dimmed and the colours in use
* `Piece`: a text with its styles
* `Piece.shown`, `showPieces`: pieces as they are sent to the terminal
-/

namespace ItemFilter

/-- A way to set off text. -/
inductive Style where
  | bold
  | dimmed
  | red
  | green
  | yellow
  deriving DecidableEq, Repr

namespace Style

/-- The control sequence with a number. -/
def sequence (number : String) : String :=
  "\x1b[" ++ number ++ "m"

/-- The sequence that switches a style on. -/
def opening : Style → String
  | bold => sequence "1"
  | dimmed => sequence "2"
  | red => sequence "31"
  | green => sequence "32"
  | yellow => sequence "33"

/-- The sequence that switches a style off. Colours go back to the usual one, the others end all
styles. -/
def closing : Style → String
  | bold | dimmed => sequence "0"
  | red | green | yellow => sequence "39"

end Style

/-- A text with its styles, the outermost first. -/
structure Piece where
  /-- The text. -/
  text : String
  /-- The styles around it. -/
  styles : List Style := []
  deriving DecidableEq, Repr

namespace Piece

/-- A text with styles around it. -/
def wrap (text : String) : List Style → String
  | [] => text
  | style :: styles => style.opening ++ wrap text styles ++ style.closing

/-- A piece as it is sent to the terminal. -/
def shown (colors : Bool) (piece : Piece) : String :=
  if colors then wrap piece.text piece.styles else piece.text

end Piece

/-- Pieces as they are sent to the terminal, one after another. -/
def showPieces (colors : Bool) (pieces : List Piece) : String :=
  String.join (pieces.map (Piece.shown colors))

end ItemFilter

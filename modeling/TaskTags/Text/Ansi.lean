/-!
Colored text for terminals: an escape sequence switches a style on, another one switches it off.
-/

namespace TaskTags.Text

inductive Style where
  | red
  | green
  | yellow
  | blue
  | cyan
  | gray
  | boldRed
  | boldYellow
  | boldCyan
  | boldWhite
deriving DecidableEq, Inhabited

def Style.code : Style → String
  | .red => "31"
  | .green => "32"
  | .yellow => "33"
  | .blue => "34"
  | .cyan => "36"
  | .gray => "90"
  | .boldRed => "1;31"
  | .boldYellow => "1;33"
  | .boldCyan => "1;36"
  | .boldWhite => "1;97"

def escape : Char := '\x1b'

def styleOn (style : Style) : List Char :=
  escape :: '[' :: (style.code.toList ++ ['m'])

def styleOff : List Char :=
  [escape, '[', '0', 'm']

/-- Switches the style on again wherever the text switches styles off. -/
def resume (style : Style) : List Char → List Char
  | '\x1b' :: '[' :: '0' :: 'm' :: rest => styleOff ++ styleOn style ++ resume style rest
  | c :: rest => c :: resume style rest
  | [] => []

/-- The text in a style, or as it is where colors are off. -/
def paint (color : Bool) (style : Style) (s : String) : String :=
  if color then String.ofList (styleOn style ++ resume style s.toList ++ styleOff) else s

end TaskTags.Text

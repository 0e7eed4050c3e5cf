/-!
# Colours

Colours of a report are switched on by an escape sequence and off by the reset. A reset inside a
coloured text would end its colour early, so the colour is switched on again after each.
-/

namespace CommandSuite.Report

/-- The colours of a report. -/
inductive Color where
  | red
  | green
  | yellow
  deriving Repr, DecidableEq

namespace Color

/-- The sequence that switches the colour on. -/
def start : Color → String
  | red => "\x1b[31m"
  | green => "\x1b[32m"
  | yellow => "\x1b[33m"

/-- The sequence that switches colours off. -/
def reset : String := "\x1b[0m"

/-- The characters with `start` after each reset. -/
def resume (start : List Char) : List Char → List Char
  | '\x1b' :: '[' :: '0' :: 'm' :: cs => reset.toList ++ start ++ resume start cs
  | c :: cs => c :: resume start cs
  | [] => []

/-- The text in the colour, if colours are wanted. -/
def paint (color : Color) (colored : Bool) (s : String) : String :=
  if colored then color.start ++ String.ofList (resume color.start.toList s.toList) ++ reset
  else s

end Color

end CommandSuite.Report

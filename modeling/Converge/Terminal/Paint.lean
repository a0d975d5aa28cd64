/-!
# Colours on a terminal

A paint is switched on by a control sequence and off by the one that resets all paints.  Text that
holds a reset of its own is painted on behind it.
-/

namespace Converge.Terminal

/-- How a text is set off. -/
inductive Paint where
  | bold
  | dimmed
  | green
  | yellow
  deriving DecidableEq

/-- The control sequence with a number. -/
def controlSequence (number : String) : String :=
  "\x1b[" ++ number ++ "m"

/-- The sequence that switches a paint on. -/
def Paint.start : Paint → String
  | .bold => controlSequence "1"
  | .dimmed => controlSequence "2"
  | .green => controlSequence "32"
  | .yellow => controlSequence "33"

/-- The sequence that switches every paint off. -/
def reset : String :=
  controlSequence "0"

/-- Paints a text, if colours are wanted. -/
def paint (colours : Bool) (paint : Paint) (text : String) : String :=
  if colours then paint.start ++ text.replace reset (reset ++ paint.start) ++ reset else text

/-- What is said about colours, each as a text that may be absent. -/
structure ColourWishes where
  /-- Colours even on output that is no terminal, unless it is `0`. -/
  forced : Option String
  /-- No colours, whatever it is. -/
  refused : Option String
  /-- Colours on a terminal, unless it is `0`. -/
  wanted : Option String

/-- Whether there are colours: force wins over refusal, and refusal over a wish. -/
def ColourWishes.grant (wishes : ColourWishes) (isTerminal : Bool) : Bool :=
  wishes.forced.any (· ≠ "0") ||
    (wishes.refused.isNone && wishes.wanted.all (· ≠ "0") && isTerminal)

end Converge.Terminal

/-!
# Paint

How the programs that show text on a terminal are asked to set a part of it off: a control
sequence starts a paint, several may be started one after the other, and one sequence ends all
of them.
-/

set_option autoImplicit false

namespace LogSplit

/-- How a text is set off. -/
inductive Paint where
  /-- In a heavy face. -/
  | bold
  /-- With a line below. -/
  | underlined
  /-- In red. -/
  | red
  /-- In green. -/
  | green
  /-- In yellow. -/
  | yellow
  /-- In cyan. -/
  | cyan
  deriving DecidableEq, Repr

namespace Paint

/-- The control sequence that starts a paint. -/
def code : Paint → List Char
  | bold => ['\x1b', '[', '1', 'm']
  | underlined => ['\x1b', '[', '4', 'm']
  | red => ['\x1b', '[', '3', '1', 'm']
  | green => ['\x1b', '[', '3', '2', 'm']
  | yellow => ['\x1b', '[', '3', '3', 'm']
  | cyan => ['\x1b', '[', '3', '6', 'm']

/-- The control sequence that ends every paint. -/
def reset : List Char := ['\x1b', '[', '0', 'm']

end Paint

end LogSplit

import Pagewright.Path

/-!
# Interpreters

An interpreter is a program that is given a script on its standard input, the slots of the page in
an environment variable and the number of the script's first line in another one.
-/

namespace Pagewright

structure Interpreter where
  program : String
  args : List String := []
  /-- The environment variable that holds the slots of the page. -/
  stateVariable : String := "REGENERATE_PAGE_STATE"
  /-- Where the program runs; the directory of the document unless it is given. -/
  directory : Option Path := none
  deriving DecidableEq, Repr

def Interpreter.lineVariable : String := "REGENERATE_SCRIPT_LINE"

end Pagewright

import Pagewright.Script.Signal

/-!
# Exit statuses

How a program ended: with a code, zero for success, or by a signal.
-/

namespace Pagewright

inductive ExitStatus where
  | code (n : Nat)
  | signal (n : Nat)
  deriving DecidableEq, Repr

/-- The wording of an exit status. A signal is given by its number and its name, if it has one. -/
def ExitStatus.message : ExitStatus → String
  | .code n => "exit status: " ++ toString n
  | .signal n =>
    let name := ((Signal.find? n).map fun s => " (SIG" ++ s.name ++ ")").getD ""
    "signal: " ++ toString n ++ name

def ExitStatus.isSuccess (s : ExitStatus) : Bool :=
  s == .code 0

end Pagewright

/-!
# Signals

A program may be ended by a signal. The signals from 1 to 31 have names of their own (`Signal.all`);
the numbers after them, up to `Signal.last`, are free for any use. Some signals end no program that
has not asked for them (`Signal.isHarmless`).
-/

namespace Pagewright

structure Signal where
  number : Nat
  name : String
  /-- What a shell says about a program that the signal has ended. -/
  description : String
  deriving DecidableEq, Repr

namespace Signal

def all : List Signal :=
  [⟨1, "HUP", "Hangup"⟩, ⟨2, "INT", "Interrupt"⟩, ⟨3, "QUIT", "Quit"⟩,
    ⟨4, "ILL", "Illegal instruction"⟩, ⟨5, "TRAP", "Trace/breakpoint trap"⟩,
    ⟨6, "ABRT", "Aborted"⟩, ⟨7, "BUS", "Bus error"⟩, ⟨8, "FPE", "Floating point exception"⟩,
    ⟨9, "KILL", "Killed"⟩, ⟨10, "USR1", "User defined signal 1"⟩,
    ⟨11, "SEGV", "Segmentation fault"⟩, ⟨12, "USR2", "User defined signal 2"⟩,
    ⟨13, "PIPE", "Broken pipe"⟩, ⟨14, "ALRM", "Alarm clock"⟩, ⟨15, "TERM", "Terminated"⟩,
    ⟨16, "STKFLT", "Stack fault"⟩, ⟨17, "CHLD", "Child exited"⟩, ⟨18, "CONT", "Continued"⟩,
    ⟨19, "STOP", "Stopped (signal)"⟩, ⟨20, "TSTP", "Stopped"⟩, ⟨21, "TTIN", "Stopped (tty input)"⟩,
    ⟨22, "TTOU", "Stopped (tty output)"⟩, ⟨23, "URG", "Urgent I/O condition"⟩,
    ⟨24, "XCPU", "CPU time limit exceeded"⟩, ⟨25, "XFSZ", "File size limit exceeded"⟩,
    ⟨26, "VTALRM", "Virtual timer expired"⟩, ⟨27, "PROF", "Profiling timer expired"⟩,
    ⟨28, "WINCH", "Window changed"⟩, ⟨29, "IO", "I/O possible"⟩, ⟨30, "PWR", "Power failure"⟩,
    ⟨31, "SYS", "Bad system call"⟩]

/-- The first of the numbers that are free for any use. -/
def firstFree : Nat := 34

def last : Nat := 64

def find? (n : Nat) : Option Signal :=
  all.find? (·.number == n)

/-- Whether a program goes on after a signal that it has said nothing about: it is told of events
that need not concern it, or it is only stopped for a while. -/
def isHarmless (n : Nat) : Bool :=
  n == 0 || (17 ≤ n && n ≤ 23) || n == 28

end Signal

end Pagewright

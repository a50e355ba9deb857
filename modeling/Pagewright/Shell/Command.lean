/-!
# Shell commands

The commands of a script as trees. A word is a list of pieces: text, quoted pieces, and what is put
in for parameters, for the output of commands and for arithmetic when the word is expanded.
-/

namespace Pagewright.Shell

/-- What is done with the value of a parameter. -/
inductive Change where
  /-- A word in place of no value. -/
  | orElse
  /-- A word in place of no value, which becomes the value. -/
  | assignElse
  /-- A word in place of a value. -/
  | insteadOf
  /-- No value is an error. -/
  | demand
  /-- The value without what matches a pattern at its start. -/
  | dropFront (longest : Bool)
  /-- The value without what matches a pattern at its end. -/
  | dropBack (longest : Bool)
  deriving DecidableEq, Repr

inductive Direction where
  | input
  | output
  /-- A file that may be there although the script keeps files. -/
  | replace
  | append
  /-- A file that is read or written, and may be missing. -/
  | both
  /-- The stream of another number. -/
  | same
  /-- A text in the script. -/
  | here
  deriving DecidableEq, Repr

mutual

inductive Piece where
  | plain (s : String)
  | quoted (pieces : List Piece)
  | parameter (name : String)
  | lengthOf (name : String)
  /-- A parameter with a word; `emptyToo` says that an empty value counts as none. -/
  | changed (name : String) (change : Change) (emptyToo : Bool) (word : List Piece)
  | output (script : Command)
  | arithmetic (expression : List Piece)
  /-- A parameter that is not written as one. -/
  | wrong

inductive Redirection where
  | redirect (stream : Nat) (direction : Direction) (word : List Piece)

inductive Command where
  | simple (line : Nat) (assignments : List (String × List Piece)) (words : List (List Piece))
    (redirections : List Redirection)
  | not (c : Command)
  | pipe (c d : Command)
  | both (c d : Command)
  | either (c d : Command)
  | sequence (cs : List Command)
  | subshell (c : Command)
  | background (c : Command)
  | conditional (test body other : Command)
  /-- Repeats the body as long as the test gives `goal`. -/
  | loop (goal : Bool) (test body : Command)
  /-- Carries out the body for each word, or for each positional parameter. -/
  | each (line : Nat) (name : String) (words : Option (List (List Piece))) (body : Command)
  | choose (line : Nat) (subject : List Piece) (branches : List (List (List Piece) × Command))
  | define (name : String) (body : Command)
  | redirected (line : Nat) (c : Command) (redirections : List Redirection)

end

instance : Inhabited Command := ⟨.sequence []⟩

abbrev Word := List Piece

def isNameStart (c : Char) : Bool :=
  c.isAlpha || c == '_'

def isNameChar (c : Char) : Bool :=
  c.isAlphanum || c == '_'

def isName (s : String) : Bool :=
  match s.toList with
  | c :: cs => isNameStart c && cs.all isNameChar
  | [] => false

/-- The words that have a meaning of their own at the start of a command. -/
def keywords : List String :=
  ["!", "\x7b", "\x7d", "case", "do", "done", "elif", "else", "esac", "fi", "for", "if", "in",
    "then", "until", "while"]

/-- The built-in commands whose failure ends a script, and for which variables are set to stay. -/
def specialBuiltins : List String :=
  [".", ":", "break", "continue", "eval", "exec", "exit", "export", "local", "readonly", "return",
    "set", "shift", "times", "trap", "unset"]

end Pagewright.Shell

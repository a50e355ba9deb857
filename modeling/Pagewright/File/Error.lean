/-!
# File errors

The ways in which a file operation fails, with the wording and, for those the operating system
reports, its number.
-/

namespace Pagewright

/-- Why a file operation fails. -/
inductive FileError where
  | notFound
  | permissionDenied
  | busy
  | alreadyExists
  | notADirectory
  | isADirectory
  | invalidArgument
  | nameTooLong
  | directoryNotEmpty
  | argumentsTooLong
  | nulInName
  | nulInData
  | emptyPath
  /-- A file that is read as text is not UTF-8. -/
  | notUtf8
  /-- Any other failure, in the words of the system. -/
  | other (message : String)
  deriving DecidableEq, Repr

def FileError.reason : FileError → String
  | .notFound => "No such file or directory"
  | .permissionDenied => "Permission denied"
  | .busy => "Device or resource busy"
  | .alreadyExists => "File exists"
  | .notADirectory => "Not a directory"
  | .isADirectory => "Is a directory"
  | .invalidArgument => "Invalid argument"
  | .nameTooLong => "File name too long"
  | .directoryNotEmpty => "Directory not empty"
  | .argumentsTooLong => "Argument list too long"
  | .nulInName => "file name contained an unexpected NUL byte"
  | .nulInData => "nul byte found in provided data"
  | .emptyPath => "cannot make an empty path absolute"
  | .notUtf8 => "stream did not contain valid UTF-8"
  | .other message => message

/-- The number of a file error, when it is one of the operating system. -/
def FileError.number? : FileError → Option Nat
  | .notFound => some 2
  | .argumentsTooLong => some 7
  | .permissionDenied => some 13
  | .busy => some 16
  | .alreadyExists => some 17
  | .notADirectory => some 20
  | .isADirectory => some 21
  | .invalidArgument => some 22
  | .nameTooLong => some 36
  | .directoryNotEmpty => some 39
  | _ => none

def FileError.message (e : FileError) : String :=
  match e.number? with
  | some n => e.reason ++ " (os error " ++ toString n ++ ")"
  | none => e.reason

end Pagewright

/-!
# Failures of the operating system

The failures that reading files and starting programs can meet, with the words that the system
uses for each.
-/

namespace Toolbench

/-- A failure reported by the operating system, or found before asking it. -/
inductive SystemError where
  | notFound
  | permissionDenied
  | notADirectory
  | isADirectory
  | nameTooLong
  /-- The arguments and the environment of a process are too long. -/
  | argumentsTooLong
  /-- A file that should be text is not UTF-8. -/
  | notText
  /-- A text for the system holds a NUL character. -/
  | holdsNul
  /-- A process number that the system does not have. -/
  | pidOutOfRange
  /-- A process without its input or its output. -/
  | noPipes
deriving DecidableEq, Repr

/-- The words for a failure. -/
def SystemError.message : SystemError → String
  | .notFound => "No such file or directory (os error 2)"
  | .permissionDenied => "Permission denied (os error 13)"
  | .notADirectory => "Not a directory (os error 20)"
  | .isADirectory => "Is a directory (os error 21)"
  | .nameTooLong => "File name too long (os error 36)"
  | .argumentsTooLong => "Argument list too long (os error 7)"
  | .notText => "stream did not contain valid UTF-8"
  | .holdsNul => "nul byte found in provided data"
  | .pidOutOfRange => "pid out of range"
  | .noPipes => "daemon spawned without stdio pipes"

end Toolbench

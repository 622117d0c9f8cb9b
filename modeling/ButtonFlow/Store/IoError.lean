/-!
# Errors of the file system

Why a file could not be read or written, and how that is worded.
-/

namespace ButtonFlow

inductive IoError where
  | notFound
  | alreadyExists
  | notADirectory
  | isADirectory
  | nameTooLong
  | badName
  /-- The bytes of a file are no UTF-8. -/
  | invalidText
  | other (detail : String)
  deriving DecidableEq

def IoError.message : IoError → String
  | .notFound => "No such file or directory (os error 2)"
  | .alreadyExists => "File exists (os error 17)"
  | .notADirectory => "Not a directory (os error 20)"
  | .isADirectory => "Is a directory (os error 21)"
  | .nameTooLong => "File name too long (os error 36)"
  | .badName => "file name contained an unexpected NUL byte"
  | .invalidText => "stream did not contain valid UTF-8"
  | .other detail => detail

end ButtonFlow

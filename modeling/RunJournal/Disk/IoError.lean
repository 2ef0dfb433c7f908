/-!
# File-system errors

The failures a file-system call can report, with the text the operating system gives them.
-/

namespace RunJournal

/-- A failed file-system call. -/
inductive IoError where
  | notFound
  | alreadyExists
  | notADirectory
  | isADirectory
  | invalidUtf8
  | nameTooLong
  | neitherFileNorLink
  | permissionDenied
  /-- A write the device could not take, as a scheduled fault gives it. -/
  | noSpace
  deriving DecidableEq, Repr

def IoError.message : IoError → String
  | .notFound => "No such file or directory (os error 2)"
  | .alreadyExists => "File exists (os error 17)"
  | .notADirectory => "Not a directory (os error 20)"
  | .isADirectory => "Is a directory (os error 21)"
  | .invalidUtf8 => "stream did not contain valid UTF-8"
  | .nameTooLong => "File name too long (os error 36)"
  | .neitherFileNorLink => "the source path is neither a regular file nor a symlink to a regular file"
  | .permissionDenied => "Permission denied (os error 13)"
  | .noSpace => "No space left on device (os error 28)"

end RunJournal

/-!
Why an operation on files fails.
-/

namespace PadBridge

inductive FileError where
  | notFound
  | exists
  | notDirectory
  | isDirectory
  | invalidArgument
  | nameTooLong
  /-- The path holds a zero byte, so no file can have it. -/
  | zeroByte
deriving Repr, DecidableEq

def FileError.message : FileError → String
  | .notFound => "No such file or directory (os error 2)"
  | .exists => "File exists (os error 17)"
  | .notDirectory => "Not a directory (os error 20)"
  | .isDirectory => "Is a directory (os error 21)"
  | .invalidArgument => "Invalid argument (os error 22)"
  | .nameTooLong => "File name too long (os error 36)"
  | .zeroByte => "file name contained an unexpected NUL byte"

end PadBridge

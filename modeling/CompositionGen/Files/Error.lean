/-!
# File errors

Why an operation on files fails, with the wording and number that the system gives each cause.
-/

namespace CompositionGen

inductive FileError where
  | notFound
  | notExecutable
  | alreadyExists
  | notDirectory
  | isDirectory
  | noExecFormat
  | badDescriptor
  | nameTooLong
  | directoryNotEmpty
  | tooManyLinks
  | noSpace
  /-- Nobody reads what is written. -/
  | brokenPipe
  | nullInPath
  /-- A text to be handed to a program holds a null character. -/
  | nullInData
  /-- Something other than a regular file was to be copied. -/
  | notRegular
  /-- A text was to be read from bytes that are not UTF-8. -/
  | notUtf8
  deriving DecidableEq, Inhabited, Repr

namespace FileError

/-- The system's number of a cause, if the system refused. -/
def number? : FileError → Option Nat
  | notFound => some 2
  | noExecFormat => some 8
  | badDescriptor => some 9
  | notExecutable => some 13
  | alreadyExists => some 17
  | notDirectory => some 20
  | isDirectory => some 21
  | noSpace => some 28
  | nameTooLong => some 36
  | brokenPipe => some 32
  | directoryNotEmpty => some 39
  | tooManyLinks => some 40
  | nullInPath | nullInData | notRegular | notUtf8 => none

/-- Wording of a cause without its number. -/
def reason : FileError → String
  | notFound => "No such file or directory"
  | notExecutable => "Permission denied"
  | alreadyExists => "File exists"
  | notDirectory => "Not a directory"
  | isDirectory => "Is a directory"
  | noExecFormat => "Exec format error"
  | badDescriptor => "Bad file descriptor"
  | nameTooLong => "File name too long"
  | directoryNotEmpty => "Directory not empty"
  | tooManyLinks => "Too many levels of symbolic links"
  | noSpace => "No space left on device"
  | brokenPipe => "Broken pipe"
  | nullInPath => "file name contained an unexpected NUL byte"
  | nullInData => "nul byte found in provided data"
  | notRegular => "the source path is neither a regular file nor a symlink to a regular file"
  | notUtf8 => "stream did not contain valid UTF-8"

def message (e : FileError) : String :=
  e.reason ++ e.number?.elim "" fun n => s!" (os error {n})"

end FileError

end CompositionGen

/-!
# Failures of the file system

The ways an operation on files or on the output can fail, as far as the program can meet them,
and the text each is reported with: the system's own words followed by its error number.
-/

set_option autoImplicit false

namespace LogSplit

/-- Why an operation on files or on the output failed. -/
inductive FileError where
  /-- A component of the path does not exist. -/
  | notFound
  /-- The device or directory is in use. -/
  | busy
  /-- The name is taken. -/
  | alreadyExists
  /-- A component of the path is no directory. -/
  | notDirectory
  /-- A directory stands where a file is wanted. -/
  | isDirectory
  /-- A component of the path is longer than a name may be. -/
  | nameTooLong
  /-- The path runs through too many symbolic links. -/
  | tooManyLinks
  /-- The path contains the byte zero. -/
  | nulInPath
  /-- The file was to hold text and does not. -/
  | notText
  /-- A path was to be written as text and has none. -/
  | pathNotText
  /-- The destination takes no more bytes. -/
  | limitReached
  /-- Any other failure, with its error number and the system's words for it. -/
  | other (number : Nat) (words : String)
  deriving DecidableEq, Repr

namespace FileError

/-- The system's error number, where the system has one for the failure. -/
def number? : FileError → Option Nat
  | notFound => some 2
  | busy => some 16
  | alreadyExists => some 17
  | notDirectory => some 20
  | isDirectory => some 21
  | nameTooLong => some 36
  | tooManyLinks => some 40
  | nulInPath => none
  | notText => none
  | pathNotText => none
  | limitReached => none
  | other number _ => some number

/-- What went wrong, without the error number. -/
def words : FileError → String
  | notFound => "No such file or directory"
  | busy => "Device or resource busy"
  | alreadyExists => "File exists"
  | notDirectory => "Not a directory"
  | isDirectory => "Is a directory"
  | nameTooLong => "File name too long"
  | tooManyLinks => "Too many levels of symbolic links"
  | nulInPath => "file name contained an unexpected NUL byte"
  | notText => "stream did not contain valid UTF-8"
  | pathNotText => "path contains invalid UTF-8 characters"
  | limitReached => "limit reached"
  | other _ words => words

/-- The message shown to the user. -/
def message (e : FileError) : String :=
  match e.number? with
  | some number => e.words ++ " (os error " ++ toString number ++ ")"
  | none => e.words

/-- The failure that the system reports by a number; `words` is kept for a number that has
no constructor of its own. -/
def ofNumber (number : Nat) (words : String) : FileError :=
  let known := [notFound, busy, alreadyExists, notDirectory, isDirectory, nameTooLong, tooManyLinks]
  (known.find? fun e => e.number? == some number).getD (other number words)

end FileError

/-- Why the bytes of a file could not be had. -/
inductive ReadError where
  /-- The file could not be opened. -/
  | opening (cause : FileError)
  /-- The file was opened and could not be read. -/
  | reading (cause : FileError)
  deriving DecidableEq, Repr

/-- What lies behind, at either step. -/
def ReadError.cause : ReadError → FileError
  | opening cause => cause
  | reading cause => cause

end LogSplit

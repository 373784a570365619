/-!
What programs do with files, and what can go wrong.
-/
namespace Trendline

inductive FileError where
  | notFound
  | isDirectory
  | notDirectory
  | alreadyExists
  /-- A name on the path, or the whole path, is longer than names may be. -/
  | nameTooLong
  /-- There is a character in the path that ends all paths. -/
  | nulInPath
  /-- The bytes are not a text in UTF-8. -/
  | notText
  | other (reason : String)
  deriving Repr, DecidableEq

def FileError.message : FileError → String
  | .notFound => "No such file or directory (os error 2)"
  | .isDirectory => "Is a directory (os error 21)"
  | .notDirectory => "Not a directory (os error 20)"
  | .alreadyExists => "File exists (os error 17)"
  | .nameTooLong => "File name too long (os error 36)"
  | .nulInPath => "file name contained an unexpected NUL byte"
  | .notText => "stream did not contain valid UTF-8"
  | .other reason => reason

/-- A place where files are kept. -/
structure FileSystem (m : Type → Type) where
  read : String → m (Except FileError ByteArray)
  /-- Makes a file, or replaces what it held. -/
  write : String → String → m (Except FileError Unit)
  /-- Makes a directory and those above it, where they do not exist. -/
  makeDirectories : String → m (Except FileError Unit)

end Trendline

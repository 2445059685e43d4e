/-!
# Why a file cannot be opened, made or resized

The refusals of the operating system, each with its text and its number. Those that a path can lead to have their names.
-/

namespace DiskArray

/-- A refusal to open, make or resize a file. -/
inductive FileError where
  | notFound
  | alreadyExists
  | notDirectory
  | isDirectory
  | nameTooLong
  | tooManyLinks
  /-- The path holds the character with code zero; it is refused before the system sees it. -/
  | zeroInPath
  /-- Any other refusal. -/
  | other (text : String) (number : Nat)
deriving DecidableEq, Repr

def FileError.message : FileError → String
  | .notFound => "No such file or directory (os error 2)"
  | .alreadyExists => "File exists (os error 17)"
  | .notDirectory => "Not a directory (os error 20)"
  | .isDirectory => "Is a directory (os error 21)"
  | .nameTooLong => "File name too long (os error 36)"
  | .tooManyLinks => "Too many levels of symbolic links (os error 40)"
  | .zeroInPath => "file name contained an unexpected NUL byte"
  | .other text number => text ++ " (os error " ++ toString number ++ ")"

end DiskArray

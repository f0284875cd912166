import FragmentHost.Text.Split

/-!
# Paths

A path is a text of names with slashes between them. It starts at the working directory, or at the top
of the file system if a slash comes first. Where it leads depends on the files that are there; what can
be told from the text alone is here.
-/

namespace FragmentHost

/-- The names on the way from the top of the file system to a file or a directory. -/
abbrev FilePath := List String

/-- Why nothing can be done with a path. -/
inductive FileProblem where
  | missing
  | alreadyExists
  | notDirectory
  | isDirectory
  | nameTooLong
  /-- The text has a character that no name can have. -/
  | invalidName
  deriving DecidableEq, Repr

namespace FileProblem

/-- The wording; the problems that the system reports have its number. -/
def text : FileProblem → String
  | missing => "No such file or directory (os error 2)"
  | alreadyExists => "File exists (os error 17)"
  | notDirectory => "Not a directory (os error 20)"
  | isDirectory => "Is a directory (os error 21)"
  | nameTooLong => "File name too long (os error 36)"
  | invalidName => "file name contained an unexpected NUL byte"

end FileProblem

namespace Path

/-- The most bytes that a name may have. -/
def nameLimit : Nat := 255

/-- The number of bytes from which on a path is too long. -/
def textLimit : Nat := 4096

/-- The name of the directory that is looked at. -/
def here : String := "."

/-- The name of the directory above. -/
def above : String := ".."

/-- The path starts at the top of the file system. -/
def isAbsolute (path : String) : Bool := path.toList.head? = some '/'

/-- The path ends in a slash, so that it can only mean a directory. -/
def endsInSlash (path : String) : Bool := path.toList.getLast? = some '/'

/-- The names between the slashes; several slashes count as one. -/
def names (path : String) : List String := (Split.text '/' path).filter (· ≠ "")

/-- The names on the way to the directory of a file. Names that stand still are not counted, also where
the last name is one. -/
def directoryNames (path : String) : List String := ((names path).filter (· ≠ here)).dropLast

/-- What is wrong with a text whatever files there are. -/
def problem? (path : String) : Option FileProblem :=
  if '\x00' ∈ path.toList then some .invalidName
  else if path = "" then some .missing
  else if textLimit ≤ path.utf8ByteSize then some .nameTooLong
  else none

/-- A directory and a name in it. -/
def join (directory name : String) : String :=
  if endsInSlash directory then directory ++ name else directory ++ "/" ++ name

end Path

end FragmentHost

import FragmentHost.Files.Path

/-!
# The files of a node

The files and directories of a node, and where paths lead among them. Every name on a path but the last
must be that of a directory, also if a step back undoes it. A path without a slash in front of it starts at
the working directory of the process, which may lie anywhere.
-/

namespace FragmentHost

/-- Files with their bytes, devices and directories, each by its way from the top. -/
structure FileTree where
  files : List (FilePath × ByteArray) := []
  /-- The files that are empty for whoever reads them, and swallow what is written to them. -/
  devices : List FilePath := []
  /-- The directories, but for the working directory and those above it. -/
  directories : List FilePath := []
  /-- The working directory of the process. -/
  working : FilePath := []

namespace FileTree

/-- There is a file at `p`. -/
def isFile (t : FileTree) (p : FilePath) : Bool := t.files.any (·.1 == p) || t.devices.contains p

/-- There is a directory at `p`. -/
def isDirectory (t : FileTree) (p : FilePath) : Bool :=
  p.isPrefixOf t.working || t.directories.contains p

/-- Where a path starts. -/
def start (t : FileTree) (path : String) : FilePath := if Path.isAbsolute path then [] else t.working

/-- Goes from a directory to what has a name in it. There is nothing above the top. -/
def step (t : FileTree) (place : FilePath) (name : String) : Except FileProblem FilePath :=
  if name = Path.here then .ok place
  else if name = Path.above then .ok place.dropLast
  else if Path.nameLimit < name.utf8ByteSize then .error .nameTooLong
  else
    let next := place ++ [name]
    if t.isFile next || t.isDirectory next then .ok next else .error .missing

/-- Goes from a directory to a directory. -/
def walk (t : FileTree) (place : FilePath) : (names : List String) → Except FileProblem FilePath
  | [] => .ok place
  | name :: rest =>
    match t.step place name with
    | .error problem => .error problem
    | .ok next => if t.isDirectory next then walk t next rest else .error .notDirectory

/-- The file or directory that a path leads to. -/
def find (t : FileTree) (path : String) : Except FileProblem FilePath :=
  match Path.problem? path with
  | some problem => .error problem
  | none =>
    let names := Path.names path
    if Path.endsInSlash path then t.walk (t.start path) names
    else
      match t.walk (t.start path) names.dropLast with
      | .error problem => .error problem
      | .ok place => t.step place (names.getLast?.getD Path.here)

/-- The path leads to a file or a directory. -/
def contains (t : FileTree) (path : String) : Bool := (t.find path).toBool

/-- The bytes of a file. -/
def read? (t : FileTree) (path : String) : Option ByteArray :=
  match t.find path with
  | .ok p => if t.devices.contains p then some ByteArray.empty else t.files.lookup p
  | .error _ => none

/-- The text of a file, if its bytes are one. -/
def readText? (t : FileTree) (path : String) : Option String :=
  (t.read? path).bind String.fromUTF8?

/-- The tree with more bytes at the end of a plain file. -/
def append (t : FileTree) (p : FilePath) (bytes : ByteArray) : FileTree :=
  { t with files := t.files.map fun (q, old) => (q, if q = p then old ++ bytes else old) }

end FileTree

end FragmentHost

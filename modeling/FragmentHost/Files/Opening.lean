import FragmentHost.Files.Tree

/-!
# Opening files for writing

A file is opened at its end and made if it is missing. The directories on its way are made before; those
that were made stay even if the file cannot be opened then.
-/

namespace FragmentHost.FileTree

/-- Makes the directory with a name in the directory that `before` leads to. -/
def makeDirectory (t : FileTree) (start : FilePath) (before : List String) (name : String) :
    Except FileProblem FileTree :=
  match Path.problem? ("/".intercalate (before ++ [name])) with
  | some problem => .error problem
  | none =>
    match t.walk start before with
    | .error problem => .error problem
    | .ok place =>
      match t.step place name with
      | .error .missing => .ok { t with directories := t.directories ++ [place ++ [name]] }
      | .error problem => .error problem
      | .ok _ => .error .alreadyExists

/-- A way leads to a directory. -/
def reachesDirectory (t : FileTree) (start : FilePath) (names : List String) : Bool :=
  (Path.problem? ("/".intercalate names)).isNone && (t.walk start names).toBool

/-- Makes a directory unless there is one. -/
def ensureDirectory (t : FileTree) (start : FilePath) (before : List String) (name : String) :
    Except FileProblem FileTree :=
  match t.makeDirectory start before name with
  | .ok t => .ok t
  | .error problem =>
    if t.reachesDirectory start (before ++ [name]) then .ok t else .error problem

/-- Makes the directories of a way, given from its end. Those further up are looked at only if
one of them is missing, so that a file in the place of the last directory is told from one before it. -/
def ensureDirectories (t : FileTree) (start : FilePath) :
    (wayBack : List String) → FileTree × Option FileProblem
  | [] => (t, none)
  | name :: before =>
    match t.ensureDirectory start before.reverse name with
    | .ok t => (t, none)
    | .error .missing =>
      match ensureDirectories t start before with
      | (t, some problem) => (t, some problem)
      | (t, none) =>
        match t.ensureDirectory start before.reverse name with
        | .ok t => (t, none)
        | .error problem => (t, some problem)
    | .error problem => (t, some problem)

/-- Opens a file whose directory is there. -/
def openFile (t : FileTree) (path : String) : Except FileProblem (FileTree × FilePath) :=
  match Path.problem? path with
  | some problem => .error problem
  | none =>
    let names := Path.names path
    match t.walk (t.start path) names.dropLast with
    | .error problem => .error problem
    | .ok place =>
      let name := names.getLast?.getD Path.here
      if name = Path.here ∨ name = Path.above ∨ Path.endsInSlash path then .error .isDirectory
      else
        match t.step place name with
        | .ok p => if t.isDirectory p then .error .isDirectory else .ok (t, p)
        | .error .missing =>
          let new := place ++ [name]
          .ok ({ t with files := t.files ++ [(new, ByteArray.empty)] }, new)
        | .error problem => .error problem

/-- Opens a file for writing at its end; the file and its directories are made if they are missing. -/
def openForAppend (t : FileTree) (path : String) : FileTree × Except FileProblem FilePath :=
  match t.ensureDirectories (t.start path) (Path.directoryNames path).reverse with
  | (t, some problem) => (t, .error problem)
  | (t, none) =>
    match t.openFile path with
    | .error problem => (t, .error problem)
    | .ok (t, place) => (t, .ok place)

/-- The tree after bytes were written to the end of a file. -/
def write (t : FileTree) (path : String) (bytes : ByteArray) : FileTree :=
  match t.openForAppend path with
  | (t, .ok p) => t.append p bytes
  | (t, .error _) => t

/-- The tree after files were written, one after the other. -/
def writeAll (t : FileTree) (files : List (String × ByteArray)) : FileTree :=
  files.foldl (fun t file => t.write file.1 file.2) t

/-- A file as the working directory has it, if it is in there. -/
def nameInWorking? (t : FileTree) (p : FilePath) : Option FilePath :=
  if t.working.isPrefixOf p then some (p.drop t.working.length) else none

end FragmentHost.FileTree

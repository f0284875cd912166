import FragmentHost.Files.Opening
import FragmentHost.Log.Layout
import FragmentHost.Text.Blank

/-!
# The journal of a node

Where the log goes and what was written so far. A journal is opened once; a second attempt changes
nothing. If the file cannot be opened, the records go to standard error after a line that says so. A log
file is a file like any other: what was written can be read by its path, also as a configuration.
-/

namespace FragmentHost

/-- Variables of the environment, by name. -/
abbrev Variables := List (String × String)

/-- The value of a variable without blanks at its ends, unless nothing is left of it. -/
def Variables.nonBlank? (vs : Variables) (name : String) : Option String :=
  ((vs.lookup name).map Blank.trim).filter (· ≠ "")

/-- Where a log is to be written. -/
inductive LogDestination where
  | file (path : String)
  | standardError
  deriving DecidableEq, Repr, Inhabited

namespace LogDestination

/-- The path that the environment asks for: a file by itself, or the usual file in some directory. -/
def pathOf (vs : Variables) : String :=
  match vs.nonBlank? "FRAGEXEC_LOG_FILE" with
  | some path => path
  | none =>
    let directory :=
      (vs.nonBlank? "FRAGEXEC_LOG_DIR").getD ((vs.nonBlank? "LOG_DIR").getD "log")
    Path.join directory "fragexec.log"

/-- The destination that the environment asks for. -/
def ofVariables (vs : Variables) : LogDestination := .file (pathOf vs)

end LogDestination

/-- Where an open log writes. -/
inductive LogSink where
  | file (place : FilePath)
  | standardError
  deriving DecidableEq, Repr

/-- An open log with its records, the latest last. -/
structure Logger where
  filter : LogFilter
  sink : LogSink
  records : List LogRecord := []
  deriving DecidableEq, Repr

namespace Logger

/-- All that was written. -/
def text (l : Logger) : String := String.join (l.records.map (·.written))

/-- Writes an event that happens inside spans, the outermost first, if the filter lets it through. -/
def record (l : Logger) (spans : List LogSpan) (e : LogEvent) : Logger :=
  { l with records := l.records ++ (l.filter.record? spans e).toList }

end Logger

/-- The files of the node, its log and its standard error. -/
structure Journal where
  /-- The files without what the log wrote to them. -/
  base : FileTree := {}
  /-- The file that was made by opening the log. -/
  created : Option FilePath := none
  /-- What stands on standard error before the log. -/
  complaint : String := ""
  logger : Option Logger := none

namespace Journal

/-- The line about a log file that cannot be opened. -/
def complaintAbout (path : String) (problem : FileProblem) : String :=
  "failed to open log file " ++ path ++ ": " ++ problem.text ++ ", fallback to stderr\n"

/-- The file at a place, if the opening of the log made it. -/
def newFile? (before : FileTree) (p : FilePath) : Option FilePath :=
  if before.isFile p then none else some p

/-- Opens the log, unless it is open. -/
def start (j : Journal) (filter : String) (destination : LogDestination) : Journal :=
  match j.logger with
  | some _ => j
  | none =>
    let filter := LogFilter.ofText filter
    match destination with
    | .standardError => { j with logger := some ⟨filter, .standardError, []⟩ }
    | .file path =>
      match j.base.openForAppend path with
      | (t, .ok place) =>
        { j with
          base := t
          created := newFile? j.base place
          logger := some ⟨filter, .file place, []⟩ }
      | (t, .error problem) =>
        { j with
          -- the directories that were made stay
          base := t
          complaint := complaintAbout path problem
          logger := some ⟨filter, .standardError, []⟩ }

/-- Writes an event that happens inside spans, the outermost first. -/
def record (j : Journal) (spans : List LogSpan) (e : LogEvent) : Journal :=
  { j with logger := j.logger.map (·.record spans e) }

/-- Writes several events. -/
def recordAll (j : Journal) (spans : List LogSpan) (es : List LogEvent) : Journal :=
  es.foldl (·.record spans ·) j

/-- The files as they are now. -/
def files (j : Journal) : FileTree :=
  match j.logger with
  | some ⟨filter, .file p, records⟩ =>
    j.base.append p (Logger.text ⟨filter, .file p, records⟩).toUTF8
  | _ => j.base

/-- The text on standard error. -/
def standardError (j : Journal) : String :=
  match j.logger with
  | some l => if l.sink = .standardError then j.complaint ++ l.text else j.complaint
  | none => j.complaint

/-- The file that the log made in the working directory, with its text. -/
def newFiles (j : Journal) : List (FilePath × String) :=
  (j.created.bind j.base.nameInWorking?).toList.map fun p => (p, (j.logger.map (·.text)).getD "")

end Journal

end FragmentHost

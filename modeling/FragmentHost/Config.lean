import FragmentHost.Files.Tree
import FragmentHost.Log.Journal
import FragmentHost.Toml.Document
import FragmentHost.Word

/-!
# Configuration of a node

The settings of a node, how they are read from a file, and where the file is found. A configuration
that was read successfully stays for good: `ConfigSource.current` does not look again.
-/

namespace FragmentHost

/-- The settings of a node. -/
structure Config where
  logLevel : String := "info"
  logFilter : Option String := none
  /-- The ceiling of the root allocator; a negative number sets none. -/
  rootLimit : Int := -1
  initialReservation : Int := 1000000
  maxReservation : Int := 20000000000
  /-- The size of buffers asked for without one. -/
  bufferSize : Nat := 256
  /-- Fragment allocators are subject to the limits above them. -/
  applyFragmentLimit : Bool := true
  deriving DecidableEq, Repr, Inhabited

/-- Why there is no configuration. -/
inductive ConfigError where
  /-- No file is named and none stands at the usual place. -/
  | missing
  /-- The file cannot be read as text. -/
  | unreadable (path : String)
  /-- The text is no configuration. -/
  | malformed (path : String)
  deriving DecidableEq, Repr, Inhabited

namespace ConfigError

/-- The wording. -/
def message : ConfigError → String
  | missing => "missing config file: set $FRAGEXEC_CONFIG or create ./fragexec.toml"
  | unreadable path => "read config file: " ++ path
  | malformed path => "parse toml: " ++ path

end ConfigError

namespace Config

/-- The filter of the log: the one that is set, or else the level. -/
def effectiveFilter (c : Config) : String := c.logFilter.getD c.logLevel

/-- A section, taken apart in the order of `keys`: a table by its keys, a list by its places. What is
missing is left out and what is in excess is ignored. A moment is a section without anything. -/
def section? (keys : List String) (v : Toml.Value) : Option (List (String × Toml.Value)) :=
  match v with
  | .table _ entries => some entries
  | .list items => some (keys.zip items)
  | .moment => some []
  | _ => none

/-- Changes a value by the entry at `key`, if there is one; it must be of the right type. -/
def withEntry {α : Type} (entries : List (String × Toml.Value)) (key : String)
    (change : Toml.Value → Option α) (unchanged : α) : Option α :=
  match entries.lookup key with
  | none => some unchanged
  | some v => change v

/-- A text. -/
def text? : Toml.Value → Option String
  | .string s => some s
  | _ => none

/-- An integer. -/
def integer? : Toml.Value → Option Int
  | .integer n => some n
  | _ => none

/-- An integer that is not negative. -/
def size? : Toml.Value → Option Nat
  | .integer n => if 0 ≤ n then some n.toNat else none
  | _ => none

/-- A switch. -/
def switch? : Toml.Value → Option Bool
  | .bool b => some b
  | _ => none

/-- The settings of memory in order. -/
def memoryKeys : List String :=
  ["root_limit_bytes", "default_initial_reservation_bytes", "default_max_reservation_bytes",
   "managed_buffer_default_bytes"]

/-- The settings of execution in order. -/
def runtimeKeys : List String := ["apply_fragment_limit"]

/-- Takes the settings of memory. -/
def withMemory (c : Config) (v : Toml.Value) : Option Config := do
  let s ← section? memoryKeys v
  let rootLimit ← withEntry s "root_limit_bytes" integer? c.rootLimit
  let initialReservation ←
    withEntry s "default_initial_reservation_bytes" integer? c.initialReservation
  let maxReservation ← withEntry s "default_max_reservation_bytes" integer? c.maxReservation
  let bufferSize ← withEntry s "managed_buffer_default_bytes" size? c.bufferSize
  return { c with rootLimit, initialReservation, maxReservation, bufferSize }

/-- Takes the settings of execution. -/
def withRuntime (c : Config) (v : Toml.Value) : Option Config := do
  let s ← section? runtimeKeys v
  let applyFragmentLimit ← withEntry s "apply_fragment_limit" switch? c.applyFragmentLimit
  return { c with applyFragmentLimit }

/-- The configuration of a document. Unknown keys have no effect. -/
def ofEntries? (entries : List (String × Toml.Value)) : Option Config := do
  let c : Config := {}
  let logLevel ← withEntry entries "log_level" text? c.logLevel
  let logFilter ← withEntry entries "log_filter" (fun v => (text? v).map some) c.logFilter
  let c := { c with logLevel, logFilter }
  let c ← withEntry entries "memory" c.withMemory c
  withEntry entries "runtime" c.withRuntime c

/-- The configuration of a text. -/
def ofText? (s : String) : Option Config := (Toml.document? s).bind ofEntries?

/-- The configuration of a file. -/
def load (files : FileTree) (path : String) : Except ConfigError Config :=
  match files.readText? path with
  | none => .error (.unreadable path)
  | some text =>
    match ofText? text with
    | none => .error (.malformed path)
    | some c => .ok c

/-- The path of the file: the one that a variable names, unless it is blank, or the usual one. -/
def locate (vs : Variables) (files : FileTree) : Except ConfigError String :=
  let named := (vs.lookup "FRAGEXEC_CONFIG").filter fun p => !Blank.isBlankText p
  match named with
  | some path => .ok path
  | none => if files.contains "fragexec.toml" then .ok "fragexec.toml" else .error .missing

end Config

/-- The configuration in force, once there is one, and the variables that lead to its file. -/
structure ConfigSource where
  environ : Variables := []
  latched : Option Config := none
  deriving Repr, Inhabited

namespace ConfigSource

/-- The configuration of a file, unless there is one in force. The first one that is read stays. -/
def fromPath (s : ConfigSource) (files : FileTree) (path : String) :
    Except ConfigError Config × ConfigSource :=
  match s.latched with
  | some c => (.ok c, s)
  | none =>
    match Config.load files path with
    | .ok c => (.ok c, { s with latched := some c })
    -- a failure is not remembered: the next attempt reads the file again
    | .error e => (.error e, s)

/-- The configuration in force, or else that of the file that the environment names. -/
def current (s : ConfigSource) (files : FileTree) : Except ConfigError Config × ConfigSource :=
  match s.latched with
  | some c => (.ok c, s)
  | none =>
    match Config.locate s.environ files with
    | .ok path => s.fromPath files path
    | .error e => (.error e, s)

/-- The configuration in force, or else the built-in settings. -/
def settings (s : ConfigSource) (files : FileTree) : Config × ConfigSource :=
  match s.current files with
  | (.ok c, s) => (c, s)
  | (.error _, s) => ({}, s)

end ConfigSource

end FragmentHost

import FragmentHost.Session.Names

/-!
# Commands on the configuration and the log
-/

namespace FragmentHost

/-- What can be asked of the configuration. -/
inductive ConfigCommand where
  /-- Reads a file without keeping the configuration. -/
  | load (path : String)
  /-- Reads a file for good, unless a configuration is in force. -/
  | fromPath (path : String)
  /-- The configuration in force, which is read now if there is none. -/
  | current
  /-- The settings of memory in force, or the built-in ones. -/
  | reservations
  deriving DecidableEq, Repr

/-- How a log is opened. -/
inductive LogOpening where
  /-- As the environment says, from level information on. -/
  | usual
  /-- As the environment says, with the filter of the configuration. -/
  | configured
  /-- As the environment says, with a filter. -/
  | filtered (filter : String)
  | toFile (filter path : String)
  | toStandardError (filter : String)
  deriving DecidableEq, Repr

/-- What can be asked of the log. -/
inductive LogCommand where
  | openLog (how : LogOpening)
  /-- The path that the environment asks for. -/
  | destination
  /-- An event of the driving program inside spans with one field each. -/
  | emit (level : LogLevel) (message : String) (spans : List String)
  deriving DecidableEq, Repr

namespace Session

/-- The session after a look at the configuration, and what it found. -/
def configured (s : Session) (result : Except ConfigError Config × ConfigSource) : Outcome :=
  let s := s.on { s.host with config := result.2 }
  match result.1 with
  | .ok c => s.answer (.config c)
  | .error e => s.refuse (.config e)

/-- Carries out a command on the configuration. -/
def onConfig (s : Session) : ConfigCommand → Outcome
  | .load path =>
    s.configured (Config.load s.host.journal.files path, s.host.config)
  | .fromPath path => s.configured (s.host.config.fromPath s.host.journal.files path)
  | .current => s.configured (s.host.config.current s.host.journal.files)
  | .reservations =>
    let (c, h) := s.host.settings
    (s.on h).answer (.reservations c)

/-- The field of a span of the driving program. -/
def spanOf (text : String) : LogSpan := ⟨.driver, "v=" ++ text⟩

/-- Opens the log. -/
def openLog (s : Session) (filter : String) (destination : LogDestination) : Session :=
  s.on { s.host with journal := s.host.journal.start filter destination }

/-- Where the environment wants the log. -/
def destination (s : Session) : LogDestination := .ofVariables s.host.config.environ

/-- The filter without a configuration. -/
def usualFilter : String := "info"

/-- Carries out a command on the log. -/
def onLog (s : Session) : LogCommand → Outcome
  | .openLog .usual => (s.openLog usualFilter s.destination).done
  | .openLog .configured =>
    let (config, source) := s.host.config.current s.host.journal.files
    let s := s.on { s.host with config := source }
    let filter := match config with
      | .ok c => c.effectiveFilter
      | .error _ => usualFilter
    (s.openLog filter s.destination).done
  | .openLog (.filtered filter) => (s.openLog filter s.destination).done
  | .openLog (.toFile filter path) => (s.openLog filter (.file path)).done
  | .openLog (.toStandardError filter) => (s.openLog filter .standardError).done
  | .destination => s.answer (.text (some (LogDestination.pathOf s.host.config.environ)))
  | .emit level message spans =>
    (s.on { s.host with
      journal := s.host.journal.record (spans.map spanOf) ⟨level, .driver, message⟩ }).done

end Session

end FragmentHost

import FragmentHost.Session.Allocators
import FragmentHost.Session.Buffers
import FragmentHost.Session.Catalogs
import FragmentHost.Session.Contexts
import FragmentHost.Session.Environments
import FragmentHost.Session.Failures
import FragmentHost.Session.Options
import FragmentHost.Session.Profiles
import FragmentHost.Session.Settings

/-!
# Runs

A run carries out commands one after the other. After each command, also after a refused one, what
nobody holds is given up and the state of the named allocators, contexts and environments is noted.
-/

namespace FragmentHost

/-- Anything that can be asked of a session. -/
inductive Command where
  | allocator (c : AllocatorCommand)
  | pool (c : PoolCommand)
  | buffer (c : BufferCommand)
  | deferred (c : DeferredCommand)
  | state (c : StateCommand)
  | option (c : OptionCommand)
  | profile (c : ProfileCommand)
  | counter (c : CounterCommand)
  | registry (c : RegistryCommand)
  | schema (c : SchemaCommand)
  | tunnel (c : TunnelCommand)
  | environment (c : EnvironmentCommand)
  | context (c : ContextCommand)
  | config (c : ConfigCommand)
  | log (c : LogCommand)
  deriving DecidableEq, Repr

/-- What a process finds when it starts. -/
structure Process where
  environ : Variables := []
  files : FileTree := {}
  zones : ZoneTable := Zone.table

/-- The state of a context as noted after a command. -/
structure ContextStatus where
  state : Lifecycle
  isClosed : Bool
  /-- The final report was made. -/
  reported : Bool
  /-- The number of buffers that are tracked and not released. -/
  buffers : Nat
  deriving DecidableEq, Repr, Inhabited

/-- What is noted after a command. -/
structure Snapshot where
  /-- The bytes in use and the most ever in use, by the names of allocators. -/
  memory : List (String × Int × Int)
  contexts : List (String × ContextStatus)
  /-- The data and control tunnels opened for them, by the names of environments. -/
  tunnels : List (String × Nat × Nat)
  deriving DecidableEq, Repr, Inhabited

namespace Session

/-- Carries out a command. -/
def perform (s : Session) : Command → Outcome
  | .allocator c => s.onAllocators c
  | .pool c => s.onPools c
  | .buffer c => s.onBuffers c
  | .deferred c => s.onDeferred c
  | .state c => s.onStates c
  | .option c => s.onOptions c
  | .profile c => s.onProfiles c
  | .counter c => s.onCounters c
  | .registry c => s.onRegistries c
  | .schema c => s.onSchemas c
  | .tunnel c => s.onTunnels c
  | .environment c => s.onEnvironments c
  | .context c => s.onContexts c
  | .config c => s.onConfig c
  | .log c => s.onLog c

/-- Carries out a command and gives up what nobody holds then. -/
def step (s : Session) (c : Command) : Outcome :=
  let (s, result) := s.perform c
  (s.tidy, result)

/-- The state of a context. -/
def status (h : Host) (c : Context) : ContextStatus where
  state := c.state
  isClosed := c.isClosed
  reported := c.deferred.closed
  buffers := h.arena.poolSize c.pool

/-- What can be noted of a session. -/
def snapshot (s : Session) : Snapshot where
  memory := s.names.allocators.map fun (name, a) =>
    (name, s.host.forest.current a.number, s.host.forest.peak a.number)
  contexts := s.names.contexts.filterMap fun (name, c) =>
    (s.host.context? c).map fun c => (name, status s.host c)
  tunnels := s.names.environments.filterMap fun (name, e) =>
    (s.host.environment? e).map fun e =>
      (name, opened s.host.pools e.services.pool, opened s.host.controllers e.services.controller)

/-- Carries out commands in order: the session at the end, and each answer with what was noted. -/
def run (s : Session) : List Command → Session × List (Except Refusal Reply × Snapshot)
  | [] => (s, [])
  | c :: rest =>
    let (s, result) := s.step c
    -- noted now, before the next command changes anything
    let entry := (result, s.snapshot)
    let (s, entries) := run s rest
    (s, entry :: entries)

/-- The session of a new process. -/
def ofProcess (p : Process) : Session :=
  { host := { journal := { base := p.files }, config := { environ := p.environ }, zones := p.zones } }

end Session

end FragmentHost

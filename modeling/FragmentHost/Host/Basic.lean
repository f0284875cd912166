import FragmentHost.Buffers.Arena
import FragmentHost.Context.Basic
import FragmentHost.Environment
import FragmentHost.FunctionRegistry

/-!
# Hosts

A host is everything that one node keeps: memory, options, profiles, registries, environments and the
contexts of its fragments, the services that were made elsewhere for them and caches of tunnels, each under
the number in order of creation, with the configuration and the log. Numbers are never reused, so that a
later object never takes the place of an earlier one.
-/

namespace FragmentHost

/-- The state of a node. -/
structure Host where
  arena : Arena := {}
  /-- The options of node managers. -/
  options : List NodeOptions := []
  profiles : List Profile := []
  registries : List FunctionRegistry := []
  environments : List Environment := []
  contexts : List Context := []
  incoming : List IncomingBuffers := []
  /-- The pools of connections, which hand out data tunnels. -/
  pools : List TunnelSource := []
  /-- The controllers, which hand out control tunnels. -/
  controllers : List TunnelSource := []
  factories : List SchemaFactory := []
  /-- The caches of data tunnels that do not belong to a context. -/
  caches : List BareCache := []
  journal : Journal := {}
  config : ConfigSource := {}
  /-- The time zones that the node knows. -/
  zones : ZoneTable := Zone.table

namespace Host

/-- The allocators of the host. -/
def forest (h : Host) : Forest := h.arena.forest

/-- Writes an event that happens outside of any span. -/
def log (h : Host) (e : LogEvent) : Host := { h with journal := h.journal.record [] e }

/-- The configuration in force; it stays once it was read. -/
def settings (h : Host) : Config × Host :=
  let (c, source) := h.config.settings h.journal.files
  (c, { h with config := source })

/-- The host with other allocators. -/
def withForest (h : Host) (f : Forest) : Host := { h with arena := { h.arena with forest := f } }

/-- New options of a node. -/
def addOptions (h : Host) : Host × Nat :=
  ({ h with options := h.options ++ [[]] }, h.options.length)

/-- Sets an option of a node manager. -/
def setOption (h : Host) (manager : Nat) (o : PlanOption) : Host :=
  { h with options := h.options.modify manager (NodeOptions.set · o) }

/-- The option in force on top of a stack of managers. -/
def option? (h : Host) (s : OptionStack) (name : String) : Option PlanOption :=
  s.find? (h.options[s.base]?.getD []) name

/-- A new profile. -/
def addProfile (h : Host) (p : Profile) : Host × Nat :=
  ({ h with profiles := h.profiles ++ [p] }, h.profiles.length)

/-- The profile with a number. -/
def profile (h : Host) (p : Nat) : Profile := h.profiles[p]?.getD default

/-- Changes a profile. -/
def modifyProfile (h : Host) (p : Nat) (change : Profile → Profile) : Host :=
  { h with profiles := h.profiles.modify p change }

/-- A new registry of functions. -/
def addRegistry (h : Host) : Host × Nat :=
  ({ h with registries := h.registries ++ [[]] }, h.registries.length)

/-- The registry with a number. -/
def registry (h : Host) (r : Nat) : FunctionRegistry := h.registries[r]?.getD []

/-- Registers a function. -/
def registerFunction (h : Host) (r : Nat) (s : FunctionSignature) : Host :=
  { h with registries := h.registries.modify r (FunctionRegistry.register · s) }

/-- The environment with a number. -/
def environment? (h : Host) (e : Nat) : Option Environment := h.environments[e]?

/-- The context with a number. -/
def context? (h : Host) (c : Nat) : Option Context := h.contexts[c]?

/-- Changes a context. -/
def modifyContext (h : Host) (c : Nat) (change : Context → Context) : Host :=
  { h with contexts := h.contexts.modify c change }

end Host

end FragmentHost

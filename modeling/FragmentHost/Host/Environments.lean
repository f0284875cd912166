import FragmentHost.Host.Allocators
import FragmentHost.Host.Services

/-!
# The environments of a host

An environment is made from services that are there already, and any number of environments may be given
the same. A root allocator and options it gets for itself unless they are given.
-/

namespace FragmentHost

namespace Host

/-- The root allocator of a new environment: the given one, or one of its own that the configuration
bounds. -/
def rootFor (h : Host) (root : Option Nat) : Host × Nat :=
  match root with
  | some r => (h, r)
  | none =>
    let (config, h) := h.settings
    h.newRoot Environment.rootLabel config.rootLimit

/-- The options of a new environment: the given ones, or a manager of its own without options. -/
def optionsFor (h : Host) (options : Option OptionStack) : Host × OptionStack :=
  match options with
  | some s => (h, s)
  | none =>
    let (h, base) := h.addOptions
    (h, { base := base })

/-- A new environment above a root allocator. -/
def openEnvironment (h : Host) (root : Nat) (endpoint : Endpoint) (options : Option OptionStack)
    (services : Services) : Host × Nat :=
  let (h, metrics) := h.addProfile (Profile.empty Environment.metricsName)
  let (h, options) := h.optionsFor options
  let e : Environment := { root, endpoint, metrics, options, services }
  ({ h with environments := h.environments ++ [e] }, h.environments.length)

/-- Counts in the metrics of an environment. -/
def count (h : Host) (environment : Nat) (metric : String) : Host :=
  match h.environment? environment with
  | none => h
  | some e => h.modifyProfile e.metrics (·.addTo metric .count 1)

end Host

end FragmentHost

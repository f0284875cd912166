import FragmentHost.Host.Environments
import FragmentHost.Profile.Listing
import FragmentHost.Session.Names

/-!
# Commands on environments
-/

namespace FragmentHost

/-- What can be asked of environments. -/
inductive EnvironmentCommand where
  /-- A new environment with services of its own; without a root or options it gets some as well. -/
  | make (new : String) (root : Option String) (endpoint : Endpoint) (options : Option String)
    (catalog : Catalog)
  | nameRoot (environment new : String)
  | metrics (environment : String)
  | option (environment name : String)
  | drop (environment : String)
  deriving DecidableEq, Repr

namespace Session

/-- Goes on with the object of a name, if a name is given at all. -/
def findOptional {α : Type} (s : Session) (table : Names → Dictionary α) (name : Option String)
    (next : Option α → Outcome) : Outcome :=
  match name with
  | none => next none
  | some name => s.find table name fun x => next (some x)

/-- Goes on with the environment of a name. -/
def findEnvironment (s : Session) (name : String) (next : Nat → Environment → Outcome) :
    Outcome :=
  s.find (·.environments) name fun number =>
    match s.host.environment? number with
    | some e => next number e
    | none => s.refuse (.unknownName name)

/-- Shows the metrics of an environment. -/
def metricsReport (p : Profile) : MetricsReport where
  started := p.value? Environment.started
  failed := p.value? Environment.failed
  canceled := p.value? Environment.canceled
  listing := p.text

/-- Carries out a command on environments. -/
def onEnvironments (s : Session) : EnvironmentCommand → Outcome
  | .make new root endpoint options catalog =>
    s.findOptional (·.allocators) root fun a =>
      -- the configuration stays read even if there are no such options
      let (h, root) := s.host.rootFor (a.map (·.number))
      let s := s.on h
      s.findOptional (·.managers) options fun m =>
        let (h, services) := s.host.ownServices Tunnel.numbered Tunnel.numbered catalog.schemas
        let (h, number) := h.openEnvironment root endpoint (m.map (·.stack)) services
        ((s.on h).naming fun n => { n with environments := n.environments.put new number }).done
  | .nameRoot environment new =>
    s.findEnvironment environment fun _ e => (s.nameAllocator new e.root false).done
  | .metrics environment =>
    s.findEnvironment environment fun _ e =>
      s.answer (.metrics (metricsReport (s.host.profile e.metrics)))
  | .option environment name =>
    s.findEnvironment environment fun _ e => s.answer (.option ⟨s.host.option? e.options name⟩)
  | .drop environment =>
    s.findEnvironment environment fun _ _ =>
      (s.naming fun n => { n with environments := n.environments.remove environment }).done

end Session

end FragmentHost

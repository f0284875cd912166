import FragmentHost.Failure.Deferred
import FragmentHost.Log.Event

/-!
# Releases during a teardown

A resource that cannot be released must not keep the next one from being released. Its failure is
therefore recorded instead of being reported at once, with a warning in the log.
-/

namespace FragmentHost

/-- Something in a store of type `σ` that can be released: what it is called, and what becomes of the store
with its release, which may fail. -/
structure Closeable (σ : Type) where
  name : σ → String
  close : σ → σ × Option Failure

namespace Deferred

/-- The warning that a release failed. -/
def releaseWarning (resource : String) (f : Failure) : LogEvent :=
  ⟨.warn, .failures, "release of " ++ resource ++ " failed, deferring: " ++ f.message⟩

/-- The warning that a failure was not recorded. -/
def lossWarning (source : LogSource) (refusal : Failure) : LogEvent :=
  ⟨.warn, source, refusal.message⟩

/-- Records the outcome of releasing a resource; the events tell of a failure and of its loss. -/
def release (d : Deferred) (resource : String) (outcome : Option Failure) :
    Deferred × List LogEvent :=
  let (d, lost) := d.absorb outcome
  (d, (outcome.map (releaseWarning resource)).toList ++
    (lost.map (lossWarning .failures)).toList)

/-- Releases a resource of the store `s`, if there is one, whatever failed before. -/
def releasing {σ : Type} (d : Deferred) (s : σ) : Option (Closeable σ) → σ × Deferred × List LogEvent
  | none => (s, d, [])
  | some resource =>
    let (s, outcome) := resource.close s
    (s, d.release (resource.name s) outcome)

@[simp] theorem release_none (d : Deferred) (resource : String) :
    d.release resource none = (d, []) := rfl

end Deferred

end FragmentHost

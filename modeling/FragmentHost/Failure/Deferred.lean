import FragmentHost.Failure

/-!
# Deferred failures

A teardown goes on when one of its steps fails; the failures are collected and reported at its end.
The first one recorded is the primary failure, later ones are attached to it in order of arrival.
`Deferred.toList` is the view through which the operations are told apart.
-/

namespace FragmentHost

/-- Failures recorded so far, and whether the final report was made. -/
structure Deferred where
  first : Option Failure := none
  later : List Failure := []
  closed : Bool := false
  deriving DecidableEq, Repr, Inhabited

namespace Deferred

/-- The recorded failures in order of arrival. -/
def toList (d : Deferred) : List Failure :=
  match d.first with
  | some f => f :: d.later
  | none => []

/-- The refusal of a failure that came too late. -/
def refusal (f : Failure) : Failure :=
  .closed ("deferred error (dropped: " ++ f.message ++ ")")

/-- Records a failure; refused once the final report was made. -/
def add (d : Deferred) (f : Failure) : Except Failure Deferred :=
  if d.closed then .error (refusal f)
  else match d.first with
    | none => .ok { d with first := some f }
    | some _ => .ok { d with later := d.later ++ [f] }

/-- The recorded failures as one, if there are any. -/
def report? (d : Deferred) : Option Failure :=
  d.first.map (·.withSuppressed d.later)

/-- The recorded failures forgotten. -/
def cleared (d : Deferred) : Deferred := { d with first := none, later := [] }

/-- Reports the recorded failures and forgets them. -/
def take (d : Deferred) : Option Failure × Deferred := (d.report?, d.cleared)

/-- The final report: nothing more is recorded afterwards. -/
def close (d : Deferred) : Option Failure × Deferred :=
  (d.report?, { d.cleared with closed := true })

/-- Records the outcome of a release, if it failed. A failure that comes too late is lost; the second
part says so. -/
def absorb (d : Deferred) (outcome : Option Failure) : Deferred × Option Failure :=
  match outcome with
  | none => (d, none)
  | some f =>
    match d.add f with
    | .ok d => (d, none)
    | .error lost => (d, some lost)

/-- Nothing is attached while there is no primary failure. -/
def Sound (d : Deferred) : Prop := d.first = none → d.later = []

theorem sound_empty : Sound {} := fun _ => rfl

@[simp] theorem toList_cleared (d : Deferred) : d.cleared.toList = [] := rfl

theorem toList_add {d e : Deferred} {f : Failure} (hs : d.Sound) (h : d.add f = .ok e) :
    e.toList = d.toList ++ [f] := by
  simp only [add] at h
  split at h
  · simp at h
  · split at h
    · next hn =>
      injection h with h
      subst h
      simp [toList, hn, hs hn]
    · next g hg =>
      injection h with h
      subst h
      simp [toList, hg]

theorem report?_eq (d : Deferred) :
    d.report? = match d.toList with
      | [] => none
      | f :: fs => some (f.withSuppressed fs) := by
  cases hd : d.first <;> simp [report?, toList, hd]

end Deferred

end FragmentHost

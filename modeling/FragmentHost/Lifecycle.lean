/-!
# Lifecycle of a fragment

A fragment runs, has failed or was canceled. A state is only ever left for a later one, so cancellation
dominates failure and neither is undone.
-/

namespace FragmentHost

/-- Where a fragment stands. -/
inductive Lifecycle where
  | ok
  | failed
  | canceled
  deriving DecidableEq, Repr, Inhabited

namespace Lifecycle

/-- Running comes before failure, failure before cancellation. -/
def rank : Lifecycle → Nat
  | ok => 0
  | failed => 1
  | canceled => 2

/-- The state after a request to move to `target`: the later of the two. -/
def request (state target : Lifecycle) : Lifecycle :=
  match state, target with
  | ok, t => t
  | failed, canceled => canceled
  | s, _ => s

/-- The fragment failed and was not canceled. -/
def isFailed (state : Lifecycle) : Bool := state = failed

/-- The fragment was canceled. -/
def isCanceled (state : Lifecycle) : Bool := state = canceled

/-- The state in capitals. -/
def text : Lifecycle → String
  | ok => "OK"
  | failed => "FAILED"
  | canceled => "CANCELED"

/-- The state as it appears in descriptions. -/
def describe : Lifecycle → String
  | ok => "Ok"
  | failed => "Failed"
  | canceled => "Canceled"

theorem rank_request (s t : Lifecycle) : (s.request t).rank = max s.rank t.rank := by
  cases s <;> cases t <;> rfl

theorem request_eq_self_iff (s t : Lifecycle) : s.request t = s ↔ t.rank ≤ s.rank := by
  cases s <;> cases t <;> decide

end Lifecycle

end FragmentHost

import FragmentHost.Config
import FragmentHost.Identity

/-!
# Plans of fragments

What the scheduler hands out for one fragment. A request may leave the reservations and the time zone
open; the configuration of the node and universal time then take their places.
-/

namespace FragmentHost

/-- The definition of one fragment. -/
structure PlanFragment where
  handle : FragmentHandle
  /-- The reservation. -/
  initial : Int
  /-- The ceiling; a negative number sets none. -/
  max : Int
  /-- The overriding options as written in the plan. -/
  options : Option String
  /-- The node that runs the fragment. -/
  assignment : Endpoint
  /-- The node that accepted the query. -/
  foreman : Endpoint
  /-- The start of the query in milliseconds. -/
  start : Int
  /-- The name of the time zone of the session. -/
  zone : String
  deriving DecidableEq, Repr, Inhabited

/-- A fragment as requested, where some parts may be missing. -/
structure PlanRequest where
  handle : FragmentHandle
  assignment : Endpoint
  foreman : Endpoint
  initial : Option Int := none
  max : Option Int := none
  options : Option String := none
  start : Int := 0
  zone : Option String := none
  deriving DecidableEq, Repr, Inhabited

namespace PlanRequest

/-- The definition with the missing parts filled in. -/
def complete (r : PlanRequest) (c : Config) : PlanFragment where
  handle := r.handle
  initial := r.initial.getD c.initialReservation
  max := r.max.getD c.maxReservation
  options := r.options
  assignment := r.assignment
  foreman := r.foreman
  start := r.start
  zone := r.zone.getD "UTC"

end PlanRequest

end FragmentHost

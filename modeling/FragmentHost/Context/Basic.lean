import FragmentHost.Context.Plan
import FragmentHost.Context.Statistics
import FragmentHost.Environment
import FragmentHost.Failure.Deferred
import FragmentHost.Lifecycle
import FragmentHost.Memory.Forest
import FragmentHost.Options.Manager
import FragmentHost.Time.QueryTime

/-!
# Contexts

The context of a fragment holds what the fragment has and how it fares: its allocator and buffer pool,
its tunnels, the signal that it failed or was canceled, and the failures for its final report.
-/

namespace FragmentHost

/-- Buffers that feed the receivers of a fragment, built elsewhere and closed with the fragment. -/
structure IncomingBuffers where
  name : String
  /-- Every sender has finished. -/
  done : Bool
  /-- The failure with which each release ends. -/
  failure : Option Failure
  /-- The number of releases. -/
  closes : Nat := 0
  /-- What the fragment's allocator had in use at the last release, if there was one. -/
  held : Option Int := none
  deriving DecidableEq, Repr, Inhabited

namespace IncomingBuffers

/-- The buffers after one more release, while `inUse` bytes are in use. -/
def released (b : IncomingBuffers) (inUse : Int) : IncomingBuffers :=
  { b with closes := b.closes + 1, held := some inUse }

end IncomingBuffers

/-- The context of a fragment; what it shares is kept by number. -/
structure Context where
  fragment : PlanFragment
  environment : Nat
  /-- The session of the connection that a root fragment serves. -/
  session : Option UserSession
  registry : Nat
  options : OptionStack
  time : QueryTime
  allocator : Nat
  profile : Nat
  /-- The operators in order of creation. -/
  operators : List Operator := []
  pool : Nat
  tunnels : TunnelCache := []
  incoming : Option Nat := none
  state : Lifecycle := .ok
  deferred : Deferred := {}
  isClosed : Bool := false
  deriving DecidableEq, Repr, Inhabited

namespace Context

/-- The fragment serves a connection of a user. -/
def isRoot (c : Context) : Bool := c.session.isSome

/-- The one-line description. -/
def describe (c : Context) (f : Forest) : String :=
  Record.describe "FragmentContext"
    [("handle", c.fragment.handle.describe), ("state", c.state.describe),
     ("allocator", (f.get? c.allocator).elim "" (·.describe))]

end Context

end FragmentHost

import FragmentHost.Identity
import FragmentHost.Service

/-!
# Tunnels

A node talks to other nodes through tunnels, which it gets from services made elsewhere: data tunnels from
a pool of connections, control tunnels from a controller. Data tunnels are kept in caches. What a service
hands out is its own affair; `Tunnel.numbered` are the answers of one that opens a new tunnel at each
request.
-/

namespace FragmentHost

/-- A tunnel: the number by which it is told from others, and the node at its end. -/
structure Tunnel where
  number : Nat
  endpoint : Endpoint
  deriving DecidableEq, Repr, Inhabited

/-- A service that hands out tunnels. -/
abbrev TunnelSource := Service Endpoint Tunnel

/-- A new tunnel at each request, numbered from one on. -/
def Tunnel.numbered : Answers Endpoint Tunnel := fun earlier e => ⟨earlier.length + 1, e⟩

/-- The tunnels asked for so far, by endpoint. -/
abbrev TunnelCache := List (Endpoint × Tunnel)

/-- A cache that does not belong to a context, with the number of its pool. -/
structure BareCache where
  pool : Nat
  tunnels : TunnelCache := []
  deriving DecidableEq, Repr, Inhabited

end FragmentHost

import FragmentHost.Host.Basic

/-!
# The services of a host

Services are made elsewhere and taken in one by one. Whoever uses them knows them by their numbers, so that
several may use the same.
-/

namespace FragmentHost

/-- What a service answers that is taken in. -/
inductive ServiceOffer where
  | pool (answers : Answers Endpoint Tunnel)
  | controller (answers : Answers Endpoint Tunnel)
  | factory (answers : Answers UserSession (Except Failure SchemaTree))

namespace Host

/-- Takes in a service that nobody has asked anything yet. -/
def takeIn (h : Host) : ServiceOffer → Host
  | .pool answers => { h with pools := h.pools ++ [{ answers }] }
  | .controller answers => { h with controllers := h.controllers ++ [{ answers }] }
  | .factory answers => { h with factories := h.factories ++ [{ answers }] }

/-- Services of its own for one environment. -/
def ownServices (h : Host) (pool controller : Answers Endpoint Tunnel)
    (factory : Answers UserSession (Except Failure SchemaTree)) : Host × Services :=
  (((h.takeIn (.pool pool)).takeIn (.controller controller)).takeIn (.factory factory),
    ⟨h.pools.length, h.controllers.length, h.factories.length⟩)

end Host

end FragmentHost

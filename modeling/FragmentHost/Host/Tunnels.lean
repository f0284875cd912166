import FragmentHost.Host.Services

/-!
# The tunnels of a host

A context asks for a data tunnel to an endpoint once and keeps it, and so does a cache by itself; control
tunnels are not kept.
-/

namespace FragmentHost

/-- The note that a tunnel was opened and kept. -/
def TunnelCache.cachedEvent (e : Endpoint) : LogEvent :=
  ⟨.debug, .tunnels, "data tunnel to " ++ e.text ++ " cached"⟩

namespace Host

/-- A new cache above a pool. -/
def openCache (h : Host) (pool : Nat) : Host × Nat :=
  ({ h with caches := h.caches ++ [{ pool }] }, h.caches.length)

/-- The data tunnel to an endpoint by way of a cache, and the cache afterwards. The pool is asked if the
cache has none, and what it hands out is kept. -/
def tunnelThrough (h : Host) (cache : TunnelCache) (pool : Nat) (target : Endpoint) :
    Host × TunnelCache × Option Tunnel :=
  match cache.lookup target with
  | some t => (h, cache, some t)
  | none =>
    match Service.askAt h.pools pool target with
    | none => (h, cache, none)
    | some (t, pools) =>
      ({ h with pools := pools }.log (TunnelCache.cachedEvent target), cache ++ [(target, t)], some t)

/-- The data tunnel of a cache by itself to an endpoint. -/
def cachedTunnel (h : Host) (number : Nat) (target : Endpoint) : Host × Option Tunnel :=
  match h.caches[number]? with
  | none => (h, none)
  | some c =>
    let (h, tunnels, tunnel) := h.tunnelThrough c.tunnels c.pool target
    ({ h with caches := h.caches.modify number fun x => { x with tunnels } }, tunnel)

/-- The data tunnel of a context to an endpoint. -/
def dataTunnel (h : Host) (number : Nat) (target : Endpoint) : Host × Option Tunnel :=
  match h.context? number with
  | none => (h, none)
  | some c =>
    match h.environment? c.environment with
    | none => (h, none)
    | some e =>
      let (h, tunnels, tunnel) := h.tunnelThrough c.tunnels e.services.pool target
      (h.modifyContext number fun x => { x with tunnels }, tunnel)

/-- A control tunnel to an endpoint, for which the controller is asked each time. -/
def controlTunnel (h : Host) (number : Nat) (target : Endpoint) : Host × Option Tunnel :=
  match h.context? number with
  | none => (h, none)
  | some c =>
    match h.environment? c.environment with
    | none => (h, none)
    | some e =>
      match Service.askAt h.controllers e.services.controller target with
      | none => (h, none)
      | some (t, controllers) => ({ h with controllers := controllers }, some t)

end Host

end FragmentHost

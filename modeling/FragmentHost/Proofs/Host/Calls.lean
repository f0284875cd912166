import FragmentHost.Host.Collection
import FragmentHost.Host.Contexts
import FragmentHost.Host.Tunnels
import FragmentHost.Proofs.Buffers.Pools

/-!
# Calls of a host

What can be asked of a host is a `HostCall`. Handles are part of the calls: they are copied and dropped
by `HostCall.keep`, which names the handles that are left, and what nobody holds then is given up; a
request for a buffer in place of another one gives a handle away and names the others. Services may be
taken in at any time, and any number of environments and caches may use the same. Options, profiles,
registries, the configuration and the log may change in any way between two calls (`HostCall.elsewhere`).
Nothing keeps a call from naming an object that nobody holds any more or that was never made, so that what
holds of these runs holds whatever the callers do.

What a call asks of the allocators is listed by `Host.postings`.
-/

namespace FragmentHost

/-- What a host keeps besides memory, services, environments and contexts. -/
structure Surroundings where
  options : List NodeOptions := []
  profiles : List Profile := []
  registries : List FunctionRegistry := []
  journal : Journal := {}
  config : ConfigSource := {}

/-- What can be asked of a host. -/
inductive HostCall where
  | root (label : String) (max : Int)
  | child (parent : Nat) (label : String) (initial max : Int) (obeysLimits : Bool)
  | consume (allocator : Nat) (bytes : Int)
  | release (allocator : Nat) (bytes : Int)
  | limit (allocator : Nat) (limit : Int)
  | closeAllocator (allocator : Nat)
  | openPool (owner : String) (allocator defaultSize : Nat)
  | getDefault (pool : Nat)
  | getBuffer (pool size : Nat)
  /-- A handle of the old buffer is given away with the request; `left` are the others. -/
  | replaceBuffer (pool old size : Nat) (left : Holders)
  | releaseBuffer (buffer : Nat)
  | write (buffer start : Nat) (bytes : List UInt8)
  | closePool (pool : Nat)
  | takeIn (offer : ServiceOffer)
  /-- A new environment, above an allocator or above a root of its own. -/
  | openEnvironment (root : Option Nat) (endpoint : Endpoint) (options : Option OptionStack)
    (services : Services)
  | openContext (environment : Nat) (plan : PlanFragment) (session : Option UserSession)
    (registry : Nat)
  | fail (context : Nat) (cause : Failure)
  | cancel (context : Nat)
  | rootSchema (context : Nat)
  | attach (context : Nat) (incoming : IncomingBuffers)
  | deferFailure (context : Nat) (f : Failure)
  | takeDeferred (context : Nat)
  | closeDeferred (context : Nat)
  | openCache (pool : Nat)
  | cachedTunnel (cache : Nat) (target : Endpoint)
  | dataTunnel (context : Nat) (target : Endpoint)
  | controlTunnel (context : Nat) (target : Endpoint)
  | addOperator (context : Nat) (operator : Operator)
  | closeContext (context : Nat)
  /-- From now on these are the handles that are left. -/
  | keep (names : Holders)
  | elsewhere (s : Surroundings)

/-- Calls that take in a service of each kind: tunnels are numbered, and the catalog is empty. -/
def HostCall.plainServices : List HostCall :=
  [.takeIn (.pool Tunnel.numbered), .takeIn (.controller Tunnel.numbered),
    .takeIn (.factory ({} : Catalog).schemas)]

namespace Host

/-- The host after an attempt; a failed one leaves it as it was. -/
def orSame (h : Host) (outcome : Except Failure (Host × Nat)) : Host :=
  match outcome with
  | .ok (g, _) => g
  | .error _ => h

/-- The host with other surroundings. -/
def within (h : Host) (s : Surroundings) : Host :=
  { h with
    options := s.options
    profiles := s.profiles
    registries := s.registries
    journal := s.journal
    config := s.config }

/-- The host after bytes were written into a buffer. -/
def writeBuffer (h : Host) (b start : Nat) (bytes : List UInt8) : Host :=
  match h.arena.buffer? b with
  | none => h
  | some x =>
    match x.write start bytes with
    | .ok (written, _) => { h with arena := h.arena.modifyBuffer b fun _ => written }
    | .error _ => h

/-- The host after the failures of a context were changed. -/
def modifyDeferred (h : Host) (number : Nat) (change : Deferred → Deferred) : Host :=
  h.modifyContext number fun c => { c with deferred := change c.deferred }

/-- The services are there. -/
def hasServices (h : Host) (s : Services) : Bool :=
  s.pool < h.pools.length && s.controller < h.controllers.length && s.factory < h.factories.length

/-- The host after a call. Environments and caches are made above services that are there. -/
def act (h : Host) : HostCall → Host
  | .root label max => (h.newRoot label max).1
  | .child parent label initial max obeysLimits =>
    h.orSame (h.newChild parent label initial max obeysLimits)
  | .consume allocator bytes => h.orSame ((h.consume allocator bytes).map (·, 0))
  | .release allocator bytes => h.release allocator bytes
  | .limit allocator limit => h.setLimit allocator limit
  | .closeAllocator allocator => (h.closeAllocator allocator).1
  | .openPool owner allocator defaultSize => (h.openPool owner allocator defaultSize).1
  | .getDefault pool => h.orSame (h.getDefault pool)
  | .getBuffer pool size => h.orSame (h.getBuffer pool size)
  | .replaceBuffer pool old size left => (h.replaceBuffer left pool old size).1
  | .releaseBuffer b => (h.releaseBuffer b).1
  | .write b start bytes => h.writeBuffer b start bytes
  | .closePool pool => h.closePool pool
  | .takeIn offer => h.takeIn offer
  | .openEnvironment root endpoint options services =>
    if h.hasServices services then
      ((h.rootFor root).1.openEnvironment (h.rootFor root).2 endpoint options services).1
    else h
  | .openContext environment plan session registry =>
    match h.environment? environment with
    | some e => (h.openContext environment e plan session registry).1
    | none => h
  | .fail context cause => h.failContext context cause
  | .cancel context => h.cancelContext context
  | .rootSchema context => (h.rootSchema context).1
  | .attach context incoming => (h.attachIncoming context incoming).1
  | .deferFailure context f => h.modifyDeferred context fun d => (d.absorb (some f)).1
  | .takeDeferred context => h.modifyDeferred context fun d => d.take.2
  | .closeDeferred context => h.modifyDeferred context fun d => d.close.2
  | .openCache pool => if pool < h.pools.length then (h.openCache pool).1 else h
  | .cachedTunnel cache target => (h.cachedTunnel cache target).1
  | .dataTunnel context target => (h.dataTunnel context target).1
  | .controlTunnel context target => (h.controlTunnel context target).1
  | .addOperator context operator =>
    match h.context? context with
    | some c => h.addOperator context c operator
    | none => h
  | .closeContext context => (h.closeContext context).1
  | .keep names => h.collect names
  | .elsewhere s => h.within s

/-- The host after calls, one after the other. -/
def actAll (h : Host) (calls : List HostCall) : Host := calls.foldl act h

-- ---------------------------------------------------------------------------
-- Accounts
-- ---------------------------------------------------------------------------

/-- Those of some buffers that nobody holds. -/
def unheldBuffers (h : Host) (names : Holders) (buffers : List Nat) : List Nat :=
  buffers.filter fun b => !(h.heldBuffers names).contains b

/-- Those of some allocators that nobody holds and that were not dropped. -/
def unheldAllocators (h : Host) (names : Holders) (allocators : List Nat) : List Nat :=
  allocators.filter fun i => !((h.heldAllocators names).contains i || h.forest.isDropped i)

/-- The buffers that are given up when `names` are the handles that are left. -/
def lostBuffers (h : Host) (names : Holders) : List Nat :=
  h.unheldBuffers names (List.range h.arena.buffers.length)

/-- The allocators that are given up when `names` are the handles that are left, the latest first. -/
def lostAllocators (h : Host) (names : Holders) : List Nat :=
  h.unheldAllocators names (List.range h.forest.nodes.length).reverse

/-- The allocators that a buffer draws from, its own one first. -/
def drawnFrom (h : Host) (b : Nat) : List Nat :=
  (h.arena.buffer? b).elim [] fun x => h.forest.path x.allocator

/-- What giving up is for the allocators: unheld buffers are released, then unheld allocators dropped. -/
def surrender (h : Host) (names : Holders) (buffers allocators : List Nat) : Account :=
  h.arena.repayments (h.unheldBuffers names buffers) ++
    ((h.giveUpBuffers names buffers).unheldAllocators names allocators).map fun i => .asked (.drop i)

/-- What a call asks of the allocators. -/
def postings (h : Host) : HostCall → Account
  | .root label max => [.asked (.root label max)]
  | .child parent label initial max obeysLimits =>
    [.asked (.child parent label initial max obeysLimits)]
  | .consume allocator bytes => [.asked (.consume allocator bytes)]
  | .release allocator bytes => [.asked (.release allocator bytes)]
  | .limit allocator limit => [.asked (.limit allocator limit)]
  | .closeAllocator allocator => [.asked (.close allocator)]
  | .getDefault pool => h.arena.drawing pool ((h.arena.pool? pool).elim 0 (·.defaultSize))
  | .getBuffer pool size => h.arena.drawing pool size
  | .replaceBuffer pool old size left =>
    match h.arena.replaceBuffer pool old size with
    | .ok _ => h.arena.exchange pool old size
    | .error _ => h.surrender left [old] (h.drawnFrom old)
  | .releaseBuffer b => h.arena.repayment b
  | .closePool pool => h.arena.closure pool
  | .openEnvironment none _ _ services =>
    if h.hasServices services then
      [.asked (.root Environment.rootLabel h.settings.1.rootLimit)]
    else []
  | .openContext environment plan _ _ =>
    match h.environment? environment with
    | some e =>
      match prepare h.zones e plan with
      | .ok _ =>
        [.asked (.child e.root plan.handle.ownerText plan.initial plan.max
          h.settings.1.applyFragmentLimit)]
      | .error _ => []
    | none => []
  | .closeContext context =>
    match h.context? context with
    | some c => if c.isClosed then [] else h.arena.closure c.pool ++ [.asked (.close c.allocator)]
    | none => []
  | .keep names =>
    h.surrender names (List.range h.arena.buffers.length) (List.range h.forest.nodes.length).reverse
  | .openPool _ _ _ | .write _ _ _ | .takeIn _ | .openEnvironment (some _) _ _ _ | .fail _ _ | .cancel _
  | .rootSchema _ | .attach _ _ | .deferFailure _ _ | .takeDeferred _ | .closeDeferred _ | .openCache _
  | .cachedTunnel _ _ | .dataTunnel _ _ | .controlTunnel _ _ | .addOperator _ _ | .elsewhere _ => []

/-- What calls ask of the allocators, one after the other. -/
def account (h : Host) : List HostCall → Account
  | [] => []
  | c :: calls => h.postings c ++ (h.act c).account calls

@[simp] theorem actAll_nil (h : Host) : h.actAll [] = h := rfl

@[simp] theorem actAll_cons (h : Host) (c : HostCall) (calls : List HostCall) :
    h.actAll (c :: calls) = (h.act c).actAll calls := rfl

theorem actAll_append (h : Host) (calls later : List HostCall) :
    h.actAll (calls ++ later) = (h.actAll calls).actAll later := by
  simp [actAll]

theorem account_append (h : Host) (calls later : List HostCall) :
    h.account (calls ++ later) = h.account calls ++ (h.actAll calls).account later := by
  induction calls generalizing h with
  | nil => rfl
  | cons c calls ih => rw [List.cons_append, account, account, ih, List.append_assoc, actAll_cons]

end Host

end FragmentHost

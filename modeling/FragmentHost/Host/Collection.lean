import FragmentHost.Host.Allocators
import FragmentHost.Host.Buffers

/-!
# Holders

Objects live as long as somebody holds them. Names hold objects directly; pools hold the buffers they
track, contexts their pool and their allocators, environments their root, and whatever draws from an
allocator holds it together with the allocators above. What nobody holds is given up: buffers are
released first, then allocators go, those further down before the ones above them.

Handles go when they are dropped (`collect`), and one goes with each request for a buffer in place of
another: the handle of the old buffer is given away with the request (`replaceBuffer`).
-/

namespace FragmentHost

/-- The numbers of the objects that are held by name. -/
structure Holders where
  allocators : List Nat := []
  pools : List Nat := []
  buffers : List Nat := []
  environments : List Nat := []
  contexts : List Nat := []
  deriving DecidableEq, Repr, Inhabited

namespace Host

variable (h : Host) (names : Holders)

/-- The contexts that are held. -/
def heldContexts : List Context := names.contexts.filterMap h.context?

/-- The pools that are held: by name or by a context. -/
def heldPools : List Nat := names.pools ++ (h.heldContexts names).map (·.pool)

/-- The buffers that are held: by name or by a pool that tracks them. -/
def heldBuffers : List Nat :=
  names.buffers ++ (h.heldPools names).flatMap fun p =>
    ((h.arena.pool? p).bind (·.tracked)).getD []

/-- The root allocator of an environment. -/
def rootOf (e : Nat) : Option Nat := (h.environment? e).map (·.root)

/-- The allocators that are held directly. -/
def heldDirectly : List Nat :=
  names.allocators ++
    (h.heldPools names).filterMap (fun p => (h.arena.pool? p).map (·.allocator)) ++
    (h.heldBuffers names).filterMap (fun b => (h.arena.buffer? b).map (·.allocator)) ++
    names.environments.filterMap h.rootOf ++
    (h.heldContexts names).flatMap fun c => c.allocator :: (h.rootOf c.environment).toList

/-- The allocators that are held: directly, or as one above such an allocator. -/
def heldAllocators : List Nat := (h.heldDirectly names).flatMap h.forest.path

/-- Releases those of some buffers that nobody holds. -/
def giveUpBuffers (buffers : List Nat) : Host :=
  let held := h.heldBuffers names
  let lost := buffers.filter fun b => !held.contains b
  { h with arena := (h.arena.releaseAll lost).1 }

/-- Drops those of some allocators that nobody holds, in their order. -/
def giveUpAllocators (allocators : List Nat) : Host :=
  let held := h.heldAllocators names
  allocators.foldl
    (fun h i => if held.contains i || h.forest.isDropped i then h else h.dropAllocator i) h

/-- Gives up everything that nobody holds. -/
def collect : Host :=
  -- a child was made after its parent and has the larger number
  (h.giveUpBuffers names (List.range h.arena.buffers.length)).giveUpAllocators names
    (List.range h.forest.nodes.length).reverse

/-- Drops a handle of buffer `b`, where `names` are the others: if nobody holds the buffer any more it is
released, and then the allocators go that nobody but the buffer held. -/
def dropBuffer (b : Nat) : Host :=
  (h.giveUpBuffers names [b]).giveUpAllocators names
    ((h.arena.buffer? b).elim [] fun x => h.forest.path x.allocator)

/-- A new buffer of a size in place of another one, whose handle is given away; `names` are the handles
that are left. A refusal drops the handle. -/
def replaceBuffer (pool old size : Nat) : Host × Except Failure Nat :=
  match h.arena.replaceBuffer pool old size with
  -- the old buffer is released by now, and the pool holds its allocator
  | .ok (a, b) => ({ h with arena := a }, .ok b)
  | .error refusal => (h.dropBuffer names old, .error refusal)

end Host

end FragmentHost

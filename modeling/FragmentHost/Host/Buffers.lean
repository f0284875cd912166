import FragmentHost.Host.Basic

/-!
# The buffers of a host

Pools and buffers as the arena keeps them; closing a pool is noted in the log.
-/

namespace FragmentHost

/-- The note that a pool was closed and buffers were released with it. -/
def BufferPool.closingEvent (p : BufferPool) (released : Nat) : LogEvent :=
  ⟨.debug, .buffers, "buffer manager of " ++ p.owner ++ " closed, force-released " ++
    toString released ++ " buffers"⟩

namespace Host

/-- A new pool on an allocator. -/
def openPool (h : Host) (owner : String) (allocator defaultSize : Nat) : Host × Nat :=
  let (a, pool) := h.arena.openPool owner allocator defaultSize
  ({ h with arena := a }, pool)

/-- The outcome of an operation on the arena as one on the host. -/
def ofArena (h : Host) (outcome : Except Failure (Arena × Nat)) : Except Failure (Host × Nat) :=
  outcome.map fun (a, b) => ({ h with arena := a }, b)

/-- A new buffer of a pool's usual size. -/
def getDefault (h : Host) (pool : Nat) : Except Failure (Host × Nat) :=
  h.ofArena (h.arena.getDefault pool)

/-- A new buffer of a size. -/
def getBuffer (h : Host) (pool size : Nat) : Except Failure (Host × Nat) :=
  h.ofArena (h.arena.getBuffer pool size)

/-- Releases a buffer; the flag says whether it was the first time. -/
def releaseBuffer (h : Host) (b : Nat) : Host × Bool :=
  let (a, first) := h.arena.releaseBuffer b
  ({ h with arena := a }, first)

/-- The arena with a pool closed, and the note about it. -/
def closingOf (a : Arena) (pool : Nat) : Arena × List LogEvent :=
  match a.pool? pool, a.closePool pool with
  | some p, (a, some released) => (a, [p.closingEvent released])
  | _, (a, _) => (a, [])

/-- Closes a pool. -/
def closePool (h : Host) (pool : Nat) : Host :=
  let (a, events) := closingOf h.arena pool
  { h with arena := a, journal := h.journal.recordAll [] events }

end Host

end FragmentHost

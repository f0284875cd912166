import FragmentHost.Buffers.Buffer
import FragmentHost.Memory.Forest

/-!
# Buffer pools

A pool hands out buffers, draws their bytes from an allocator and keeps track of them until they are
released. An arena is the allocators of a node together with its pools and buffers. Each buffer's bytes
are drawn once, when it is made, and returned once: by `Arena.releaseBuffer`, which every other way of
giving a buffer up goes through.
-/

namespace FragmentHost

/-- A pool of buffers. -/
structure BufferPool where
  owner : String
  allocator : Nat
  /-- The size of buffers asked for without one. -/
  defaultSize : Nat
  /-- The number of the next buffer. -/
  nextId : Nat := 0
  /-- The buffers handed out, or nothing once the pool was closed. -/
  tracked : Option (List Nat) := some []
  deriving DecidableEq, Repr, Inhabited

namespace BufferPool

/-- The name under which every pool reports a failed release. -/
def resource : String := "buffer manager"

/-- The refusal of a closed pool. -/
def refusal (p : BufferPool) : Failure := .closed ("buffer manager of " ++ p.owner)

/-- The refusal of a buffer that the pool does not track. -/
def foreign (p : BufferPool) (b : Buffer) : Failure :=
  .invalidArgument ("buffer " ++ toString b.id ++ " is not managed by " ++ p.owner)

end BufferPool

/-- Allocators, pools and buffers, each at its number. -/
structure Arena where
  forest : Forest := {}
  pools : List BufferPool := []
  buffers : List Buffer := []
  deriving DecidableEq, Repr, Inhabited

namespace Arena

/-- The pool with number `p`. -/
def pool? (a : Arena) (p : Nat) : Option BufferPool := a.pools[p]?

/-- The buffer with number `b`. -/
def buffer? (a : Arena) (b : Nat) : Option Buffer := a.buffers[b]?

/-- The arena with pool `p` changed. -/
def modifyPool (a : Arena) (p : Nat) (change : BufferPool → BufferPool) : Arena :=
  { a with pools := a.pools.modify p change }

/-- The arena with buffer `b` changed. -/
def modifyBuffer (a : Arena) (b : Nat) (change : Buffer → Buffer) : Arena :=
  { a with buffers := a.buffers.modify b change }

/-- Buffer `b` was released. -/
def isReleased (a : Arena) (b : Nat) : Bool :=
  match a.buffer? b with
  | some buffer => buffer.isReleased
  | none => true

/-- A new pool on an allocator. -/
def openPool (a : Arena) (owner : String) (allocator defaultSize : Nat) : Arena × Nat :=
  ({ a with pools := a.pools ++ [{ owner, allocator, defaultSize }] }, a.pools.length)

/-- Returns the bytes of buffer `b`, the first time. The flag says whether it was the first time. -/
def releaseBuffer (a : Arena) (b : Nat) : Arena × Bool :=
  match a.buffer? b with
  | none => (a, false)
  | some buffer =>
    if buffer.isReleased then (a, false)
    else
      ({ a.modifyBuffer b (fun x => { x with contents := none }) with
          forest := a.forest.release buffer.allocator buffer.capacity }, true)

/-- Releases several buffers; the number is that of the buffers that were not released before. -/
def releaseAll (a : Arena) : List Nat → Arena × Nat
  | [] => (a, 0)
  | b :: rest =>
    let (a, first) := a.releaseBuffer b
    let (a, count) := releaseAll a rest
    (a, if first then count + 1 else count)

/-- Draws the bytes of a new buffer for pool `p`. The pool does not track it yet. -/
def makeBuffer (a : Arena) (p : Nat) (pool : BufferPool) (size : Nat) :
    Except Failure (Arena × Nat) :=
  if Word.largest < size then
    .error (.invalidArgument ("buffer size " ++ toString size ++ " is too large"))
  else
    match a.forest.consume pool.allocator size with
    | .error refusal => .error refusal
    | .ok forest =>
      let buffer : Buffer := { id := pool.nextId, capacity := size, allocator := pool.allocator }
      let a := { a with forest := forest, buffers := a.buffers ++ [buffer] }
      .ok (a.modifyPool p (fun x => { x with nextId := x.nextId + 1 }), a.buffers.length - 1)

/-- Pool `p` tracks buffer `b` and, of those it tracked, the ones not released. -/
def track (a : Arena) (p b : Nat) : Arena :=
  a.modifyPool p fun pool =>
    { pool with tracked := pool.tracked.map fun bs =>
        bs.filter (fun x => !a.isReleased x) ++ [b] }

/-- A new buffer of `size` bytes from pool `p`. -/
def getBuffer (a : Arena) (p size : Nat) : Except Failure (Arena × Nat) :=
  match a.pool? p with
  | none => .error (.closed "buffer manager")
  | some pool =>
    match pool.tracked with
    | none => .error pool.refusal
    | some _ =>
      match a.makeBuffer p pool size with
      | .error refusal => .error refusal
      | .ok (a, b) => .ok (a.track p b, b)

/-- A new buffer of the pool's usual size. -/
def getDefault (a : Arena) (p : Nat) : Except Failure (Arena × Nat) :=
  a.getBuffer p ((a.pool? p).elim 0 (·.defaultSize))

/-- A new buffer of `size` bytes in place of buffer `old`, which is released. Bytes are not copied. What
becomes of the handle of `old` is not told here: it is given away, and dropped if the request is refused. -/
def replaceBuffer (a : Arena) (p old size : Nat) : Except Failure (Arena × Nat) :=
  match a.pool? p, a.buffer? old with
  | some pool, some buffer =>
    match pool.tracked with
    | none => .error pool.refusal
    | some bs =>
      if bs.contains old then
        -- both buffers exist for a moment, so that a refusal leaves the old one as it is
        match a.makeBuffer p pool size with
        | .error refusal => .error refusal
        | .ok (a, b) =>
          let a := a.modifyPool p fun x =>
            { x with tracked := x.tracked.map (·.filter (· ≠ old)) }
          .ok ((a.releaseBuffer old).1.track p b, b)
      else .error (pool.foreign buffer)
  | _, _ => .error (.closed "buffer manager")

/-- Closes pool `p` and releases what it still tracks. The number is that of the buffers released now;
there is none if the pool was closed before. -/
def closePool (a : Arena) (p : Nat) : Arena × Option Nat :=
  match (a.pool? p).bind (·.tracked) with
  | none => (a, none)
  | some bs =>
    -- the pool refuses further requests before the first buffer goes
    let (a, count) := (a.modifyPool p fun x => { x with tracked := none }).releaseAll bs
    (a, some count)

/-- The number of buffers of pool `p` that are tracked and not released. -/
def poolSize (a : Arena) (p : Nat) : Nat :=
  match (a.pool? p).bind (·.tracked) with
  | none => 0
  | some bs => (bs.filter fun b => !a.isReleased b).length

end Arena

end FragmentHost

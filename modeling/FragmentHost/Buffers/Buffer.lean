import FragmentHost.Failure
import FragmentHost.Text.Record

/-!
# Scratch buffers

A buffer holds a fixed number of bytes, all zero at first, until it is released. Contents are kept as
the list of what was written, so that a large buffer that is hardly used costs little.
-/

namespace FragmentHost

/-- What was written into a buffer, the latest first: a place and the bytes from there on. -/
abbrev Contents := List (Nat × List UInt8)

namespace Contents

/-- The byte at place `i`: of the latest write that covers the place, else zero. -/
def byteAt : Contents → Nat → UInt8
  | [], _ => 0
  | (start, bytes) :: older, i =>
    if start ≤ i ∧ i < start + bytes.length then bytes.getD (i - start) 0
    else byteAt older i

/-- The bytes of `count` places from `start` on. -/
def read (c : Contents) (start count : Nat) : List UInt8 :=
  (List.range count).map fun k => c.byteAt (start + k)

/-- The contents after one more write. -/
def write (c : Contents) (start : Nat) (bytes : List UInt8) : Contents := (start, bytes) :: c

@[simp] theorem byteAt_nil (i : Nat) : byteAt [] i = 0 := rfl

end Contents

/-- A buffer of a pool. -/
structure Buffer where
  /-- The number inside its pool. -/
  id : Nat
  capacity : Nat
  /-- The allocator from which the bytes were drawn. -/
  allocator : Nat
  /-- The bytes, or nothing once the buffer was released. -/
  contents : Option Contents := some []
  deriving DecidableEq, Repr, Inhabited

namespace Buffer

/-- The bytes went back to the allocator. -/
def isReleased (b : Buffer) : Bool := b.contents.isNone

/-- The refusal of access after release. -/
def refusal (b : Buffer) : Failure := .closed ("managed buffer " ++ toString b.id)

/-- Writes `bytes` from place `start` on. Bytes that would not fit are not written at all; the flag
says whether they were. -/
def write (b : Buffer) (start : Nat) (bytes : List UInt8) : Except Failure (Buffer × Bool) :=
  match b.contents with
  | none => .error b.refusal
  | some c =>
    if start + bytes.length ≤ b.capacity then
      .ok ({ b with contents := some (c.write start bytes) }, true)
    else .ok (b, false)

/-- At most `count` bytes from place `start` on, as far as the buffer goes. -/
def read (b : Buffer) (start count : Nat) : Except Failure (List UInt8) :=
  match b.contents with
  | none => .error b.refusal
  | some c =>
    let first := min start b.capacity
    .ok (c.read first (min count (b.capacity - first)))

/-- The one-line description. -/
def describe (b : Buffer) : String :=
  Record.describe "ManagedBuffer"
    [("id", toString b.id), ("capacity", toString b.capacity),
     ("released", toString b.isReleased)]

end Buffer

end FragmentHost

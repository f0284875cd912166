import FragmentHost.Host.Basic

/-!
# The allocators of a host

Allocators are made and bounded with a note in the log.
-/

namespace FragmentHost

namespace Allocator

/-- The note that an allocator was made under another. -/
def creationEvent (parent child : String) (initial max : Int) (obeysLimits : Bool) : LogEvent :=
  ⟨.debug, .allocators, "allocator " ++ child ++ " created under " ++ parent ++ ": initial=" ++
    toString initial ++ " max=" ++ toString max ++ " apply_fragment_limit=" ++
    toString obeysLimits⟩

/-- The note that a limit was set. -/
def limitEvent (label : String) (limit : Int) : LogEvent :=
  ⟨.debug, .allocators, "allocator " ++ label ++ " fragment limit set to " ++ toString limit⟩

/-- The note that an allocator went while bytes were in use. -/
def leakEvent (label : String) (bytes : Int) : LogEvent :=
  ⟨.debug, .allocators, "allocator " ++ label ++ " dropped with " ++ toString bytes ++
    " bytes outstanding"⟩

end Allocator

namespace Host

/-- A new root allocator. -/
def newRoot (h : Host) (label : String) (max : Int) : Host × Nat :=
  let (f, root) := h.forest.newRoot label max
  (h.withForest f, root)

/-- A new allocator under another. -/
def newChild (h : Host) (parent : Nat) (label : String) (initial max : Int)
    (obeysLimits : Bool) : Except Failure (Host × Nat) :=
  match h.forest.newChild parent label initial max obeysLimits with
  | .error f => .error f
  | .ok (f, child) =>
    .ok ((h.withForest f).log
      (Allocator.creationEvent (f.label parent) label initial max obeysLimits), child)

/-- Asks for bytes. -/
def consume (h : Host) (allocator : Nat) (bytes : Int) : Except Failure Host :=
  (h.forest.consume allocator bytes).map h.withForest

/-- Returns bytes. -/
def release (h : Host) (allocator : Nat) (bytes : Int) : Host :=
  h.withForest (h.forest.release allocator bytes)

/-- Sets the coordinator's limit. -/
def setLimit (h : Host) (allocator : Nat) (limit : Int) : Host :=
  (h.withForest (h.forest.setLimit allocator limit)).log
    (Allocator.limitEvent (h.forest.label allocator) limit)

/-- Closes an allocator. -/
def closeAllocator (h : Host) (allocator : Nat) : Host × Option Failure :=
  let (f, leak) := h.forest.close allocator
  (h.withForest f, leak)

/-- Drops an allocator that nobody holds any more. -/
def dropAllocator (h : Host) (allocator : Nat) : Host :=
  match h.forest.drop allocator with
  | (f, some outstanding) =>
    if 0 < outstanding then
      (h.withForest f).log (Allocator.leakEvent (f.label allocator) outstanding)
    else h.withForest f
  | (f, none) => h.withForest f

end Host

end FragmentHost

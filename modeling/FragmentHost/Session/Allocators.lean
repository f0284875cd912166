import FragmentHost.Session.Names

/-!
# Commands on allocators
-/

namespace FragmentHost

/-- A reservation asked for under an allocator. -/
structure ReservationRequest where
  owner : String
  initial : Int
  max : Int
  obeysLimits : Bool
  deriving DecidableEq, Repr, Inhabited

/-- What can be asked of allocators. -/
inductive AllocatorCommand where
  | root (new label : String) (limit : Int)
  | child (new parent : String) (request : ReservationRequest)
  /-- A child whose name shows the totals, as its parent's does. -/
  | tracker (new parent : String) (request : ReservationRequest)
  | childAt (new parent : String) (index : Nat)
  | consume (allocator : String) (bytes : Int)
  | release (allocator : String) (bytes : Int)
  | limit (allocator : String) (limit : Int)
  | close (allocator : String)
  | drop (allocator : String)
  | info (allocator : String)
  deriving DecidableEq, Repr

namespace Session

/-- Makes a child of an allocator and names it. -/
def reserve (s : Session) (new : String) (parent : Nat) (r : ReservationRequest)
    (detailed : Bool) : Outcome :=
  s.attempt (s.host.newChild parent r.owner r.initial r.max r.obeysLimits) fun (h, child) =>
    ((s.on h).nameAllocator new child detailed).done

/-- Shows an allocator. -/
def allocatorReport (h : Host) (a : AllocatorName) : AllocatorReport where
  allocator := (h.forest.get? a.number).getD default
  children := (h.forest.children a.number).map h.forest.label
  detailed := a.detailed

/-- Carries out a command on allocators. -/
def onAllocators (s : Session) : AllocatorCommand → Outcome
  | .root new label limit =>
    let (h, root) := s.host.newRoot label limit
    ((s.on h).nameAllocator new root true).done
  | .child new parent request =>
    s.find (·.allocators) parent fun a => s.reserve new a.number request false
  | .tracker new parent request =>
    s.find (·.allocators) parent fun a =>
      if a.detailed then s.reserve new a.number request true
      else s.refuse (.unknownName parent)
  | .childAt new parent index =>
    s.find (·.allocators) parent fun a =>
      match (s.host.forest.children a.number)[index]? with
      | some child => (s.nameAllocator new child false).done
      | none => s.refuse .noSuchChild
  | .consume allocator bytes =>
    s.find (·.allocators) allocator fun a =>
      s.attempt (s.host.consume a.number bytes) fun h => (s.on h).done
  | .release allocator bytes =>
    s.find (·.allocators) allocator fun a => (s.on (s.host.release a.number bytes)).done
  | .limit allocator limit =>
    s.find (·.allocators) allocator fun a => (s.on (s.host.setLimit a.number limit)).done
  | .close allocator =>
    s.find (·.allocators) allocator fun a =>
      let (h, leak) := s.host.closeAllocator a.number
      (s.on h).report leak
  | .drop allocator =>
    s.find (·.allocators) allocator fun _ =>
      (s.naming fun n => { n with allocators := n.allocators.remove allocator }).done
  | .info allocator =>
    s.find (·.allocators) allocator fun a => s.answer (.allocator (allocatorReport s.host a))

end Session

end FragmentHost

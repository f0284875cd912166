import FragmentHost.Failure.Release
import FragmentHost.Session.Names

/-!
# Commands on deferred failures and states
-/

namespace FragmentHost

/-- What a collection of deferred failures can be told to release. -/
inductive Releasable where
  | allocator (name : String)
  | pool (name : String)
  /-- Nothing at all. -/
  | absent
  /-- A resource made for the purpose and the failure with which its release ends. -/
  | resource (name : String) (failure : Option Failure)
  deriving DecidableEq, Repr

/-- What can be asked of deferred failures. -/
inductive DeferredCommand where
  | make (new : String)
  | add (deferred : String) (f : Failure)
  | peek (deferred : String)
  | take (deferred : String)
  | isClosed (deferred : String)
  | close (deferred : String)
  | release (deferred : String) (resource : Releasable)
  deriving DecidableEq, Repr

/-- What can be asked of states. -/
inductive StateCommand where
  | make (new : String)
  | request (state : String) (target : Lifecycle)
  deriving DecidableEq, Repr

namespace Session

/-- Gives new deferred failures to a name. -/
def setDeferred (s : Session) (name : String) (d : Deferred) : Session :=
  s.naming fun n => { n with deferred := n.deferred.put name d }

/-- Gives deferred failures to a name and writes what there is to tell of them. -/
def settle (s : Session) (name : String) (d : Deferred) (events : List LogEvent) : Session :=
  (s.on { s.host with journal := s.host.journal.recordAll [] events }).setDeferred name d

/-- Releases something of the session, if there is anything, and records a failure. -/
def releasing (s : Session) (name : String) (d : Deferred) (resource : Option (Closeable Session)) :
    Session :=
  let (s, d, events) := d.releasing s resource
  s.settle name d events

/-- An allocator of the session. Its release fails if bytes are in use. -/
def closeableAllocator (number : Nat) : Closeable Session where
  name s := s.host.forest.label number
  close s :=
    let (h, leak) := s.host.closeAllocator number
    (s.on h, leak)

/-- A pool of the session. -/
def closeablePool (pool : Nat) : Closeable Session where
  name _ := BufferPool.resource
  close s := (s.on (s.host.closePool pool), none)

/-- A resource made for the purpose. All there is in its store is how often it was released. -/
def counted (resource : String) (failure : Option Failure) : Closeable Nat where
  name _ := resource
  close count := (count + 1, failure)

/-- Releases a resource and records a failure. The answer is how often a resource made for the purpose
was released. -/
def releaseInto (s : Session) (name : String) (d : Deferred) : Releasable → Outcome
  | .absent => (s.releasing name d none).done
  | .allocator allocator =>
    s.find (·.allocators) allocator fun a =>
      (s.releasing name d (some (closeableAllocator a.number))).done
  | .pool pool =>
    s.find (·.pools) pool fun p => (s.releasing name d (some (closeablePool p))).done
  | .resource resource failure =>
    let (count, d, events) := d.releasing 0 (some (counted resource failure))
    (s.settle name d events).answer (.amount (some count))

/-- Carries out a command on deferred failures. -/
def onDeferred (s : Session) : DeferredCommand → Outcome
  | .make new => (s.setDeferred new {}).done
  | .add deferred f =>
    s.find (·.deferred) deferred fun d =>
      s.attempt (d.add f) fun d => (s.setDeferred deferred d).done
  | .peek deferred => s.find (·.deferred) deferred fun d => s.answer (.failure d.report?)
  | .take deferred =>
    s.find (·.deferred) deferred fun d =>
      let (report, d) := d.take
      (s.setDeferred deferred d).answer (.failure report)
  | .isClosed deferred => s.find (·.deferred) deferred fun d => s.answer (.flag d.closed)
  | .close deferred =>
    s.find (·.deferred) deferred fun d =>
      let (report, d) := d.close
      (s.setDeferred deferred d).report report
  | .release deferred resource =>
    s.find (·.deferred) deferred fun d => s.releaseInto deferred d resource

/-- Carries out a command on states. -/
def onStates (s : Session) : StateCommand → Outcome
  | .make new => (s.naming fun n => { n with states := n.states.put new .ok }).done
  | .request state target =>
    s.find (·.states) state fun old =>
      let next := old.request target
      (s.naming fun n => { n with states := n.states.put state next }).answer
        (.lifecycle next (next != old))

end Session

end FragmentHost

import FragmentHost.Profile.Listing
import FragmentHost.Profile.MemoryChart
import FragmentHost.Session.Names

/-!
# Commands on profiles and counters
-/

namespace FragmentHost

/-- What can be asked of profiles. -/
inductive ProfileCommand where
  | make (new name : String)
  | child (profile new name : String)
  /-- Names a child if there is one. -/
  | findChild (profile new name : String)
  | children (profile : String)
  | setInfo (profile key value : String)
  | info (profile key : String)
  /-- A counter; its unit is that of the first request. It may be named. -/
  | counter (profile name : String) (unit : CounterUnit) (new : Option String)
  | add (profile name : String) (unit : CounterUnit) (n : Int)
  | set (profile name : String) (unit : CounterUnit) (n : Int)
  | value (profile name : String)
  /-- Starts and stops a timer, and sets its counter back. -/
  | timing (profile name : String)
  | listing (profile : String)
  | attach (profile allocator : String)
  deriving DecidableEq, Repr

/-- What can be asked of counters. -/
inductive CounterCommand where
  | make (new name : String) (unit : CounterUnit)
  | add (counter : String) (n : Int)
  | set (counter : String) (n : Int)
  deriving DecidableEq, Repr

namespace Session

/-- The node of a profile that a name stands for. -/
def profileAt (s : Session) (place : ProfileName) : Profile :=
  ((s.host.profile place.profile).find? place.path).getD default

/-- Changes the node of a profile that a name stands for. -/
def modifyProfile (s : Session) (place : ProfileName) (change : Profile → Profile) : Session :=
  s.on (s.host.modifyProfile place.profile (·.modify place.path change))

/-- A counter of a node. -/
def counterAt (s : Session) (place : ProfileName) (name : String) : NamedCounter :=
  ⟨name, ((s.profileAt place).counter? name).getD default⟩

/-- The place of a child. -/
def childPlace (place : ProfileName) (name : String) : ProfileName :=
  { place with path := place.path ++ [name] }

/-- Names a counter. -/
def nameCounter (s : Session) (name : String) (c : CounterName) : Session :=
  s.naming fun n => { n with counters := n.counters.put name c }

/-- Carries out a command on profiles. -/
def onProfiles (s : Session) : ProfileCommand → Outcome
  | .make new name =>
    let (h, number) := s.host.addProfile (Profile.empty name)
    ((s.on h).nameProfile new ⟨number, []⟩).done
  | .child profile new name =>
    s.find (·.profiles) profile fun p =>
      ((s.modifyProfile p (·.ensureChild name)).nameProfile new (childPlace p name)).answer
        (.text (some name))
  | .findChild profile new name =>
    s.find (·.profiles) profile fun p =>
      match (s.profileAt p).child? name with
      | some _ => (s.nameProfile new (childPlace p name)).answer (.flag true)
      | none => s.answer (.flag false)
  | .children profile =>
    s.find (·.profiles) profile fun p =>
      s.answer (.texts ((s.profileAt p).children.map (·.name)))
  | .setInfo profile key value =>
    s.find (·.profiles) profile fun p => (s.modifyProfile p (·.setInfo key value)).done
  | .info profile key =>
    s.find (·.profiles) profile fun p => s.answer (.text ((s.profileAt p).info? key))
  | .counter profile name unit new =>
    s.find (·.profiles) profile fun p =>
      let s := s.modifyProfile p (·.ensureCounter name unit)
      let s := new.elim s fun n => s.nameCounter n (.inProfile p name)
      s.answer (.counter (s.counterAt p name))
  | .add profile name unit n =>
    s.find (·.profiles) profile fun p =>
      let s := s.modifyProfile p (·.addTo name unit n)
      s.answer (.amount ((s.profileAt p).value? name))
  | .set profile name unit n =>
    s.find (·.profiles) profile fun p =>
      let s := s.modifyProfile p (·.setTo name unit n)
      s.answer (.amount ((s.profileAt p).value? name))
  | .value profile name =>
    s.find (·.profiles) profile fun p => s.answer (.amount ((s.profileAt p).value? name))
  | .timing profile name =>
    s.find (·.profiles) profile fun p =>
      let s := s.modifyProfile p (·.ensureCounter name .nanoseconds)
      let c := s.counterAt p name
      -- some time always passes, so that only the largest value can wrap around
      s.answer (.timing c (c.counter.value < Word.largest))
  | .listing profile =>
    s.find (·.profiles) profile fun p => s.answer (.text (some (s.profileAt p).text))
  | .attach profile allocator =>
    s.find (·.allocators) allocator fun a =>
      s.find (·.profiles) profile fun p =>
        (s.modifyProfile p (·.attachMemory (s.host.forest.outline a.number))).done

/-- Changes the counter of a name; the answer is its value. -/
def modifyCounter (s : Session) (name : String) (change : Counter → Counter) : Outcome :=
  s.find (·.counters) name fun c =>
    match c with
    | .inProfile place counter =>
      let s := s.modifyProfile place (·.modifyCounter counter .count change)
      s.answer (.amount (some (s.counterAt place counter).counter.value))
    | .alone c =>
      let c := { c with counter := change c.counter }
      (s.nameCounter name (.alone c)).answer (.amount (some c.counter.value))

/-- Carries out a command on counters. -/
def onCounters (s : Session) : CounterCommand → Outcome
  | .make new name unit =>
    let c : NamedCounter := ⟨name, { unit := unit }⟩
    (s.nameCounter new (.alone c)).answer (.counter c)
  | .add counter n => s.modifyCounter counter (·.add n)
  | .set counter n => s.modifyCounter counter (·.set n)

end Session

end FragmentHost

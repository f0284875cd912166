import FragmentHost.Host.Collection
import FragmentHost.Session.Reply

/-!
# Sessions

A session works on a host through names. There is a table of names for each sort of object. A name may
be given to another object at any time; what then has no name and no other holder is given up.
-/

namespace FragmentHost

/-- A named allocator; names given to trackers show the totals as well. -/
structure AllocatorName where
  number : Nat
  detailed : Bool
  deriving DecidableEq, Repr, Inhabited

/-- A named option manager: that of a node, or overrides above one. -/
inductive ManagerName where
  | node (number : Nat)
  | overrides (stack : OptionStack)
  deriving DecidableEq, Repr

/-- The managers as a stack. -/
def ManagerName.stack : ManagerName → OptionStack
  | node number => { base := number }
  | overrides stack => stack

/-- A node of a profile: the profile and the names on the way. -/
structure ProfileName where
  profile : Nat
  path : List String
  deriving DecidableEq, Repr, Inhabited

/-- A named counter: one of a profile, or one by itself. -/
inductive CounterName where
  | inProfile (place : ProfileName) (name : String)
  | alone (counter : NamedCounter)
  deriving DecidableEq, Repr

/-- A named operator with the profile that counts for it. -/
structure OperatorName where
  profile : Nat
  operator : Operator
  deriving DecidableEq, Repr, Inhabited

/-- The tables of names. -/
structure Names where
  allocators : Dictionary AllocatorName := []
  pools : Dictionary Nat := []
  buffers : Dictionary Nat := []
  deferred : Dictionary Deferred := []
  states : Dictionary Lifecycle := []
  managers : Dictionary ManagerName := []
  profiles : Dictionary ProfileName := []
  counters : Dictionary CounterName := []
  registries : Dictionary Nat := []
  schemas : Dictionary SchemaTree := []
  caches : Dictionary Nat := []
  environments : Dictionary Nat := []
  contexts : Dictionary Nat := []
  incoming : Dictionary Nat := []
  operators : Dictionary OperatorName := []

/-- The objects that are held by name. -/
def Names.holders (n : Names) : Holders where
  allocators := n.allocators.values.map (·.number)
  pools := n.pools.values
  buffers := n.buffers.values
  environments := n.environments.values
  contexts := n.contexts.values

/-- A host with the names of its objects. -/
structure Session where
  host : Host := {}
  names : Names := {}

/-- What a command leads to: the session afterwards and its answer. -/
abbrev Outcome := Session × Except Refusal Reply

namespace Session

/-- The session answers. -/
def answer (s : Session) (r : Reply) : Outcome := (s, .ok r)

/-- The session has nothing to say. -/
def done (s : Session) : Outcome := s.answer .nothing

/-- The session refuses. -/
def refuse (s : Session) (r : Refusal) : Outcome := (s, .error r)

/-- The session reports how an operation ended. -/
def report (s : Session) (outcome : Option Failure) : Outcome :=
  match outcome with
  | none => s.done
  | some f => s.refuse (.failure f)

/-- Goes on with the object of a name; nothing is changed if there is none. -/
def find {α : Type} (s : Session) (table : Names → Dictionary α) (name : String)
    (next : α → Outcome) : Outcome :=
  match (table s.names).get? name with
  | some x => next x
  | none => s.refuse (.unknownName name)

/-- Goes on with the result of an operation, or refuses on account of its failure. -/
def attempt {α : Type} (s : Session) (result : Except Failure α) (next : α → Outcome) : Outcome :=
  match result with
  | .ok x => next x
  | .error f => s.refuse (.failure f)

/-- The session on another host. -/
def on (s : Session) (h : Host) : Session := { s with host := h }

/-- The session with other names. -/
def naming (s : Session) (change : Names → Names) : Session := { s with names := change s.names }

/-- Names an allocator. -/
def nameAllocator (s : Session) (name : String) (number : Nat) (detailed : Bool) : Session :=
  s.naming fun n => { n with allocators := n.allocators.put name ⟨number, detailed⟩ }

/-- Names a buffer. -/
def nameBuffer (s : Session) (name : String) (number : Nat) : Session :=
  s.naming fun n => { n with buffers := n.buffers.put name number }

/-- Names a node of a profile. -/
def nameProfile (s : Session) (name : String) (place : ProfileName) : Session :=
  s.naming fun n => { n with profiles := n.profiles.put name place }

/-- Names a buffer that was just handed out, and shows it. -/
def handOut (s : Session) (name : String) (result : Except Failure (Host × Nat)) : Outcome :=
  s.attempt result fun (h, b) =>
    ((s.on h).nameBuffer name b).answer (.buffer ((h.arena.buffer? b).getD default))

/-- Puts a new buffer in the place of another one, which keeps its names, and names it. -/
def replaceBuffer (s : Session) (name : String) (pool old size : Nat) : Outcome :=
  let (h, result) := s.host.replaceBuffer s.names.holders pool old size
  (s.on h).handOut name (result.map fun b => (h, b))

/-- Gives up what has no name and no other holder. -/
def tidy (s : Session) : Session := s.on (s.host.collect s.names.holders)

end Session

end FragmentHost

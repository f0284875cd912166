import FragmentHost.Profile.Basic

/-!
# Nodes and counters as objects

A profile as what its nodes and counters are: objects that are never removed, each known by the number that it
got when it was made. A node has its children twice, in a list in the order in which they were made and by
their names, and its counters by their names.
-/

namespace FragmentHost.Profile

/-- A node by itself. Children and counters are known by their numbers. -/
structure NodeObject where
  name : String
  infos : Dictionary String := []
  counters : Assoc Nat := []
  children : List Nat := []
  byName : Assoc Nat := []
  deriving DecidableEq, Repr

namespace NodeObject

/-- A node without content. -/
def bare (name : String) : NodeObject := { name }

/-- The node with one more child. -/
def adopt (x : NodeObject) (name : String) (c : Nat) : NodeObject :=
  { x with byName := x.byName.alter name fun _ => c, children := x.children ++ [c] }

/-- The node with one more counter. -/
def count (x : NodeObject) (name : String) (k : Nat) : NodeObject :=
  { x with counters := x.counters.alter name fun _ => k }

end NodeObject

/-- A counter with its name. -/
structure CounterObject where
  name : String
  counter : Counter
  deriving DecidableEq, Repr

/-- All nodes and counters in the order in which they were made; none is ever removed. -/
structure Objects where
  nodes : List NodeObject
  counters : List CounterObject := []
  deriving DecidableEq, Repr

namespace Objects

/-- The child of a node that has a name. -/
def child? (o : Objects) (n : Nat) (name : String) : Option Nat :=
  o.nodes[n]?.bind (·.byName.get? name)

/-- The child of a node that has a name, made if there is none. -/
def ensureChild (o : Objects) (n : Nat) (name : String) : Objects × Nat :=
  match o.child? n name with
  | some c => (o, c)
  | none =>
    let c := o.nodes.length
    ({ o with nodes := o.nodes.modify n (·.adopt name c) ++ [.bare name] }, c)

/-- Sets a short text of a node. -/
def setInfo (o : Objects) (n : Nat) (key value : String) : Objects :=
  { o with nodes := o.nodes.modify n fun x => { x with infos := x.infos.put key value } }

/-- The counter of a node that has a name. -/
def counter? (o : Objects) (n : Nat) (name : String) : Option Nat :=
  o.nodes[n]?.bind (·.counters.get? name)

/-- The counter of a node that has a name, made with this unit if there is none. -/
def ensureCounter (o : Objects) (n : Nat) (name : String) (unit : CounterUnit) : Objects × Nat :=
  match o.counter? n name with
  | some k => (o, k)
  | none =>
    let k := o.counters.length
    ({ nodes := o.nodes.modify n (·.count name k), counters := o.counters ++ [⟨name, { unit }⟩] }, k)

/-- Changes a counter. -/
def modifyCounter (o : Objects) (k : Nat) (change : Counter → Counter) : Objects :=
  { o with counters := o.counters.modify k fun c => { c with counter := change c.counter } }

/-- The value of the counter of a node that has a name. -/
def value? (o : Objects) (n : Nat) (name : String) : Option Int :=
  ((o.counter? n name).bind (o.counters[·]?)).map (·.counter.value)

end Objects

end FragmentHost.Profile

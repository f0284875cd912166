import FragmentHost.Assoc
import FragmentHost.Dictionary
import FragmentHost.Word

/-!
# Profiles

A profile is a tree of named nodes with counters and short texts. Names are unique among the children of
a node, so that a node is known by the names on the way to it. Children stay in the order in which they
were first asked for; a counter keeps the unit of its first request. Short texts are kept in the order of
their keys, counters in none.
-/

namespace FragmentHost

/-- What a counter counts. -/
inductive CounterUnit where
  | count
  | bytes
  | nanoseconds
  deriving DecidableEq, Repr, Inhabited

namespace CounterUnit

/-- The name of the unit. -/
def text : CounterUnit → String
  | count => "Unit"
  | bytes => "Bytes"
  | nanoseconds => "TimeNs"

/-- What stands behind a value of this unit. -/
def suffix : CounterUnit → String
  | count => ""
  | bytes => "B"
  | nanoseconds => "ns"

end CounterUnit

/-- A counter: its unit and a word that wraps around. -/
structure Counter where
  unit : CounterUnit
  value : Int := 0
  deriving DecidableEq, Repr, Inhabited

namespace Counter

/-- The counter after an addition. -/
def add (c : Counter) (n : Int) : Counter := { c with value := Word.wrap (c.value + n) }

/-- The counter set to a value. -/
def set (c : Counter) (n : Int) : Counter := { c with value := n }

/-- The value with its unit. -/
def text (c : Counter) : String := toString c.value ++ c.unit.suffix

end Counter

/-- A node of a profile with everything below it. -/
inductive Profile where
  | node (name : String) (infos : Dictionary String) (counters : Assoc Counter)
      (children : List Profile)
  deriving Repr

namespace Profile

/-- A node without content. -/
def empty (name : String) : Profile := node name [] [] []

instance : Inhabited Profile := ⟨empty ""⟩

/-- The name of the node. -/
def name : Profile → String
  | node name _ _ _ => name

/-- The short texts of the node, by key. -/
def infos : Profile → Dictionary String
  | node _ infos _ _ => infos

/-- The counters of the node, by name. -/
def counters : Profile → Assoc Counter
  | node _ _ counters _ => counters

/-- The children of the node in order of their first request. -/
def children : Profile → List Profile
  | node _ _ _ children => children

/-- The child called `name`. -/
def child? (p : Profile) (name : String) : Option Profile :=
  p.children.find? (·.name == name)

/-- The node with a child called `name`, new if there was none. -/
def ensureChild (p : Profile) (name : String) : Profile :=
  match p.child? name with
  | some _ => p
  | none => node p.name p.infos p.counters (p.children ++ [empty name])

/-- The node with the child called `name` changed. -/
def modifyChild (p : Profile) (name : String) (change : Profile → Profile) : Profile :=
  node p.name p.infos p.counters
    (p.children.map fun c => if c.name == name then change c else c)

/-- The node below `p` that is reached by the names of `path`. -/
def find? (p : Profile) : (path : List String) → Option Profile
  | [] => some p
  | name :: rest => (p.child? name).bind (find? · rest)

/-- The tree with the node at `path` changed. -/
def modify (p : Profile) (path : List String) (change : Profile → Profile) : Profile :=
  match path with
  | [] => change p
  | name :: rest => p.modifyChild name (modify · rest change)

/-- Sets a short text. -/
def setInfo (p : Profile) (key value : String) : Profile :=
  node p.name (p.infos.put key value) p.counters p.children

/-- The short text at `key`. -/
def info? (p : Profile) (key : String) : Option String := p.infos.get? key

/-- Changes the counter called `name`, which starts at zero with unit `unit` if it is new. -/
def modifyCounter (p : Profile) (name : String) (unit : CounterUnit)
    (change : Counter → Counter) : Profile :=
  node p.name p.infos
    (p.counters.alter name fun c => change (c.getD { unit := unit })) p.children

/-- Makes sure that there is a counter called `name`. -/
def ensureCounter (p : Profile) (name : String) (unit : CounterUnit) : Profile :=
  p.modifyCounter name unit id

/-- Adds to a counter. -/
def addTo (p : Profile) (name : String) (unit : CounterUnit) (n : Int) : Profile :=
  p.modifyCounter name unit (·.add n)

/-- Sets a counter. -/
def setTo (p : Profile) (name : String) (unit : CounterUnit) (n : Int) : Profile :=
  p.modifyCounter name unit (·.set n)

/-- The counter called `name`. -/
def counter? (p : Profile) (name : String) : Option Counter := p.counters.get? name

/-- The value of the counter called `name`. -/
def value? (p : Profile) (name : String) : Option Int := (p.counter? name).map (·.value)

end Profile

end FragmentHost

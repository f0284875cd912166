import FragmentHost.Memory.Allocator

/-!
# Allocator trees

The allocators of a node, numbered in order of creation. A request climbs from an allocator towards its
root and is granted only if every allocator on its way grants its share; `charge` therefore changes
nothing before the allocators above have agreed. Returned bytes climb in the same way, up to the first
closed allocator. Closing an allocator gives everything that its parent held for it back.
-/

namespace FragmentHost

/-- All allocators ever made, each at its number. -/
structure Forest where
  nodes : List Allocator := []
  deriving DecidableEq, Repr, Inhabited

namespace Forest

/-- The allocator with number `i`. -/
def get? (f : Forest) (i : Nat) : Option Allocator := f.nodes[i]?

/-- The forest with allocator `i` changed. -/
def modify (f : Forest) (i : Nat) (change : Allocator → Allocator) : Forest :=
  ⟨f.nodes.modify i change⟩

/-- The path of an allocator: itself and the allocators above it, up to the root. -/
def path (f : Forest) (i : Nat) : List Nat :=
  match f.get? i with
  | some a => i :: a.above
  | none => []

/-- Asks for `bytes` at the first allocator of a path. Requests for nothing are always granted. -/
def charge (f : Forest) : (path : List Nat) → (bytes : Int) → (limited : Bool) →
    Except Failure Forest
  | [], _, _ => .ok f
  | i :: rest, bytes, limited =>
    if bytes ≤ 0 then .ok f
    else match f.get? i with
      | none => .ok f
      | some a =>
        match a.refusal? bytes limited with
        | some refusal => .error refusal
        | none =>
          -- those above have to agree before anything is written here
          match charge f rest (a.demand bytes) (limited && a.obeysLimits) with
          | .error refusal => .error refusal
          | .ok g => .ok (g.modify i (·.grant bytes))

/-- Returns `bytes` at the first allocator of a path. A closed allocator takes nothing back. -/
def discharge (f : Forest) : (path : List Nat) → (bytes : Int) → Forest
  | [], _ => f
  | i :: rest, bytes =>
    if bytes ≤ 0 then f
    else match f.get? i with
      | none => f
      | some a =>
        -- what those above held for it went back when it was closed
        if a.closed then f
        else discharge (f.modify i (·.giveBack bytes)) rest (a.relief bytes)

/-- Asks for `bytes` at allocator `i`. -/
def consume (f : Forest) (i : Nat) (bytes : Int) : Except Failure Forest :=
  f.charge (f.path i) bytes true

/-- Returns `bytes` at allocator `i`. -/
def release (f : Forest) (i : Nat) (bytes : Int) : Forest :=
  f.discharge (f.path i) bytes

/-- Sets the coordinator's limit of allocator `i`. -/
def setLimit (f : Forest) (i : Nat) (limit : Int) : Forest :=
  f.modify i fun a => { a with limit := limit }

/-- The forest with one more allocator, and its number. -/
def add (f : Forest) (a : Allocator) : Forest × Nat :=
  (⟨f.nodes ++ [a]⟩, f.nodes.length)

/-- A new root with a ceiling. -/
def newRoot (f : Forest) (label : String) (max : Int) : Forest × Nat :=
  f.add { label := label, above := [], initial := 0, max := max, obeysLimits := false }

/-- The allocator `i` was dropped. -/
def isDropped (f : Forest) (i : Nat) : Bool :=
  match f.get? i with
  | some a => a.dropped
  | none => true

/-- Records `child` under `parent`; children dropped since are struck off. -/
def enter (f : Forest) (parent child : Nat) : Forest :=
  f.modify parent fun a =>
    { a with entries := a.entries.filter (fun c => !f.isDropped c) ++ [child] }

/-- The reason for which no reservation of this form can be made. -/
def reservationFault? (label : String) (initial max : Int) : Option Failure :=
  if initial < 0 then
    some (.invalidArgument
      ("negative initial reservation " ++ toString initial ++ " for " ++ label))
  else if 0 ≤ max ∧ max < initial then
    some (.invalidArgument ("initial reservation " ++ toString initial ++
      " exceeds max reservation " ++ toString max ++ " for " ++ label))
  else none

/-- A new allocator under `parent`, which has to grant its reservation. -/
def newChild (f : Forest) (parent : Nat) (label : String) (initial max : Int)
    (obeysLimits : Bool) : Except Failure (Forest × Nat) :=
  match reservationFault? label initial max with
  | some fault => .error fault
  | none =>
    match f.get? parent with
    | none => .error (.closed "allocator")
    | some p =>
      if p.closed then .error (.closed p.title)
      else
        -- the reservation is paid like any other request at the parent
        match f.charge (parent :: p.above) initial obeysLimits with
        | .error refusal => .error refusal
        | .ok g =>
          let (h, child) := g.add
            { label := label, above := parent :: p.above, initial := initial, max := max,
              obeysLimits := obeysLimits }
          .ok (h.enter parent child, child)

/-- Closes allocator `i` and gives what its parent held for it back. The second part is what was in
use, or nothing if the allocator was closed before. -/
def shut (f : Forest) (i : Nat) : Forest × Option Int :=
  match f.get? i with
  | none => (f, none)
  | some a =>
    if a.closed then (f, none)
    -- the reservation goes back even if less was in use
    else ((f.modify i (·.shut)).discharge a.above (a.covered a.current), some a.current)

/-- Closes allocator `i`. Bytes in use are reported as a leak, once. -/
def close (f : Forest) (i : Nat) : Forest × Option Failure :=
  match f.shut i with
  | (g, some outstanding) =>
    if 0 < outstanding then
      (g, (f.get? i).map fun a => .memoryLeak a.label outstanding)
    else (g, none)
  | (g, none) => (g, none)

/-- Drops allocator `i`, which nobody holds any more; it is closed if it was not. The second part is
what was still in use. -/
def drop (f : Forest) (i : Nat) : Forest × Option Int :=
  let (g, outstanding) := f.shut i
  (g.modify i fun a => { a with dropped := true }, outstanding)

/-- The children of allocator `i` that are neither closed nor dropped, in order of creation. -/
def children (f : Forest) (i : Nat) : List Nat :=
  match f.get? i with
  | none => []
  | some a => a.entries.filter fun c => (f.get? c).any (·.isLive)

/-- The bytes in use at allocator `i`. -/
def current (f : Forest) (i : Nat) : Int := (f.get? i).elim 0 (·.current)

/-- The most bytes ever in use at allocator `i`. -/
def peak (f : Forest) (i : Nat) : Int := (f.get? i).elim 0 (·.peak)

/-- The label of allocator `i`. -/
def label (f : Forest) (i : Nat) : String := (f.get? i).elim "" (·.label)

@[simp] theorem get?_modify_self (f : Forest) (i : Nat) (change : Allocator → Allocator) :
    (f.modify i change).get? i = (f.get? i).map change := by
  simp [get?, modify]

theorem get?_modify_of_ne (f : Forest) {i j : Nat} (h : i ≠ j) (change : Allocator → Allocator) :
    (f.modify i change).get? j = f.get? j := by
  simp [get?, modify, List.getElem?_modify_ne, h]

/-- A refused request leaves no trace, since nothing is written before all have agreed; a request for
nothing changes nothing. -/
theorem charge_of_nonpos (f : Forest) (path : List Nat) {bytes : Int} (h : bytes ≤ 0)
    (limited : Bool) : f.charge path bytes limited = .ok f := by
  cases path <;> simp [charge, h]

end Forest

end FragmentHost

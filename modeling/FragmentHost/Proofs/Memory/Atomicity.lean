import FragmentHost.Proofs.Memory.Calls

/-!
# Requests are granted in full or not at all

`Forest.charge` answers a refused request without a forest, so that by its form nothing can be left behind.
What is behind that form is an order of steps: an allocator looks at a request, passes on what its parent
has to grant, and writes its own figures only when those above have granted. Here a request is carried out
as these steps, on one forest that is written in place (`chargeInPlace`, `newChildInPlace`). A step that was
taken stays, also if a later one is refused.

The two agree (`carryOut_eq`). A refused request therefore ends in the forest that it found, whichever
allocator on the way refused and however many below it had let the request pass. That nothing was written
too early is the invariant of `chargeInPlace_eq`; that the figures of an allocator are still those that it
looked at when it writes them takes a path that meets nothing twice.
-/

namespace FragmentHost

namespace Forest

-- ---------------------------------------------------------------------------
-- Requests in steps
-- ---------------------------------------------------------------------------

/-- The figures of a grant written one after the other: what is in use, the total of the grants, and the
most that was ever in use. `usage` is what the allocator found when it looked at the request. -/
def writeGrant (f : Forest) (i : Nat) (usage bytes : Int) : Forest :=
  let f := f.modify i fun a => { a with current := usage }
  let f := f.modify i fun a => { a with allocated := Word.wrap (a.allocated + bytes) }
  f.modify i fun a => { a with peak := Max.max a.peak usage }

/-- A request carried out along a path. The forest that comes back is the one that was written in until
the request was granted or refused. -/
def chargeInPlace (f : Forest) : (path : List Nat) → (bytes : Int) → (limited : Bool) →
    Forest × Option Failure
  | [], _, _ => (f, none)
  | i :: rest, bytes, limited =>
    if bytes ≤ 0 then (f, none)
    else match f.get? i with
      | none => (f, none)
      | some a =>
        match a.refusal? bytes limited with
        | some refusal => (f, some refusal)
        | none =>
          match chargeInPlace f rest (a.demand bytes) (limited && a.obeysLimits) with
          -- whatever was written above stays written
          | (g, some refusal) => (g, some refusal)
          | (g, none) => (g.writeGrant i (a.usageAfter bytes) bytes, none)

/-- A reservation carried out under `parent`: the charge, the new allocator, and the record of it. -/
def newChildInPlace (f : Forest) (parent : Nat) (label : String) (initial max : Int)
    (obeysLimits : Bool) : Forest × Option Failure :=
  match reservationFault? label initial max with
  | some fault => (f, some fault)
  | none =>
    match f.get? parent with
    | none => (f, some (.closed "allocator"))
    | some p =>
      if p.closed then (f, some (.closed p.title))
      else
        match f.chargeInPlace (f.path parent) initial obeysLimits with
        | (g, some refusal) => (g, some refusal)
        | (g, none) =>
          ((g.add (f.newborn parent label initial max obeysLimits)).1.enter parent g.nodes.length, none)

/-- What an allocator can be asked for. -/
inductive Request where
  | bytes (i : Nat) (bytes : Int)
  | child (parent : Nat) (label : String) (initial max : Int) (obeysLimits : Bool)
  deriving DecidableEq, Repr

/-- The answer to a request: the forest with it granted, or the refusal. -/
def answer (f : Forest) : Request → Except Failure Forest
  | .bytes i bytes => f.consume i bytes
  | .child parent label initial max obeysLimits =>
    (f.newChild parent label initial max obeysLimits).map (·.1)

/-- A request carried out in steps. -/
def carryOut (f : Forest) : Request → Forest × Option Failure
  | .bytes i bytes => f.chargeInPlace (f.path i) bytes true
  | .child parent label initial max obeysLimits =>
    f.newChildInPlace parent label initial max obeysLimits

/-- Where a request that is answered leaves forest `f`, and its refusal. -/
def settled (f : Forest) : Except Failure Forest → Forest × Option Failure
  | .ok g => (g, none)
  | .error refusal => (f, some refusal)

-- ---------------------------------------------------------------------------
-- The steps and the answer agree
-- ---------------------------------------------------------------------------

/-- The figures written one after the other are those of a grant, if the allocator did not change since
it looked at the request. -/
theorem writeGrant_eq {g : Forest} {i : Nat} {a : Allocator} (ha : g.get? i = some a) (bytes : Int) :
    g.writeGrant i (a.usageAfter bytes) bytes = g.modify i (·.grant bytes) := by
  unfold writeGrant
  simp only [modify, List.modify_modify_eq]
  exact modify_congr ha rfl

/-- Along a path that climbs, the steps end where the answer says: with the grants written, or with
nothing written at all. -/
theorem chargeInPlace_eq {f : Forest} : ∀ {path : List Nat}, f.Climbs path →
    ∀ (bytes : Int) (limited : Bool),
      f.chargeInPlace path bytes limited = f.settled (f.charge path bytes limited) := by
  intro path
  induction path with
  | nil => exact fun _ _ _ => rfl
  | cons i rest ih =>
    intro hc bytes limited
    rw [chargeInPlace, charge]
    by_cases hpos : bytes ≤ 0
    · rw [if_pos hpos, if_pos hpos]
      rfl
    · rw [if_neg hpos, if_neg hpos]
      obtain ⟨a, ha, -⟩ := hc.1
      rw [ha]
      dsimp only
      cases hr : a.refusal? bytes limited with
      | some refusal => rfl
      | none =>
        dsimp only
        rw [ih hc.2.2]
        cases hg : f.charge rest (a.demand bytes) (limited && a.obeysLimits) with
        | error refusal => rfl
        | ok g =>
          -- the way up does not come back to `i`
          have hga : g.get? i = some a := by
            rw [get?_charge_of_not_mem hc.not_mem hg, ha]
          simp only [settled, writeGrant_eq hga]

theorem newChildInPlace_eq {f : Forest} (hf : f.Linked) (parent : Nat) (label : String)
    (initial max : Int) (obeysLimits : Bool) :
    f.newChildInPlace parent label initial max obeysLimits =
      f.settled ((f.newChild parent label initial max obeysLimits).map (·.1)) := by
  unfold newChildInPlace newChild
  cases reservationFault? label initial max with
  | some fault => rfl
  | none =>
    cases hp : f.get? parent with
    | none => rfl
    | some p =>
      dsimp only
      by_cases hclosed : p.closed = true
      · rw [if_pos hclosed, if_pos hclosed]
        rfl
      · rw [if_neg hclosed, if_neg hclosed, chargeInPlace_eq (hf.climbs_path parent),
          path_of_get? hp]
        cases f.charge (parent :: p.above) initial obeysLimits with
        | error refusal => rfl
        | ok g =>
          simp only [settled, newborn, path_of_get? hp]
          rfl

/-- A request carried out in steps ends where its answer says. -/
theorem carryOut_eq {f : Forest} (hf : f.Linked) (r : Request) :
    f.carryOut r = f.settled (f.answer r) := by
  cases r with
  | bytes i bytes => exact chargeInPlace_eq (hf.climbs_path i) bytes true
  | child parent label initial max obeysLimits =>
    exact newChildInPlace_eq hf parent label initial max obeysLimits

/-- After any run, a request for bytes or for a child that is refused ends in the very forest that it
found: no figure, mark, limit or record of children of any allocator is another one. -/
theorem refused_request_leaves_no_trace (calls : List AllocatorCall) (r : Request) {g : Forest}
    {refusal : Failure} (h : (performAll {} calls).carryOut r = (g, some refusal)) :
    g = performAll {} calls ∧ (performAll {} calls).answer r = .error refusal := by
  rw [carryOut_eq (linked_performAll calls)] at h
  cases ha : (performAll {} calls).answer r with
  | ok k =>
    rw [ha] at h
    simp [settled] at h
  | error found =>
    rw [ha] at h
    obtain ⟨rfl, hfound⟩ := Prod.mk.inj h
    exact ⟨rfl, congrArg Except.error (Option.some.inj hfound)⟩

/-- A run over three levels below a root with a ceiling. An allocator was given more back than it had
and one is closed. -/
def deepRun : List AllocatorCall :=
  [.root "query" 100, .child 0 "fragment" 20 (-1) true, .child 1 "join" 10 (-1) true,
    .child 2 "build" 0 (-1) true, .child 1 "scan" 5 (-1) false, .consume 3 25, .release 2 90,
    .consume 4 30, .close 4]

/-- The refusal of the root, after three allocators below it had let the request pass. -/
def deepRefusal : Failure :=
  .outOfMemory "allocator query cannot grant 110 bytes: 20 in use, max reservation 100"

theorem refused_request_leaves_no_trace_deepRun :
    ∃ g, (performAll {} deepRun).carryOut (.bytes 3 130) = (g, some deepRefusal) ∧
      g = performAll {} deepRun ∧
      (performAll {} deepRun).answer (.bytes 3 130) = .error deepRefusal :=
  ⟨performAll {} deepRun, by decide +kernel,
    refused_request_leaves_no_trace deepRun (.bytes 3 130) (by decide +kernel)⟩

end Forest

end FragmentHost

import FragmentHost.Proofs.Distinct
import FragmentHost.Proofs.Profile.Nodes

/-!
# Requests through handles

Nodes and counters of a profile are handed out, any number of times each, and what is asked through a handle is
asked of the one node or counter that it stands for. `Handles` carries such a run and keeps in a log what was
asked of which node. A node has its children and its counters from its own part of the log (`Records`), and a
counter its unit and value from what was asked of it (`Counts`): the unit of the first request, and the last
value that was set with everything that was added since, by whatever way.
-/

namespace FragmentHost.Profile

-- ---------------------------------------------------------------------------
-- What is asked of a counter
-- ---------------------------------------------------------------------------

/-- What is asked of one counter. -/
inductive Ask where
  /-- The counter itself, which is made with this unit if there is none. -/
  | request (unit : CounterUnit)
  | add (n : Int)
  | set (n : Int)
  deriving DecidableEq, Repr

namespace Ask

/-- The counter after it was asked. -/
def apply (c : Option Counter) : Ask → Option Counter
  | request unit => some (c.getD { unit := unit })
  | add n => c.map (·.add n)
  | set n => c.map (·.set n)

/-- The counter that was asked all this. -/
def counter (asks : List Ask) : Option Counter := asks.foldl apply none

/-- What the asking adds. -/
def amount : Ask → Int
  | add n => n
  | _ => 0

/-- Everything that was added. -/
def added : List Ask → Int
  | [] => 0
  | a :: asks => a.amount + added asks

/-- A value that is set is a word. -/
def InWords : Ask → Prop
  | set n => Word.Fits n
  | _ => True

/-- Nothing is asked of a counter before it was requested. -/
def Opened (asks : List Ask) : Prop := asks = [] ∨ ∃ unit rest, asks = request unit :: rest

theorem counter_append (asks more : List Ask) : counter (asks ++ more) = more.foldl apply (counter asks) :=
  List.foldl_append

theorem Opened.append {asks more : List Ask} (h : Opened asks) (hmore : asks = [] → Opened more) :
    Opened (asks ++ more) := by
  obtain rfl | ⟨unit, rest, rfl⟩ := h
  · exact hmore rfl
  · exact Or.inr ⟨unit, rest ++ more, rfl⟩

/-- Asking a counter that is there. -/
theorem foldl_apply {c : Counter} (asks : List Ask) :
    ∃ d, asks.foldl apply (some c) = some d ∧ d.unit = c.unit := by
  induction asks generalizing c with
  | nil => exact ⟨c, rfl, rfl⟩
  | cons a asks ih =>
    cases a with
    | request unit => exact ih
    | add n => exact ih (c := c.add n)
    | set n => exact ih (c := c.set n)

/-- Without a new value, what was added counts. -/
theorem value_of_never_set {c d : Counter} {asks : List Ask} {n : Int} (hc : c.value = Word.wrap n)
    (hnever : ∀ v, set v ∉ asks) (hd : asks.foldl apply (some c) = some d) :
    d.value = Word.wrap (n + added asks) := by
  induction asks generalizing c n with
  | nil =>
    obtain rfl : c = d := Option.some.inj hd
    simpa [added] using hc
  | cons a asks ih =>
    have hrest : ∀ v, set v ∉ asks := fun v hv => hnever v (List.mem_cons_of_mem a hv)
    rw [added, ← Int.add_assoc]
    cases a with
    | request unit => exact ih (c := c) (by simpa [amount] using hc) hrest hd
    | add m =>
      refine ih (c := c.add m) ?_ hrest hd
      rw [Counter.add, hc, Word.wrap_wrap_add]
      rfl
    | set m => exact absurd (List.mem_cons_self ..) (hnever m)

end Ask

/-- The counter is what was asked of it. -/
structure Counts (asks : List Ask) (c : Counter) : Prop where
  /-- The unit is that of the first request. -/
  unit : ∃ rest, asks = .request c.unit :: rest
  neverSet : (∀ v, Ask.set v ∉ asks) → c.value = Word.wrap (Ask.added asks)
  /-- The last value that was set, and what was added since. -/
  lastSet : ∀ before v after, asks = before ++ .set v :: after → (∀ w, Ask.set w ∉ after) →
    c.value = Word.wrap (v + Ask.added after)

theorem counts_of_counter {asks : List Ask} {c : Counter} (hopened : Ask.Opened asks)
    (hwords : ∀ a ∈ asks, a.InWords) (hc : Ask.counter asks = some c) : Counts asks c := by
  obtain rfl | ⟨unit, rest, rfl⟩ := hopened
  · simp [Ask.counter] at hc
  have hrest : rest.foldl Ask.apply (some { unit := unit }) = some c := hc
  constructor
  case unit =>
    obtain ⟨d, hd, hunit⟩ := Ask.foldl_apply (c := { unit := unit }) rest
    obtain rfl : d = c := Option.some.inj (hd.symm.trans hrest)
    exact ⟨rest, by rw [hunit]⟩
  case neverSet =>
    intro hnever
    rw [Ask.added]
    exact Ask.value_of_never_set (c := { unit := unit }) rfl
      (fun v hv => hnever v (List.mem_cons_of_mem _ hv)) hrest
  case lastSet =>
    intro before v after hsplit hafter
    -- the new value is written into the counter as it was before
    cases before with
    | nil => simp at hsplit
    | cons first before =>
      rw [List.cons_append, List.cons.injEq] at hsplit
      obtain ⟨-, rfl⟩ := hsplit
      obtain ⟨d, hd, -⟩ := Ask.foldl_apply (c := { unit := unit }) before
      rw [List.foldl_append, hd] at hrest
      have hv : Word.Fits v := hwords (.set v) (by simp)
      exact Ask.value_of_never_set (c := d.set v) (Word.wrap_of_fits hv).symm hafter hrest

-- ---------------------------------------------------------------------------
-- What is asked of a node
-- ---------------------------------------------------------------------------

/-- What is asked of one node and of its counters. -/
inductive Request where
  | child (name : String)
  | getChild (name : String)
  | info (key value : String)
  | counter (name : String) (unit : CounterUnit)
  | addTo (name : String) (unit : CounterUnit) (n : Int)
  | setTo (name : String) (unit : CounterUnit) (n : Int)
  /-- Adds to a counter that was handed out. -/
  | add (counter : String) (n : Int)
  | set (counter : String) (n : Int)
  deriving DecidableEq, Repr

namespace Request

/-- The node after the request. -/
def apply (p : Profile) : Request → Profile
  | child name => p.ensureChild name
  | getChild _ => p
  | info key value => p.setInfo key value
  | counter name unit => p.ensureCounter name unit
  | addTo name unit n => p.addTo name unit n
  | setTo name unit n => p.setTo name unit n
  -- the counter is there, so that it keeps its unit
  | add name n => p.addTo name .count n
  | set name n => p.setTo name .count n

/-- The child that is made if there is none. -/
def child? : Request → Option String
  | child name => some name
  | _ => none

/-- What is asked of the counter called `name`. -/
def asks (name : String) : Request → List Ask
  | counter other unit => if other = name then [.request unit] else []
  | addTo other unit n => if other = name then [.request unit, .add n] else []
  | setTo other unit n => if other = name then [.request unit, .set n] else []
  | add other n => if other = name then [.add n] else []
  | set other n => if other = name then [.set n] else []
  | child _ => []
  | getChild _ => []
  | info _ _ => []

/-- A value that is set is a word. -/
def InWords : Request → Prop
  | setTo _ _ n => Word.Fits n
  | set _ n => Word.Fits n
  | _ => True

/-- Only counters that are there were handed out. -/
def Sound (p : Profile) : Request → Prop
  | add name _ => (p.counter? name).isSome
  | set name _ => (p.counter? name).isSome
  | _ => True

end Request

/-- The names of the children that were requested, in order. -/
def childrenAsked (rs : List Request) : List String := rs.filterMap Request.child?

/-- What was asked of the counter called `name`, in order. -/
def counterAsked (rs : List Request) (name : String) : List Ask := rs.flatMap (Request.asks name)

/-- The node is what was asked of it. -/
structure Records (p : Profile) (rs : List Request) : Prop where
  children : p.childNames = (childrenAsked rs).eraseDups
  counter : ∀ name, p.counter? name = Ask.counter (counterAsked rs name)
  opened : ∀ name, Ask.Opened (counterAsked rs name)

variable {p q : Profile} {rs : List Request}

theorem Records.start (name : String) : Records (empty name) [] :=
  ⟨rfl, fun _ => rfl, fun _ => Or.inl rfl⟩

/-- Only the names of the children and the counters matter. -/
theorem Records.congr (h : Records p rs) (hchildren : q.childNames = p.childNames)
    (hcounters : q.counters = p.counters) : Records q rs := by
  refine ⟨hchildren.trans h.children, fun name => ?_, h.opened⟩
  rw [← h.counter, counter?, counter?, hcounters]

theorem childrenAsked_concat (rs : List Request) (r : Request) :
    childrenAsked (rs ++ [r]) = childrenAsked rs ++ r.child?.toList := by
  rw [childrenAsked, List.filterMap_append, ← childrenAsked]
  cases h : r.child? <;> simp [h]

theorem counterAsked_concat (rs : List Request) (r : Request) (name : String) :
    counterAsked (rs ++ [r]) name = counterAsked rs name ++ r.asks name := by
  simp [counterAsked]

theorem Records.ensureChild (h : Records p rs) (name : String) :
    Records (p.ensureChild name) (rs ++ [.child name]) := by
  have hasked (other : String) : counterAsked (rs ++ [.child name]) other = counterAsked rs other := by
    rw [counterAsked_concat, Request.asks, List.append_nil]
  refine ⟨?_, fun other => ?_, fun other => hasked other ▸ h.opened other⟩
  · rw [childNames_ensureChild, childrenAsked_concat, Request.child?, Option.toList_some, eraseDups_concat,
      h.children]
    simp
  · rw [hasked, ← h.counter, counter?, counter?, counters_ensureChild]

/-- A request that changes one counter does so as it is asked to. -/
theorem Records.modifyCounter (h : Records p rs) {r : Request} {name : String} {unit : CounterUnit}
    {change : Counter → Counter} {asks : List Ask} (hchild : r.child? = none)
    (hasks : ∀ other, r.asks other = if name = other then asks else [])
    (hchange : some (change ((p.counter? name).getD { unit := unit })) =
      asks.foldl Ask.apply (p.counter? name))
    (hopened : p.counter? name = none → Ask.Opened asks) :
    Records (p.modifyCounter name unit change) (rs ++ [r]) := by
  have hasked (other : String) : counterAsked (rs ++ [r]) other =
      counterAsked rs other ++ if name = other then asks else [] := by
    rw [counterAsked_concat, hasks]
  refine ⟨?_, fun other => ?_, fun other => ?_⟩
  · rw [childrenAsked_concat, hchild, Option.toList_none, List.append_nil]
    exact h.children
  · rw [hasked, Ask.counter_append, ← h.counter]
    refine (Assoc.get?_alter p.counters name other _).trans ?_
    by_cases hother : other = name
    · rw [if_pos hother, if_pos hother.symm, hother]
      exact hchange
    · rw [if_neg hother, if_neg (Ne.symm hother)]
      rfl
  · rw [hasked]
    refine (h.opened other).append fun hnone => ?_
    split
    · next hother =>
      refine hopened ?_
      rw [h.counter, hother, hnone]
      rfl
    · exact Or.inl rfl

/-- A request that has nothing to do with children and counters. -/
theorem Records.silent (h : Records p rs) {r : Request} (hchild : r.child? = none)
    (hasks : ∀ name, r.asks name = []) : Records p (rs ++ [r]) := by
  have hasked (name : String) : counterAsked (rs ++ [r]) name = counterAsked rs name := by
    rw [counterAsked_concat, hasks, List.append_nil]
  refine ⟨?_, fun name => ?_, fun name => hasked name ▸ h.opened name⟩
  · rw [childrenAsked_concat, hchild, Option.toList_none, List.append_nil]
    exact h.children
  · rw [hasked]
    exact h.counter name

/-- A node goes on being what was asked of it. -/
theorem Records.apply (h : Records p rs) {r : Request} (hr : r.Sound p) :
    Records (r.apply p) (rs ++ [r]) := by
  cases r with
  | child name => exact h.ensureChild name
  | getChild name => exact h.silent rfl (fun _ => rfl)
  | info key value => exact (h.silent rfl fun _ => rfl).congr rfl rfl
  | counter name unit =>
    show Records (p.modifyCounter name unit id) _
    exact h.modifyCounter rfl (fun _ => rfl) rfl fun _ => Or.inr ⟨unit, _, rfl⟩
  | addTo name unit n =>
    show Records (p.modifyCounter name unit (·.add n)) _
    exact h.modifyCounter rfl (fun _ => rfl) rfl fun _ => Or.inr ⟨unit, _, rfl⟩
  | setTo name unit n =>
    show Records (p.modifyCounter name unit (·.set n)) _
    exact h.modifyCounter rfl (fun _ => rfl) rfl fun _ => Or.inr ⟨unit, _, rfl⟩
  | add name n =>
    obtain ⟨c, hc⟩ := Option.isSome_iff_exists.mp hr
    show Records (p.modifyCounter name .count (·.add n)) _
    exact h.modifyCounter rfl (fun _ => rfl) (by rw [hc]; rfl) (by simp [hc])
  | set name n =>
    obtain ⟨c, hc⟩ := Option.isSome_iff_exists.mp hr
    show Records (p.modifyCounter name .count (·.set n)) _
    exact h.modifyCounter rfl (fun _ => rfl) (by rw [hc]; rfl) (by simp [hc])

theorem Records.mem_childNames (h : Records p rs) {name : String} :
    name ∈ p.childNames ↔ Request.child name ∈ rs := by
  rw [h.children, List.mem_eraseDups, childrenAsked, List.mem_filterMap]
  constructor
  · rintro ⟨r, hr, hname⟩
    cases r <;> simp_all [Request.child?]
  · exact fun hr => ⟨.child name, hr, rfl⟩

theorem Records.isSome_counter? (h : Records p rs) {name : String} :
    (p.counter? name).isSome ↔ counterAsked rs name ≠ [] := by
  rw [h.counter]
  obtain hnone | ⟨unit, rest, hsome⟩ := h.opened name
  · simp [hnone, Ask.counter]
  · obtain ⟨c, hc, -⟩ := Ask.foldl_apply (c := { unit := unit }) rest
    have hcounter : Ask.counter (.request unit :: rest) = some c := hc
    simp [hsome, hcounter]

theorem name_apply (p : Profile) (r : Request) : (r.apply p).name = p.name := by
  cases r with
  | child name => exact name_ensureChild p name
  | _ => rfl

/-- No request changes what is below the node. -/
theorem getD_child?_apply (p : Profile) (r : Request) (name : String) :
    ((r.apply p).child? name).getD (empty name) = (p.child? name).getD (empty name) := by
  cases r with
  | child other =>
    rw [Request.apply, child?_ensureChild]
    by_cases h : name = other
    · rw [if_pos h, h, Option.getD_some]
    · rw [if_neg h]
  | _ => rfl

theorem Proper.apply (h : p.Proper) (r : Request) : (r.apply p).Proper := by
  cases r with
  | child name => exact h.ensureChild name
  | getChild name => exact h
  | info key value => exact h.setInfo key value
  | counter name unit => exact h.modifyCounter name unit id
  | addTo name unit n => exact h.modifyCounter name unit (·.add n)
  | setTo name unit n => exact h.modifyCounter name unit (·.set n)
  | add name n => exact h.modifyCounter name .count (·.add n)
  | set name n => exact h.modifyCounter name .count (·.set n)

-- ---------------------------------------------------------------------------
-- Handles
-- ---------------------------------------------------------------------------

/-- A profile, the nodes and counters that were handed out, and what was asked of which node. Handles have
numbers in the order in which they were handed out, nodes and counters apart; the top node comes first. -/
structure Handles where
  tree : Profile
  nodes : List (List String) := [[]]
  counters : List (List String × String) := []
  log : List (List String × Request) := []

/-- A call through the handle of a node or of a counter. -/
inductive HandleCall where
  | child (node : Nat) (name : String)
  | getChild (node : Nat) (name : String)
  | info (node : Nat) (key value : String)
  | counter (node : Nat) (name : String) (unit : CounterUnit)
  | timer (node : Nat) (name : String)
  | addTo (node : Nat) (name : String) (unit : CounterUnit) (n : Int)
  | setTo (node : Nat) (name : String) (unit : CounterUnit) (n : Int)
  | add (counter : Nat) (n : Int)
  | set (counter : Nat) (n : Int)
  deriving DecidableEq, Repr

namespace HandleCall

/-- A value that is set is a word. -/
def InWords : HandleCall → Prop
  | setTo _ _ _ n => Word.Fits n
  | set _ n => Word.Fits n
  | _ => True

instance : (call : HandleCall) → Decidable call.InWords
  | setTo _ _ _ n => inferInstanceAs (Decidable (Word.Fits n))
  | set _ n => inferInstanceAs (Decidable (Word.Fits n))
  | child _ _ | getChild _ _ | info _ _ _ | counter _ _ _ | timer _ _ | addTo _ _ _ _ | add _ _ =>
    .isTrue trivial

/-- What is asked of which node; nothing without such a handle. -/
def placed? (m : Handles) : HandleCall → Option (List String × Request)
  | child k name => m.nodes[k]?.map fun place => (place, .child name)
  | getChild k name => m.nodes[k]?.map fun place => (place, .getChild name)
  | info k key value => m.nodes[k]?.map fun place => (place, .info key value)
  | counter k name unit => m.nodes[k]?.map fun place => (place, .counter name unit)
  | timer k name => m.nodes[k]?.map fun place => (place, .counter name .nanoseconds)
  | addTo k name unit n => m.nodes[k]?.map fun place => (place, .addTo name unit n)
  | setTo k name unit n => m.nodes[k]?.map fun place => (place, .setTo name unit n)
  | add k n => m.counters[k]?.map fun e => (e.1, .add e.2 n)
  | set k n => m.counters[k]?.map fun e => (e.1, .set e.2 n)

end HandleCall

/-- What was asked of the node at `place`, in order. -/
def askedOf (log : List (List String × Request)) (place : List String) : List Request :=
  (log.filter (·.1 = place)).map (·.2)

namespace Handles

/-- The nodes that a request hands out: the child, if there is one. -/
def nodesFor (p : Profile) (place : List String) : Request → List (List String)
  | .child name => [place ++ [name]]
  | .getChild name =>
    if ((p.find? place).bind (·.child? name)).isSome then [place ++ [name]] else []
  | _ => []

/-- The counters that a request hands out. -/
def countersFor (place : List String) : Request → List (List String × String)
  | .counter name _ => [(place, name)]
  | _ => []

/-- Asks the node at `place`. -/
def carryOut (m : Handles) (place : List String) (r : Request) : Handles :=
  { tree := m.tree.modify place r.apply
    nodes := m.nodes ++ nodesFor m.tree place r
    counters := m.counters ++ countersFor place r
    log := m.log ++ [(place, r)] }

/-- Carries out a call. -/
def act (m : Handles) (call : HandleCall) : Handles :=
  match call.placed? m with
  | some (place, r) => m.carryOut place r
  | none => m

/-- A new profile after calls, one after the other. -/
def run (name : String) (calls : List HandleCall) : Handles := calls.foldl act { tree := empty name }

/-- The node of a handle. -/
def node? (m : Handles) (k : Nat) : Option Profile := m.nodes[k]?.bind m.tree.find?

/-- The counter of a handle. -/
def counter? (m : Handles) (k : Nat) : Option Counter :=
  m.counters[k]?.bind fun e => (m.tree.find? e.1).bind (·.counter? e.2)

/-- The tree is what was asked of its nodes, and all that was handed out is there. -/
structure Kept (m : Handles) : Prop where
  proper : m.tree.Proper
  records : ∀ place, Records (m.tree.nodeAt place) (askedOf m.log place)
  node : ∀ place ∈ m.nodes, (m.tree.find? place).isSome
  counter : ∀ e ∈ m.counters, (m.tree.find? e.1).isSome ∧ counterAsked (askedOf m.log e.1) e.2 ≠ []

end Handles

variable {m : Handles} {place : List String} {r : Request}

theorem mem_askedOf {log : List (List String × Request)} : r ∈ askedOf log place ↔ (place, r) ∈ log := by
  simp [askedOf]

theorem askedOf_concat (log : List (List String × Request)) (place other : List String) (r : Request) :
    askedOf (log ++ [(place, r)]) other = askedOf log other ++ if place = other then [r] else [] := by
  by_cases h : place = other <;> simp [askedOf, h]

theorem counterAsked_askedOf_concat (log : List (List String × Request)) (place other : List String)
    (r : Request) (name : String) :
    counterAsked (askedOf (log ++ [(place, r)]) other) name =
      counterAsked (askedOf log other) name ++ if place = other then r.asks name else [] := by
  rw [askedOf_concat]
  by_cases h : place = other
  · rw [if_pos h, if_pos h, counterAsked_concat]
  · rw [if_neg h, if_neg h, List.append_nil, List.append_nil]

namespace Handles

/-- What is handed out is a child that is made, or one that is there. -/
theorem of_mem_nodesFor {other : List String} (h : other ∈ nodesFor p place r) :
    ∃ name, other = place ++ [name] ∧ (r = .child name ∨ (p.find? other).isSome) := by
  cases r with
  | child name => exact ⟨name, List.mem_singleton.mp h, Or.inl rfl⟩
  | getChild name =>
    rw [nodesFor] at h
    split at h
    · next hfound =>
      obtain rfl := List.mem_singleton.mp h
      exact ⟨name, rfl, Or.inr (by simpa [find?_append, find?_cons] using hfound)⟩
    · simp at h
  | _ => simp [nodesFor] at h

theorem of_mem_countersFor {e : List String × String} (h : e ∈ countersFor place r) :
    e.1 = place ∧ ∃ unit, r = .counter e.2 unit := by
  cases r with
  | counter name unit =>
    obtain rfl := List.mem_singleton.mp h
    exact ⟨rfl, unit, rfl⟩
  | _ => simp [countersFor] at h

/-- The nodes below the top one are those that were requested. -/
theorem Kept.isSome_find?_concat (h : m.Kept) {name : String} :
    (m.tree.find? (place ++ [name])).isSome ↔ (place, Request.child name) ∈ m.log := by
  rw [Profile.isSome_find?_concat, (h.records place).mem_childNames, mem_askedOf]

theorem Kept.start (name : String) : Kept { tree := empty name } := by
  constructor
  case proper => exact proper_empty name
  case records =>
    intro place
    obtain ⟨last, hlast⟩ := nodeAt_empty name place
    exact hlast ▸ Records.start last
  case node => simp
  case counter => simp

/-- Asking a node leaves every other one as it was. -/
theorem Kept.records_carryOut (h : m.Kept) (hplace : m.tree.find? place = some q) (hr : r.Sound q)
    (other : List String) :
    Records ((m.carryOut place r).tree.nodeAt other) (askedOf (m.carryOut place r).log other) := by
  have hname (c : Profile) : (r.apply c).name = c.name := name_apply c r
  rw [Handles.carryOut, askedOf_concat]
  by_cases hother : place = other
  · subst hother
    rw [if_pos rfl, nodeAt_of_find? (find?_modify_self hname hplace)]
    have hq := h.records place
    rw [nodeAt_of_find? hplace] at hq
    exact hq.apply hr
  · rw [if_neg hother, List.append_nil]
    have hsame := sameOwn_nodeAt_modify hname (getD_child?_apply · r) hplace (Ne.symm hother)
    exact (h.records other).congr hsame.childNames hsame.counters

theorem Kept.isSome_find?_concat_carryOut (h : m.Kept) (hplace : m.tree.find? place = some q)
    (hr : r.Sound q) {init : List String} {name : String} :
    ((m.carryOut place r).tree.find? (init ++ [name])).isSome ↔
      (init, Request.child name) ∈ m.log ++ [(place, r)] := by
  rw [Profile.isSome_find?_concat, (h.records_carryOut hplace hr init).mem_childNames, mem_askedOf]
  rfl

/-- Nodes stay where they are. -/
theorem Kept.isSome_find?_carryOut (h : m.Kept) (hplace : m.tree.find? place = some q) (hr : r.Sound q)
    (other : List String) (hother : (m.tree.find? other).isSome) :
    ((m.carryOut place r).tree.find? other).isSome := by
  cases other using List.reverseRecOn with
  | nil => rfl
  | append_singleton init name _ =>
    rw [h.isSome_find?_concat_carryOut hplace hr]
    exact List.mem_append_left _ (h.isSome_find?_concat.mp hother)

theorem Kept.carryOut (h : m.Kept) (hplace : m.tree.find? place = some q) (hr : r.Sound q) :
    (m.carryOut place r).Kept := by
  have hstays := h.isSome_find?_carryOut hplace hr
  constructor
  case proper => exact h.proper.modify place (name_apply · r) fun _ hc => hc.apply r
  case records => exact h.records_carryOut hplace hr
  case node =>
    intro other hother
    rcases List.mem_append.mp hother with hother | hnew
    · exact hstays other (h.node other hother)
    · obtain ⟨name, rfl, rfl | hfound⟩ := of_mem_nodesFor hnew
      · exact (h.isSome_find?_concat_carryOut hplace hr).mpr (by simp)
      · exact hstays _ hfound
  case counter =>
    intro e he
    rw [Handles.carryOut, counterAsked_askedOf_concat]
    rcases List.mem_append.mp he with he | hnew
    · obtain ⟨hfound, hasked⟩ := h.counter e he
      exact ⟨hstays e.1 hfound, List.append_ne_nil_of_left_ne_nil hasked _⟩
    · obtain ⟨hplace', unit, rfl⟩ := of_mem_countersFor hnew
      refine ⟨hstays e.1 (by rw [hplace', hplace]; rfl), ?_⟩
      simp [hplace', Request.asks]

/-- The handle of a node stands for a node of the tree. -/
theorem Kept.sound_of_node (h : m.Kept) {k : Nat} (request : Request) (hrequest : ∀ q, request.Sound q)
    (hk : m.nodes[k]?.map (fun place => (place, request)) = some (place, r)) :
    ∃ q, m.tree.find? place = some q ∧ r.Sound q := by
  obtain ⟨other, hother, heq⟩ := Option.map_eq_some_iff.mp hk
  obtain ⟨rfl, rfl⟩ := Prod.mk.inj heq
  obtain ⟨q, hq⟩ := Option.isSome_iff_exists.mp (h.node other (List.mem_of_getElem? hother))
  exact ⟨q, hq, hrequest q⟩

/-- The handle of a counter stands for a counter of the tree. -/
theorem Kept.sound_of_counter (h : m.Kept) {k : Nat} (request : String → Request)
    (hrequest : ∀ q name, (request name).Sound q ↔ (q.counter? name).isSome)
    (hk : m.counters[k]?.map (fun e => (e.1, request e.2)) = some (place, r)) :
    ∃ q, m.tree.find? place = some q ∧ r.Sound q := by
  obtain ⟨e, he, heq⟩ := Option.map_eq_some_iff.mp hk
  obtain ⟨rfl, rfl⟩ := Prod.mk.inj heq
  obtain ⟨hfound, hasked⟩ := h.counter e (List.mem_of_getElem? he)
  obtain ⟨q, hq⟩ := Option.isSome_iff_exists.mp hfound
  have hrecords := h.records e.1
  rw [nodeAt_of_find? hq] at hrecords
  exact ⟨q, hq, (hrequest q e.2).mpr (hrecords.isSome_counter?.mpr hasked)⟩

theorem Kept.sound (h : m.Kept) {call : HandleCall} (hcall : call.placed? m = some (place, r)) :
    ∃ q, m.tree.find? place = some q ∧ r.Sound q := by
  cases call with
  | child k name => exact h.sound_of_node (.child name) (fun _ => trivial) hcall
  | getChild k name => exact h.sound_of_node (.getChild name) (fun _ => trivial) hcall
  | info k key value => exact h.sound_of_node (.info key value) (fun _ => trivial) hcall
  | counter k name unit => exact h.sound_of_node (.counter name unit) (fun _ => trivial) hcall
  | timer k name => exact h.sound_of_node (.counter name .nanoseconds) (fun _ => trivial) hcall
  | addTo k name unit n => exact h.sound_of_node (.addTo name unit n) (fun _ => trivial) hcall
  | setTo k name unit n => exact h.sound_of_node (.setTo name unit n) (fun _ => trivial) hcall
  | add k n => exact h.sound_of_counter (.add · n) (fun _ _ => Iff.rfl) hcall
  | set k n => exact h.sound_of_counter (.set · n) (fun _ _ => Iff.rfl) hcall

theorem Kept.act (h : m.Kept) (call : HandleCall) : (m.act call).Kept := by
  rw [Handles.act]
  cases hcall : call.placed? m with
  | none => exact h
  | some placed =>
    obtain ⟨q, hq, hr⟩ := h.sound hcall
    exact h.carryOut hq hr

theorem run_concat (name : String) (calls : List HandleCall) (call : HandleCall) :
    run name (calls ++ [call]) = (run name calls).act call := by
  simp [run]

/-- Whatever is asked through handles. -/
theorem kept_run (name : String) (calls : List HandleCall) : (run name calls).Kept := by
  induction calls using List.reverseRecOn with
  | nil => exact Kept.start name
  | append_singleton calls call ih => exact run_concat name calls call ▸ ih.act call

-- ---------------------------------------------------------------------------
-- Words
-- ---------------------------------------------------------------------------

theorem inWords_of_mem_asks {name : String} {a : Ask} (hr : r.InWords) (ha : a ∈ r.asks name) :
    a.InWords := by
  cases r <;>
    simp only [Request.asks, List.mem_ite_nil_right, List.mem_cons, List.not_mem_nil, or_false] at ha
  case setTo other unit n =>
    obtain ⟨-, rfl | rfl⟩ := ha
    · trivial
    · exact hr
  case set other n => exact ha.2 ▸ hr
  case addTo => obtain ⟨-, rfl | rfl⟩ := ha <;> trivial
  all_goals exact ha.2 ▸ trivial

theorem inWords_of_placed? {call : HandleCall} (hcall : call.placed? m = some (place, r))
    (hwords : call.InWords) : r.InWords := by
  cases call <;>
  · obtain ⟨_, -, heq⟩ := Option.map_eq_some_iff.mp hcall
    obtain ⟨-, rfl⟩ := Prod.mk.inj heq
    exact hwords

theorem inWords_run (name : String) {calls : List HandleCall} (hwords : ∀ call ∈ calls, call.InWords) :
    ∀ e ∈ (run name calls).log, e.2.InWords := by
  induction calls using List.reverseRecOn with
  | nil => simp [run]
  | append_singleton calls call ih =>
    have hlog := ih fun c hc => hwords c (List.mem_append_left _ hc)
    rw [run_concat, act]
    cases hcall : call.placed? (run name calls) with
    | none => exact hlog
    | some placed =>
      intro e he
      rcases List.mem_append.mp he with he | he
      · exact hlog e he
      · rw [List.mem_singleton.mp he]
        exact inWords_of_placed? hcall (hwords call (by simp))

-- ---------------------------------------------------------------------------
-- Answers
-- ---------------------------------------------------------------------------

end Handles

/-- The node answers as what was asked of it tells. -/
structure Answers (p : Profile) (rs : List Request) : Prop where
  once : p.childNames.Nodup
  /-- The children are those that were requested, in the order of their first requests. -/
  children : p.childNames = (childrenAsked rs).eraseDups
  found : ∀ name, (p.child? name).isSome ↔ Request.child name ∈ rs
  single : p.counters.keys.Nodup
  counters : ∀ name, name ∈ p.counters.keys ↔ counterAsked rs name ≠ []
  counts : ∀ name c, p.counter? name = some c → Counts (counterAsked rs name) c

theorem Records.answers (h : Records p rs) (hp : p.Tidy) (hwords : ∀ r ∈ rs, r.InWords) :
    Answers p rs := by
  constructor
  case once => exact hp.nodup
  case children => exact h.children
  case found =>
    intro name
    rw [← h.mem_childNames, ← not_iff_not, Option.not_isSome_iff_eq_none, child?_eq_none_iff]
  case single => exact hp.counters
  case counters => exact fun name => Assoc.mem_keys_iff.trans h.isSome_counter?
  case counts =>
    intro name c hc
    rw [h.counter] at hc
    refine counts_of_counter (h.opened name) (fun a ha => ?_) hc
    obtain ⟨r, hr, ha⟩ := List.mem_flatMap.mp ha
    exact Handles.inWords_of_mem_asks (hwords r hr) ha

namespace Handles

/-- Each node answers as it was asked, and what was handed out shows nothing else. -/
structure Answered (m : Handles) : Prop where
  node : ∀ place p, m.tree.find? place = some p → Answers p (askedOf m.log place)
  /-- There are the nodes that were requested. -/
  made : ∀ place name, (m.tree.find? (place ++ [name])).isSome ↔ (place, Request.child name) ∈ m.log
  reached : ∀ k place, m.nodes[k]? = some place → ∃ p, m.node? k = some p ∧ m.tree.find? place = some p
  /-- A counter has the same value through each of its handles and by its name at each handle of its node. -/
  held : ∀ k place name, m.counters[k]? = some (place, name) → ∃ c, m.counter? k = some c ∧
    Counts (counterAsked (askedOf m.log place) name) c ∧
    ∀ j, m.nodes[j]? = some place → (m.node? j).bind (·.value? name) = some c.value

/-- Children and counters of a profile are what was asked of them, through whichever handles. -/
theorem answered_run (name : String) (calls : List HandleCall) (hwords : ∀ call ∈ calls, call.InWords) :
    (run name calls).Answered := by
  have h := kept_run name calls
  have hlog := inWords_run name hwords
  have hnode : ∀ place p, (run name calls).tree.find? place = some p →
      Answers p (askedOf (run name calls).log place) := by
    intro place p hp
    have hrecords := h.records place
    rw [nodeAt_of_find? hp] at hrecords
    exact hrecords.answers (h.proper place p hp) fun r hr => hlog _ (mem_askedOf.mp hr)
  constructor
  case node => exact hnode
  case made => exact fun place name => h.isSome_find?_concat
  case reached =>
    intro k place hk
    obtain ⟨p, hp⟩ := Option.isSome_iff_exists.mp (h.node place (List.mem_of_getElem? hk))
    exact ⟨p, by rw [node?, hk, Option.bind_some, hp], hp⟩
  case held =>
    intro k place counter hk
    obtain ⟨hfound, hasked⟩ := h.counter (place, counter) (List.mem_of_getElem? hk)
    obtain ⟨p, hp⟩ := Option.isSome_iff_exists.mp hfound
    have hp' := hnode place p hp
    have hkey := (hp'.counters counter).mpr hasked
    obtain ⟨c, hc⟩ := Option.isSome_iff_exists.mp (Assoc.mem_keys_iff.mp hkey)
    refine ⟨c, ?_, hp'.counts counter c hc, fun j hj => ?_⟩
    · rw [counter?, hk, Option.bind_some, hp, Option.bind_some]
      exact hc
    · rw [node?, hj, Option.bind_some, hp, Option.bind_some]
      exact congrArg (Option.map Counter.value) hc

/-- One counter of a child that was requested twice, through the handle of the node and through its own. -/
def sharing : List HandleCall :=
  [.child 0 "op", .getChild 0 "op", .addTo 1 "Rows" .count 3, .counter 2 "Rows" .bytes, .set 0 Word.largest,
    .addTo 2 "Rows" .nanoseconds 1]

theorem answered_run_sharing :
    HandleCall.set 0 Word.largest ∈ sharing ∧ (∀ call ∈ sharing, call.InWords) ∧
      (run "fragment" sharing).Answered :=
  ⟨by decide, by decide, answered_run "fragment" sharing (by decide)⟩

example : (run "fragment" sharing).counter? 0 = some { unit := .count, value := Word.smallest } := by
  decide

end Handles

end FragmentHost.Profile

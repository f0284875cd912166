import FragmentHost.Proofs.Distinct
import FragmentHost.Session.Names
import Mathlib.Data.List.Forall2

/-!
# Layers of options

Option managers are made one after the other: managers of nodes, on which options are set at any time,
and managers with a list of overrides above another one. Any number of managers may stand on the same
one. `History` keeps of such a run what a reader would: which lists a manager was made from, the topmost
first, and what was set on each node, in order. From the history alone `inForce` tells the option of a
name: the last of that name in the topmost list that has one, or else the last that was set on the node.

The main statement is `layered_run`: after every run each manager answers as its history tells,
however late its node was set; each of the four typed answers is the place of that very option, filled or
not; and the number of overrides is the number of names in the manager's own list.
-/

namespace FragmentHost

-- ---------------------------------------------------------------------------
-- Lists of options
-- ---------------------------------------------------------------------------

namespace PlanOption

/-- The last option of a name. -/
def lastNamed (options : List PlanOption) (name : String) : Option PlanOption :=
  options.reverse.find? (·.name == name)

/-- The option of a name in lists, the topmost first, above what was set on a node. -/
def inForce (lists : List (List PlanOption)) (sets : List PlanOption) (name : String) :
    Option PlanOption :=
  (lists.findSome? (lastNamed · name)).or (lastNamed sets name)

theorem lastNamed_cons (o : PlanOption) (options : List PlanOption) (name : String) :
    lastNamed (o :: options) name =
      (lastNamed options name).or (if o.name = name then some o else none) := by
  have hlast : [o].find? (·.name == name) = if o.name = name then some o else none := by
    by_cases h : o.name = name <;> simp [h]
  rw [lastNamed, List.reverse_cons, List.find?_append, hlast]
  rfl

theorem lastNamed_eq_some_iff {options : List PlanOption} {name : String} {o : PlanOption} :
    lastNamed options name = some o ↔ o.name = name ∧
      ∃ before after, options = before ++ o :: after ∧ ∀ p ∈ after, p.name ≠ name := by
  rw [lastNamed, List.find?_eq_some_iff_append]
  refine and_congr (by simp) ⟨?_, ?_⟩
  · rintro ⟨after, before, hsplit, hafter⟩
    refine ⟨before.reverse, after.reverse, ?_, ?_⟩
    · rw [← List.reverse_reverse options, hsplit]
      simp
    · simpa using hafter
  · rintro ⟨before, after, rfl, hafter⟩
    refine ⟨after.reverse, before.reverse, by simp, ?_⟩
    simpa using hafter

theorem lastNamed_eq_none_iff {options : List PlanOption} {name : String} :
    lastNamed options name = none ↔ ∀ o ∈ options, o.name ≠ name := by
  simp [lastNamed]

/-- Whatever lies below the topmost list that has the name is hidden by it. -/
theorem inForce_of_top {upper lower : List (List PlanOption)} {top sets : List PlanOption}
    {name : String} {o : PlanOption} (hupper : ∀ list ∈ upper, ∀ p ∈ list, p.name ≠ name)
    (htop : lastNamed top name = some o) : inForce (upper ++ top :: lower) sets name = some o := by
  have hnone : upper.findSome? (lastNamed · name) = none :=
    List.findSome?_eq_none_iff.2 fun list hlist => lastNamed_eq_none_iff.2 (hupper list hlist)
  rw [inForce, List.findSome?_append, hnone, List.findSome?_cons, htop]
  rfl

/-- A name that is in no list is looked up on the node. -/
theorem inForce_of_forall_ne {lists : List (List PlanOption)} {sets : List PlanOption} {name : String}
    (h : ∀ list ∈ lists, ∀ p ∈ list, p.name ≠ name) :
    inForce lists sets name = lastNamed sets name := by
  have hnone : lists.findSome? (lastNamed · name) = none :=
    List.findSome?_eq_none_iff.2 fun list hlist => lastNamed_eq_none_iff.2 (h list hlist)
  rw [inForce, hnone, Option.none_or]

end PlanOption

-- ---------------------------------------------------------------------------
-- Dictionaries of options
-- ---------------------------------------------------------------------------

namespace Overrides

open PlanOption (lastNamed lastNamed_cons inForce)

/-- Options put one after the other into a dictionary: the last of a name counts, and of names that do
not occur what was there before. -/
theorem get?_foldl_put {d : Overrides} (hd : Dictionary.Ordered d) (options : List PlanOption)
    (name : String) :
    Dictionary.get? (options.foldl (fun d o => Dictionary.put d o.name o) d) name =
      (lastNamed options name).or (Dictionary.get? d name) := by
  induction options generalizing d with
  | nil => rfl
  | cons o options ih =>
    have hordered : Dictionary.Ordered (Dictionary.put d o.name o) := hd.alter _ _
    have hput : Dictionary.get? (Dictionary.put d o.name o) name =
        (if o.name = name then some o else none).or (Dictionary.get? d name) := by
      by_cases h : o.name = name
      · subst h
        rw [if_pos rfl]
        exact Dictionary.get?_alter_self hd _ _
      · rw [if_neg h]
        exact Dictionary.get?_alter_of_ne (Ne.symm h) _
    rw [List.foldl_cons, ih hordered, hput, lastNamed_cons, Option.or_assoc]

theorem get?_ofList (options : List PlanOption) (name : String) :
    Dictionary.get? (ofList options) name = lastNamed options name := by
  rw [ofList, get?_foldl_put List.Pairwise.nil, Dictionary.get?_nil, Option.or_none]

theorem ofList_append_singleton (options : List PlanOption) (o : PlanOption) :
    ofList (options ++ [o]) = NodeOptions.set (ofList options) o := by
  rw [ofList, List.foldl_append]
  rfl

theorem ordered_ofList (options : List PlanOption) : Dictionary.Ordered (ofList options) := by
  induction options using List.reverseRecOn with
  | nil => exact List.Pairwise.nil
  | append_singleton options o ih =>
    rw [ofList_append_singleton]
    exact ih.alter _ _

/-- The names of the options are the keys. -/
theorem mem_keys_ofList {options : List PlanOption} {name : String} :
    name ∈ Dictionary.keys (ofList options) ↔ name ∈ options.map (·.name) := by
  rw [Dictionary.mem_keys_iff, get?_ofList, lastNamed, List.find?_isSome, List.mem_map]
  simp

/-- There are as many overrides as different names. -/
theorem length_ofList (options : List PlanOption) :
    (ofList options).length = (options.map (·.name)).toFinset.card :=
  (ordered_ofList options).length_eq_card fun _ => mem_keys_ofList

/-- A stack of such dictionaries over the options that were set on its node. -/
theorem find?_ofList (lists : List (List PlanOption)) (sets : List PlanOption) (base : Nat)
    (name : String) :
    OptionStack.find? ⟨lists.map ofList, base⟩ (ofList sets) name = inForce lists sets name := by
  have hlayers : (lists.map ofList).findSome? (Dictionary.get? · name) =
      lists.findSome? (lastNamed · name) := by
    rw [List.findSome?_map]
    exact congrArg (lists.findSome? ·) (funext fun list => get?_ofList list name)
  rw [OptionStack.find?, hlayers, get?_ofList, inForce]
  cases lists.findSome? (lastNamed · name) <;> rfl

end Overrides

-- ---------------------------------------------------------------------------
-- Runs
-- ---------------------------------------------------------------------------

/-- A call on option managers, which have numbers in the order of their making. -/
inductive ManagerCall where
  /-- The manager of a node, without options. -/
  | node
  /-- A manager with the overrides of a list above another one. -/
  | overrides (below : Nat) (options : List PlanOption)
  /-- Sets an option of a node; other managers cannot be set. -/
  | set (manager : Nat) (option : PlanOption)

/-- The overrides of a manager's own layer; the manager of a node has no such layer. -/
def ManagerName.overrideCount : ManagerName → Option Nat
  | node _ => none
  | overrides stack => stack.layers.head?.map List.length

/-- A host with the option managers that were made on it. -/
structure Managers where
  host : Host
  names : List ManagerName := []

namespace Managers

/-- Carries out a call. -/
def act (m : Managers) : ManagerCall → Managers
  | .node =>
    let (h, number) := m.host.addOptions
    { host := h, names := m.names ++ [.node number] }
  | .overrides below options =>
    match m.names[below]? with
    | some manager =>
      { m with names := m.names ++ [.overrides (manager.stack.push (Overrides.ofList options))] }
    | none => m
  | .set manager option =>
    match m.names[manager]? with
    | some (.node number) => { m with host := m.host.setOption number option }
    | _ => m

/-- Carries out calls on a host without managers of the run. -/
def run (start : Host) (calls : List ManagerCall) : Managers := calls.foldl act { host := start }

/-- The look-up of a name through a manager. -/
def lookup (m : Managers) (manager : ManagerName) (name : String) : OptionLookup :=
  ⟨m.host.option? manager.stack name⟩

end Managers

/-- What a manager was made from: its lists, the topmost first, above the node with a number. -/
structure ManagerPast where
  lists : List (List PlanOption) := []
  node : Nat

/-- What was done with managers. -/
structure History where
  managers : List ManagerPast := []
  /-- For each node, what was set on it, in order. -/
  sets : List (List PlanOption) := []

namespace History

/-- Notes a call. -/
def act (past : History) : ManagerCall → History
  | .node => { managers := past.managers ++ [{ node := past.sets.length }], sets := past.sets ++ [[]] }
  | .overrides below options =>
    match past.managers[below]? with
    | some p => { past with managers := past.managers ++ [{ p with lists := options :: p.lists }] }
    | none => past
  | .set manager option =>
    match past.managers[manager]? with
    | some ⟨[], node⟩ => { past with sets := past.sets.modify node (· ++ [option]) }
    | _ => past

/-- The history of a run. -/
def run (calls : List ManagerCall) : History := calls.foldl act {}

end History

/-- The name of a manager with a history, where `first` options of nodes were there before the run. -/
def ManagerPast.name (first : Nat) : ManagerPast → ManagerName
  | ⟨[], node⟩ => .node (first + node)
  | ⟨top :: lists, node⟩ =>
    .overrides { layers := (top :: lists).map Overrides.ofList, base := first + node }

theorem ManagerPast.stack_name (first : Nat) (p : ManagerPast) :
    (p.name first).stack = { layers := p.lists.map Overrides.ofList, base := first + p.node } := by
  obtain ⟨_ | ⟨top, lists⟩, node⟩ := p <;> rfl

/-- The state `m` of a run on a host with `first` options of nodes has the history `past`. -/
structure Recalls (first : Nat) (m : Managers) (past : History) : Prop where
  names : m.names = past.managers.map (ManagerPast.name first)
  length : m.host.options.length = first + past.sets.length
  options : ∀ node, m.host.options[first + node]? = past.sets[node]?.map Overrides.ofList
  within : ∀ p ∈ past.managers, p.node < past.sets.length

namespace Recalls

variable {first : Nat} {m : Managers} {past : History}

theorem getElem?_names (h : Recalls first m past) (k : Nat) :
    m.names[k]? = past.managers[k]?.map (ManagerPast.name first) := by
  rw [h.names, List.getElem?_map]

theorem act_node (h : Recalls first m past) : Recalls first (m.act .node) (past.act .node) := by
  constructor
  case names =>
    show m.names ++ [.node m.host.options.length] = _
    rw [h.names, h.length, History.act, List.map_append]
    rfl
  case length =>
    show (m.host.options ++ [[]]).length = first + (past.sets ++ [[]]).length
    rw [List.length_append, List.length_append, h.length]
    rfl
  case options =>
    intro node
    show (m.host.options ++ [[]])[first + node]? = (past.sets ++ [[]])[node]?.map Overrides.ofList
    rcases lt_trichotomy node past.sets.length with hlt | rfl | hgt
    · rw [List.getElem?_append_left (by have := h.length; omega), List.getElem?_append_left hlt]
      exact h.options node
    · rw [← h.length, List.getElem?_concat_length, List.getElem?_concat_length]
      rfl
    · rw [List.getElem?_eq_none, List.getElem?_eq_none]
      · rfl
      · rw [List.length_append, List.length_singleton]
        omega
      · rw [List.length_append, List.length_singleton, h.length]
        omega
  case within =>
    intro p hp
    show p.node < (past.sets ++ [[]]).length
    rw [List.length_append, List.length_singleton]
    rcases List.mem_append.1 hp with hp | hp
    · have := h.within p hp
      omega
    · rw [List.mem_singleton.1 hp]
      exact Nat.lt_succ_self _

theorem act_overrides (h : Recalls first m past) (below : Nat) (options : List PlanOption) :
    Recalls first (m.act (.overrides below options)) (past.act (.overrides below options)) := by
  rw [Managers.act, History.act, h.getElem?_names]
  cases hbelow : past.managers[below]? with
  | none => exact h
  | some p =>
    have hp : p ∈ past.managers := List.mem_of_getElem? hbelow
    constructor
    case names =>
      show m.names ++ [ManagerName.overrides ((p.name first).stack.push (Overrides.ofList options))] = _
      rw [h.names, ManagerPast.stack_name, List.map_append]
      rfl
    case length => exact h.length
    case options => exact h.options
    case within =>
      intro q hq
      rcases List.mem_append.1 hq with hq | hq
      · exact h.within q hq
      · rw [List.mem_singleton.1 hq]
        exact h.within p hp

theorem act_set (h : Recalls first m past) (manager : Nat) (option : PlanOption) :
    Recalls first (m.act (.set manager option)) (past.act (.set manager option)) := by
  rw [Managers.act, History.act, h.getElem?_names]
  rcases hmanager : past.managers[manager]? with _ | ⟨_ | ⟨top, lists⟩, node⟩
  · exact h
  · constructor
    case names => exact h.names
    case length =>
      show (m.host.options.modify _ _).length = first + (past.sets.modify _ _).length
      rw [List.length_modify, List.length_modify, h.length]
    case options =>
      intro other
      show (m.host.options.modify (first + node) (NodeOptions.set · option))[first + other]? =
        (past.sets.modify node (· ++ [option]))[other]?.map Overrides.ofList
      rw [List.getElem?_modify, List.getElem?_modify, h.options]
      cases past.sets[other]? with
      | none => rfl
      | some sets =>
        by_cases hnode : node = other
        · simp [hnode, Overrides.ofList_append_singleton]
        · simp [hnode]
    case within =>
      intro p hp
      show p.node < (past.sets.modify _ _).length
      rw [List.length_modify]
      exact h.within p hp
  · exact h

/-- Every call is noted as it was carried out. -/
theorem act (h : Recalls first m past) (call : ManagerCall) :
    Recalls first (m.act call) (past.act call) := by
  cases call with
  | node => exact h.act_node
  | overrides below options => exact h.act_overrides below options
  | set manager option => exact h.act_set manager option

theorem foldl_act (h : Recalls first m past) (calls : List ManagerCall) :
    Recalls first (calls.foldl Managers.act m) (calls.foldl History.act past) := by
  induction calls generalizing m past with
  | nil => exact h
  | cons call calls ih => exact ih (h.act call)

end Recalls

/-- A run and its history agree. -/
theorem recalls_run (start : Host) (calls : List ManagerCall) :
    Recalls start.options.length (Managers.run start calls) (History.run calls) := by
  have hstart : Recalls start.options.length { host := start } {} := by
    constructor
    case names => rfl
    case length => rfl
    case options =>
      intro node
      exact List.getElem?_eq_none (Nat.le_add_right _ _)
    case within =>
      intro p hp
      cases hp
  exact hstart.foldl_act calls

-- ---------------------------------------------------------------------------
-- Answers
-- ---------------------------------------------------------------------------

/-- In state `m` a manager answers as one made from `lists`, the topmost first, above a node on which
`sets` were set. -/
structure Layered (m : Managers) (manager : ManagerName) (lists : List (List PlanOption))
    (sets : List PlanOption) : Prop where
  option : ∀ name, (m.lookup manager name).option = PlanOption.inForce lists sets name
  /-- The last option of a name in the topmost list that has one hides all that is below. -/
  topmost : ∀ upper before o after lower, lists = upper ++ (before ++ o :: after) :: lower →
    (∀ list ∈ upper, ∀ p ∈ list, p.name ≠ o.name) → (∀ p ∈ after, p.name ≠ o.name) →
    (m.lookup manager o.name).option = some o
  /-- A name that no list has is answered with what was set last. -/
  latest : ∀ before o after, sets = before ++ o :: after →
    (∀ list ∈ lists, ∀ p ∈ list, p.name ≠ o.name) → (∀ p ∈ after, p.name ≠ o.name) →
    (m.lookup manager o.name).option = some o
  absent : ∀ name, (∀ list ∈ lists, ∀ p ∈ list, p.name ≠ name) → (∀ p ∈ sets, p.name ≠ name) →
    (m.lookup manager name).option = none
  bool : ∀ name, (m.lookup manager name).bool = (PlanOption.inForce lists sets name).bind (·.bool)
  long : ∀ name, (m.lookup manager name).long = (PlanOption.inForce lists sets name).bind (·.long)
  double : ∀ name,
    (m.lookup manager name).double = (PlanOption.inForce lists sets name).bind (·.double)
  string : ∀ name,
    (m.lookup manager name).string = (PlanOption.inForce lists sets name).bind (·.string)
  count : manager.overrideCount =
    lists.head?.map fun list => (list.map (·.name)).toFinset.card

theorem Recalls.layered {first : Nat} {m : Managers} {past : History} (h : Recalls first m past)
    {p : ManagerPast} (hp : p ∈ past.managers) {sets : List PlanOption}
    (hsets : past.sets[p.node]? = some sets) : Layered m (p.name first) p.lists sets := by
  have hoption : ∀ name, m.lookup (p.name first) name = ⟨PlanOption.inForce p.lists sets name⟩ := by
    intro name
    rw [Managers.lookup, Host.option?, ManagerPast.stack_name, h.options, hsets]
    exact congrArg OptionLookup.mk (Overrides.find?_ofList p.lists sets _ name)
  constructor
  case option => intro name; rw [hoption]
  case topmost =>
    intro upper before o after lower hlists hupper hafter
    have hlast : PlanOption.lastNamed (before ++ o :: after) o.name = some o :=
      PlanOption.lastNamed_eq_some_iff.2 ⟨rfl, before, after, rfl, hafter⟩
    rw [hoption, hlists]
    exact PlanOption.inForce_of_top hupper hlast
  case latest =>
    intro before o after hsets' hlists hafter
    rw [hoption]
    exact (PlanOption.inForce_of_forall_ne hlists).trans
      (PlanOption.lastNamed_eq_some_iff.2 ⟨rfl, before, after, hsets', hafter⟩)
  case absent =>
    intro name hlists hnone
    rw [hoption]
    exact (PlanOption.inForce_of_forall_ne hlists).trans (PlanOption.lastNamed_eq_none_iff.2 hnone)
  case bool => intro name; rw [hoption]; rfl
  case long => intro name; rw [hoption]; rfl
  case double => intro name; rw [hoption]; rfl
  case string => intro name; rw [hoption]; rfl
  case count =>
    obtain ⟨_ | ⟨top, lists⟩, node⟩ := p
    · rfl
    · exact congrArg some (Overrides.length_ofList top)

/-- After every run each manager answers as its history tells: with the last option of a name in the
topmost list that has it, or else with what was set last on its node. -/
theorem Managers.layered_run (start : Host) (calls : List ManagerCall) :
    List.Forall₂
      (fun manager p => ∃ sets, (History.run calls).sets[p.node]? = some sets ∧
        Layered (Managers.run start calls) manager p.lists sets)
      (Managers.run start calls).names (History.run calls).managers := by
  have hrecalls := recalls_run start calls
  rw [hrecalls.names, List.forall₂_map_left_iff, List.forall₂_same]
  intro p hp
  have hsets := List.getElem?_eq_getElem (hrecalls.within p hp)
  exact ⟨_, hsets, hrecalls.layered hp hsets⟩

/-- A switch above an integer of the same name hides it, though the integer is set afterwards. -/
example :
    let m := Managers.run {} [.node, .overrides 0 [.ofBool "width" true .query],
      .set 0 (.ofLong "width" 4 .system)]
    (m.names.map fun manager => (m.lookup manager "width").long) = [some 4, none] := by
  rfl

end FragmentHost

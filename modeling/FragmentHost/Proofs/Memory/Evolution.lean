import FragmentHost.Memory.Forest
import Mathlib.Algebra.Order.Ring.Int
import Mathlib.Logic.Relation
import Mathlib.Tactic.ByContra

/-!
# What can become of an allocator

A forest changes only through its allocators, and each allocator only in six ways: it grants bytes that
it did not refuse, it takes bytes back while it is open, it is closed, it is marked as dropped once it is
closed, its limit is set, or its record of children is rewritten. `Allocator.Becomes` lists them, and
`Forest.Evolves` says that a forest came from another one by nothing but such changes and new allocators.

Every operation of a forest has one lemma here that says so (`evolves_charge`, `evolves_discharge`,
`evolves_shut`, `evolves_newChild`, …). What no change of an allocator can do is then excluded for whole
forests at once: names, reservations and ceilings stay (`Evolves.fixed`), closed allocators stay closed
(`Evolves.closed`), and bytes in use never fall below zero or pass the ceiling (`Sound.evolves`).
-/

namespace FragmentHost

namespace Allocator

-- ---------------------------------------------------------------------------
-- One allocator
-- ---------------------------------------------------------------------------

/-- One change of an allocator in its place. -/
inductive Becomes : Allocator → Allocator → Prop where
  | grant {a : Allocator} {bytes : Int} {limited : Bool} (hpos : 0 < bytes)
      (hok : a.refusal? bytes limited = none) : Becomes a (a.grant bytes)
  | giveBack {a : Allocator} {bytes : Int} (hpos : 0 < bytes) (hopen : a.closed = false) :
      Becomes a (a.giveBack bytes)
  | shut {a : Allocator} (hopen : a.closed = false) : Becomes a a.shut
  | drop {a : Allocator} (hclosed : a.closed = true) : Becomes a { a with dropped := true }
  | limit (a : Allocator) (limit : Int) : Becomes a { a with limit := limit }
  | record (a : Allocator) (entries : List Nat) : Becomes a { a with entries := entries }

/-- Any number of changes. -/
abbrev Evolves : Allocator → Allocator → Prop := Relation.ReflTransGen Becomes

/-- What holds of an allocator after each change holds after any number of them. -/
theorem Evolves.keeps {I : Allocator → Prop} {a b : Allocator} (h : a.Evolves b)
    (hstep : ∀ a b, Becomes a b → I a → I b) (ha : I a) : I b := by
  induction h with
  | refl => exact ha
  | tail _ hbc ih => exact hstep _ _ hbc ih

/-- What an allocator was made with stays. -/
theorem Evolves.fixed {a b : Allocator} (h : a.Evolves b) :
    b.label = a.label ∧ b.above = a.above ∧ b.initial = a.initial ∧ b.max = a.max ∧
      b.obeysLimits = a.obeysLimits := by
  refine h.keeps (I := fun b => b.label = a.label ∧ b.above = a.above ∧ b.initial = a.initial ∧
    b.max = a.max ∧ b.obeysLimits = a.obeysLimits) ?_ ⟨rfl, rfl, rfl, rfl, rfl⟩
  intro b c hbc hb
  cases hbc <;> exact hb

theorem Evolves.above_eq {a b : Allocator} (h : a.Evolves b) : b.above = a.above := h.fixed.2.1

/-- A closed allocator stays closed. -/
theorem Evolves.closed {a b : Allocator} (h : a.Evolves b) (ha : a.closed = true) :
    b.closed = true := by
  refine h.keeps (I := fun b => b.closed = true) (fun b c hbc hb => ?_) ha
  cases hbc with
  | shut => rfl
  | _ => exact hb

theorem Evolves.open_before {a b : Allocator} (h : a.Evolves b) (hb : b.closed = false) :
    a.closed = false := by
  by_contra ha
  rw [h.closed (by simpa using ha)] at hb
  simp at hb

/-- What holds of the numbers of an allocator at any time. -/
structure Sound (a : Allocator) : Prop where
  initial_nonneg : 0 ≤ a.initial
  current_nonneg : 0 ≤ a.current
  current_le : a.current ≤ Word.largest
  current_le_max : 0 ≤ a.max → a.current ≤ a.max
  current_of_closed : a.closed = true → a.current = 0
  closed_of_dropped : a.dropped = true → a.closed = true

theorem usageAfter_eq {a : Allocator} (h : a.Sound) {bytes : Int} (hpos : 0 ≤ bytes) :
    a.usageAfter bytes = min Word.largest (a.current + bytes) := by
  have hc := h.current_nonneg
  simp only [usageAfter, Word.saturatingAdd, Word.smallest, Word.largest]
  omega

/-- A grant never lowers what is in use. -/
theorem le_usageAfter {a : Allocator} (h : a.Sound) {bytes : Int} (hpos : 0 ≤ bytes) :
    a.current ≤ a.usageAfter bytes := by
  have hle := h.current_le
  rw [usageAfter_eq h hpos]
  omega

theorem demand_nonneg {a : Allocator} (h : a.Sound) {bytes : Int} (hpos : 0 ≤ bytes) :
    0 ≤ a.demand bytes := by
  have := a.excess_mono (le_usageAfter h hpos)
  unfold demand
  omega

theorem relief_nonneg (a : Allocator) {bytes : Int} (hc : 0 ≤ a.current) (hpos : 0 ≤ bytes) :
    0 ≤ a.relief bytes := by
  have : a.usageWithout bytes ≤ a.current := by
    unfold usageWithout
    omega
  have := a.excess_mono this
  unfold relief
  omega

/-- An allocator that does not refuse is open and keeps its ceiling. -/
theorem of_refusal?_eq_none {a : Allocator} {bytes : Int} {limited : Bool}
    (h : a.refusal? bytes limited = none) :
    a.closed = false ∧ (0 ≤ a.max → a.usageAfter bytes ≤ a.max) := by
  unfold refusal? at h
  split at h
  · simp at h
  · next hopen =>
    refine ⟨by simpa using hopen, fun hmax => ?_⟩
    split at h
    · simp at h
    · next hfit => exact not_lt.mp fun hlt => hfit ⟨hmax, hlt⟩

theorem Sound.becomes {a b : Allocator} (ha : a.Sound) (h : Becomes a b) : b.Sound := by
  cases h with
  | @grant bytes limited hpos hok =>
    -- the check that did not refuse is what keeps the ceiling
    obtain ⟨hopen, hmax⟩ := of_refusal?_eq_none hok
    have hle := le_usageAfter ha (Int.le_of_lt hpos)
    have hc := ha.current_nonneg
    refine ⟨ha.initial_nonneg, ?_, ?_, hmax, ?_, ha.closed_of_dropped⟩
    · show 0 ≤ a.usageAfter bytes
      omega
    · show a.usageAfter bytes ≤ Word.largest
      rw [usageAfter_eq ha (Int.le_of_lt hpos)]
      omega
    · intro hclosed
      exact absurd (hopen.symm.trans hclosed) (by simp)
  | @giveBack bytes hpos hopen =>
    have hc := ha.current_nonneg
    have hle := ha.current_le
    -- a return beyond what is in use is cut off at zero
    have hwithout : 0 ≤ a.usageWithout bytes ∧ a.usageWithout bytes ≤ a.current := by
      unfold usageWithout
      omega
    refine ⟨ha.initial_nonneg, hwithout.1, hwithout.2.trans hle, fun hmax => ?_, ?_,
      ha.closed_of_dropped⟩
    · exact hwithout.2.trans (ha.current_le_max hmax)
    · intro hclosed
      exact absurd (hopen.symm.trans hclosed) (by simp)
  | shut hopen =>
    refine ⟨ha.initial_nonneg, le_rfl, ?_, fun hmax => hmax, fun _ => rfl, fun _ => rfl⟩
    show (0 : Int) ≤ Word.largest
    decide
  | drop hclosed =>
    exact ⟨ha.initial_nonneg, ha.current_nonneg, ha.current_le, ha.current_le_max,
      ha.current_of_closed, fun _ => hclosed⟩
  | limit | record =>
    exact ⟨ha.initial_nonneg, ha.current_nonneg, ha.current_le, ha.current_le_max,
      ha.current_of_closed, ha.closed_of_dropped⟩

theorem Sound.evolves {a b : Allocator} (ha : a.Sound) (h : a.Evolves b) : b.Sound :=
  h.keeps (fun _ _ hbc hb => hb.becomes hbc) ha

/-- An allocator as it is made: nothing is in use, and its reservation is one that can be asked for. -/
structure IsNew (a : Allocator) : Prop where
  initial_nonneg : 0 ≤ a.initial
  unused : a.current = 0 ∧ a.peak = 0 ∧ a.allocated = 0 ∧ a.deallocated = 0
  live : a.closed = false ∧ a.dropped = false
  unlimited : a.limit = -1 ∧ a.entries = []

theorem IsNew.sound {a : Allocator} (h : a.IsNew) : a.Sound := by
  obtain ⟨hi, ⟨hc, -⟩, ⟨hclosed, hdropped⟩, -⟩ := h
  refine ⟨hi, hc.ge, ?_, fun hmax => hc.trans_le hmax, fun _ => hc, ?_⟩
  · rw [hc]
    decide
  · rw [hdropped]
    simp

end Allocator

namespace Forest

-- ---------------------------------------------------------------------------
-- Places
-- ---------------------------------------------------------------------------

theorem get?_modify (f : Forest) (i j : Nat) (change : Allocator → Allocator) :
    (f.modify i change).get? j = if i = j then (f.get? j).map change else f.get? j := by
  by_cases h : i = j
  · subst h
    simp
  · rw [if_neg h, get?_modify_of_ne f h]

@[simp] theorem length_modify (f : Forest) (i : Nat) (change : Allocator → Allocator) :
    (f.modify i change).nodes.length = f.nodes.length := by
  simp [modify]

theorem lt_length_of_get? {f : Forest} {i : Nat} {a : Allocator} (h : f.get? i = some a) :
    i < f.nodes.length :=
  (List.getElem?_eq_some_iff.mp h).1

theorem get?_eq_none_iff {f : Forest} {i : Nat} : f.get? i = none ↔ f.nodes.length ≤ i :=
  List.getElem?_eq_none_iff

theorem exists_get?_of_lt {f : Forest} {i : Nat} (h : i < f.nodes.length) :
    ∃ a, f.get? i = some a :=
  ⟨f.nodes[i], List.getElem?_eq_getElem h⟩

theorem modify_of_none {f : Forest} {i : Nat} (h : f.get? i = none)
    (change : Allocator → Allocator) : f.modify i change = f := by
  rw [get?_eq_none_iff] at h
  rw [modify, List.modify_eq_self h]

/-- A change of an allocator that is there only has to be right for the allocator as it is. -/
theorem modify_congr {f : Forest} {i : Nat} {a : Allocator} (ha : f.get? i = some a)
    {change other : Allocator → Allocator} (hsame : change a = other a) :
    f.modify i change = f.modify i other := by
  have hnodes : f.nodes.modify i change = f.nodes.modify i other := by
    refine List.ext_getElem? fun j => ?_
    rw [List.getElem?_modify, List.getElem?_modify]
    by_cases hij : i = j
    · subst hij
      rw [show f.nodes[i]? = some a from ha]
      simp [hsame]
    · simp [hij]
  rw [modify, hnodes, modify]

theorem modify_modify (f : Forest) (i : Nat) (first second : Allocator → Allocator) :
    (f.modify i first).modify i second = f.modify i (second ∘ first) := by
  simp only [modify, List.modify_modify_eq]

theorem modify_comm (f : Forest) {i j : Nat} (h : i ≠ j) (first second : Allocator → Allocator) :
    (f.modify i first).modify j second = (f.modify j second).modify i first := by
  simp only [modify, List.modify_modify_ne _ _ _ h]

theorem get?_add (f : Forest) (a : Allocator) (j : Nat) :
    (f.add a).1.get? j = if j = f.nodes.length then some a else f.get? j := by
  unfold add get?
  -- before the new place, at it, and past it
  rcases Nat.lt_trichotomy j f.nodes.length with h | rfl | h
  · rw [if_neg (by omega), List.getElem?_append_left h]
  · simp
  · rw [if_neg (by omega), List.getElem?_eq_none (by simp; omega), List.getElem?_eq_none (by omega)]

/-- What a change leaves as it is at every allocator is the same in the whole forest. -/
theorem map_get?_modify {α : Type} (f : Forest) (i : Nat) {change : Allocator → Allocator}
    {part : Allocator → α} (h : ∀ a, part (change a) = part a) (j : Nat) :
    ((f.modify i change).get? j).map part = (f.get? j).map part := by
  rw [get?_modify]
  split
  · cases f.get? j with
    | none => rfl
    | some a => exact congrArg some (h a)
  · rfl

theorem path_of_get? {f : Forest} {i : Nat} {a : Allocator} (ha : f.get? i = some a) :
    f.path i = i :: a.above := by
  rw [path, ha]

/-- A path as the allocators have it: what follows an allocator is what it has above it, and was made
before it. -/
def Climbs (f : Forest) : List Nat → Prop
  | [] => True
  | i :: rest => (∃ a, f.get? i = some a ∧ a.above = rest) ∧ (∀ j ∈ rest, j < i) ∧ f.Climbs rest

/-- Everything above an allocator is in the forest and was made before it. -/
def Linked (f : Forest) : Prop := ∀ i a, f.get? i = some a → f.Climbs (i :: a.above)

/-- Every allocator of the forest has sound numbers. -/
def Sound (f : Forest) : Prop := ∀ i a, f.get? i = some a → a.Sound

theorem Climbs.not_mem {f : Forest} {i : Nat} {rest : List Nat} (h : f.Climbs (i :: rest)) :
    i ∉ rest :=
  fun hi => Nat.lt_irrefl i (h.2.1 i hi)

/-- What was made later is not on the path. -/
theorem Climbs.not_mem_of_lt {f : Forest} {i j : Nat} {rest : List Nat} (h : f.Climbs (i :: rest))
    (hij : i < j) : j ∉ i :: rest := by
  intro hj
  rcases List.mem_cons.mp hj with rfl | hj
  · omega
  · have := h.2.1 j hj
    omega

theorem Climbs.nodup {f : Forest} : ∀ {path : List Nat}, f.Climbs path → path.Nodup := by
  intro path
  induction path with
  | nil => exact fun _ => List.nodup_nil
  | cons i rest ih => exact fun h => List.nodup_cons.mpr ⟨h.not_mem, ih h.2.2⟩

/-- What a path goes through is in the forest. -/
theorem Climbs.lt_length {f : Forest} : ∀ {path : List Nat}, f.Climbs path → ∀ {j : Nat}, j ∈ path →
    j < f.nodes.length := by
  intro path
  induction path with
  | nil => simp
  | cons i rest ih =>
    rintro ⟨⟨a, ha, -⟩, -, hrest⟩ j hj
    rcases List.mem_cons.mp hj with rfl | hj
    · exact lt_length_of_get? ha
    · exact ih hrest hj

theorem Linked.climbs_above {f : Forest} (hf : f.Linked) {i : Nat} {a : Allocator}
    (ha : f.get? i = some a) : f.Climbs a.above :=
  (hf i a ha).2.2

theorem Linked.climbs_path {f : Forest} (hf : f.Linked) (i : Nat) : f.Climbs (f.path i) := by
  unfold path
  cases ha : f.get? i with
  | none => trivial
  | some a => exact hf i a ha

-- ---------------------------------------------------------------------------
-- Requests and returns, one allocator at a time
-- ---------------------------------------------------------------------------

/-- A granted request was not refused here, its demand was granted above, and the grant was then
written. -/
theorem charge_cons_ok {f g : Forest} {i : Nat} {rest : List Nat} {bytes : Int} {limited : Bool}
    {a : Allocator} (hpos : 0 < bytes) (ha : f.get? i = some a)
    (h : f.charge (i :: rest) bytes limited = .ok g) :
    a.refusal? bytes limited = none ∧
      ∃ g', f.charge rest (a.demand bytes) (limited && a.obeysLimits) = .ok g' ∧
        g = g'.modify i (·.grant bytes) := by
  rw [charge, if_neg (by omega), ha] at h
  dsimp only at h
  cases hr : a.refusal? bytes limited with
  | some refusal => simp [hr] at h
  | none =>
    refine ⟨rfl, ?_⟩
    rw [hr] at h
    cases hg : f.charge rest (a.demand bytes) (limited && a.obeysLimits) with
    | error refusal => simp [hg] at h
    | ok g' =>
      rw [hg] at h
      exact ⟨g', rfl, (Except.ok.inj h).symm⟩

theorem get?_charge_of_not_mem {f : Forest} {i : Nat} :
    ∀ {path : List Nat} {bytes : Int} {limited : Bool} {g : Forest}, i ∉ path →
      f.charge path bytes limited = .ok g → g.get? i = f.get? i := by
  intro path
  induction path with
  | nil =>
    intro bytes limited g _ h
    rw [charge, Except.ok.injEq] at h
    rw [h]
  | cons j rest ih =>
    intro bytes limited g hi h
    by_cases hpos : bytes ≤ 0
    · rw [charge_of_nonpos f _ hpos, Except.ok.injEq] at h
      rw [h]
    · cases ha : f.get? j with
      | none =>
        rw [charge, if_neg hpos, ha, Except.ok.injEq] at h
        rw [h]
      | some a =>
        obtain ⟨-, g', hg', rfl⟩ := charge_cons_ok (by omega) ha h
        rw [List.mem_cons, not_or] at hi
        rw [get?_modify_of_ne _ (Ne.symm hi.1), ih hi.2 hg']

/-- Induction along a granted request. What a request does is settled above an allocator before the
allocator itself grants. -/
theorem charge_induction {f : Forest} {motive : List Nat → Int → Bool → Forest → Prop}
    (idle : ∀ path bytes limited, bytes ≤ 0 ∨ path = [] → motive path bytes limited f)
    (step : ∀ i rest bytes limited a g, 0 < bytes → f.Climbs (i :: rest) → f.get? i = some a →
      a.above = rest → g.get? i = some a → a.refusal? bytes limited = none →
      f.charge rest (a.demand bytes) (limited && a.obeysLimits) = .ok g →
      motive rest (a.demand bytes) (limited && a.obeysLimits) g →
      motive (i :: rest) bytes limited (g.modify i (·.grant bytes))) :
    ∀ {path : List Nat} {bytes : Int} {limited : Bool} {g : Forest}, f.Climbs path →
      f.charge path bytes limited = .ok g → motive path bytes limited g := by
  intro path
  induction path with
  | nil =>
    intro bytes limited g _ h
    rw [charge, Except.ok.injEq] at h
    exact h ▸ idle [] bytes limited (Or.inr rfl)
  | cons i rest ih =>
    intro bytes limited g hc h
    by_cases hpos : bytes ≤ 0
    · rw [charge_of_nonpos f _ hpos, Except.ok.injEq] at h
      exact h ▸ idle (i :: rest) bytes limited (Or.inl hpos)
    · obtain ⟨a, ha, habove⟩ := hc.1
      obtain ⟨hr, g', hg', rfl⟩ := charge_cons_ok (by omega) ha h
      -- nothing is met twice on the way up, so that `i` is still as it was
      refine step i rest bytes limited a g' (by omega) hc ha habove ?_ hr hg' (ih hc.2.2 hg')
      rw [get?_charge_of_not_mem hc.not_mem hg', ha]

/-- Induction along a return. An allocator takes its bytes back before those above it do. -/
theorem discharge_induction {motive : Forest → List Nat → Int → Forest → Prop}
    (idle : ∀ f path bytes, bytes ≤ 0 ∨ (∀ i, path.head? = some i → ∀ a, f.get? i = some a →
      a.closed = true) → motive f path bytes f)
    (step : ∀ f i rest bytes a, 0 < bytes → f.get? i = some a → a.closed = false →
      motive (f.modify i (·.giveBack bytes)) rest (a.relief bytes)
        ((f.modify i (·.giveBack bytes)).discharge rest (a.relief bytes)) →
      motive f (i :: rest) bytes
        ((f.modify i (·.giveBack bytes)).discharge rest (a.relief bytes))) :
    ∀ (path : List Nat) (f : Forest) (bytes : Int), motive f path bytes (f.discharge path bytes) := by
  intro path
  induction path with
  | nil => exact fun f bytes => idle f [] bytes (Or.inr (by simp))
  | cons i rest ih =>
    intro f bytes
    rw [discharge]
    by_cases hpos : bytes ≤ 0
    · rw [if_pos hpos]
      exact idle f _ bytes (Or.inl hpos)
    · rw [if_neg hpos]
      -- a return ends at an allocator that is closed or not there
      cases ha : f.get? i with
      | none => exact idle f _ bytes (Or.inr (by simp [ha]))
      | some a =>
        dsimp only
        by_cases hclosed : a.closed = true
        · rw [if_pos hclosed]
          exact idle f _ bytes (Or.inr (by simp [ha, hclosed]))
        · rw [if_neg hclosed]
          exact step f i rest bytes a (by omega) ha (by simpa using hclosed) (ih _ _)

theorem map_get?_charge {α : Type} {part : Allocator → α} (h : ∀ a bytes, part (a.grant bytes) = part a)
    {f g : Forest} {path : List Nat} {bytes : Int} {limited : Bool} (hc : f.Climbs path)
    (hg : f.charge path bytes limited = .ok g) (j : Nat) :
    (g.get? j).map part = (f.get? j).map part := by
  refine charge_induction (motive := fun _ _ _ g => (g.get? j).map part = (f.get? j).map part) ?_ ?_
    hc hg
  · exact fun _ _ _ _ => rfl
  · intro i rest bytes limited a g _ _ _ _ _ _ _ ih
    exact (map_get?_modify g i (fun a => h a bytes) j).trans ih

theorem map_get?_discharge {α : Type} {part : Allocator → α}
    (h : ∀ a bytes, part (a.giveBack bytes) = part a) (f : Forest) (path : List Nat) (bytes : Int)
    (j : Nat) : ((f.discharge path bytes).get? j).map part = (f.get? j).map part := by
  refine discharge_induction (motive := fun f _ _ g => (g.get? j).map part = (f.get? j).map part)
    ?_ ?_ path f bytes
  · exact fun _ _ _ _ => rfl
  · intro f i rest bytes a _ _ _ ih
    exact ih.trans (map_get?_modify f i (fun a => h a bytes) j)

-- ---------------------------------------------------------------------------
-- One forest from another
-- ---------------------------------------------------------------------------

/-- `g` came from `f` by changes of allocators and by new allocators. -/
structure Evolves (f g : Forest) : Prop where
  old : ∀ i a, f.get? i = some a → ∃ b, g.get? i = some b ∧ a.Evolves b
  new : ∀ i b, g.get? i = some b → f.get? i = none → ∃ a : Allocator, a.IsNew ∧ a.Evolves b

theorem Evolves.refl (f : Forest) : f.Evolves f :=
  ⟨fun _ a ha => ⟨a, ha, .refl⟩, fun i b hb hn => by rw [hb] at hn; simp at hn⟩

theorem Evolves.trans {f g k : Forest} (hfg : f.Evolves g) (hgk : g.Evolves k) : f.Evolves k := by
  constructor
  · intro i a ha
    obtain ⟨b, hb, hab⟩ := hfg.old i a ha
    obtain ⟨c, hc, hbc⟩ := hgk.old i b hb
    exact ⟨c, hc, hab.trans hbc⟩
  · intro i c hc hn
    -- new in the second step, or new in the first one and changed in the second
    cases hb : g.get? i with
    | none => exact hgk.new i c hc hb
    | some b =>
      obtain ⟨a, hnew, hab⟩ := hfg.new i b hb hn
      obtain ⟨c', hc', hbc⟩ := hgk.old i b hb
      rw [hc, Option.some.injEq] at hc'
      exact ⟨a, hnew, hab.trans (hc' ▸ hbc)⟩

theorem evolves_modify {f : Forest} {i : Nat} {change : Allocator → Allocator}
    (h : ∀ a, f.get? i = some a → Allocator.Becomes a (change a)) : f.Evolves (f.modify i change) := by
  constructor
  · intro j a ha
    by_cases hij : i = j
    · subst hij
      exact ⟨change a, by simp [ha], .single (h a ha)⟩
    · exact ⟨a, by rw [get?_modify_of_ne f hij, ha], .refl⟩
  · intro j b hb hn
    rw [get?_eq_none_iff] at hn
    have := lt_length_of_get? hb
    rw [length_modify] at this
    omega

theorem evolves_modify_of_get? {f : Forest} {i : Nat} {a : Allocator} (ha : f.get? i = some a)
    {change : Allocator → Allocator} (h : Allocator.Becomes a (change a)) :
    f.Evolves (f.modify i change) := by
  refine evolves_modify fun b hb => ?_
  rw [ha, Option.some.injEq] at hb
  exact hb ▸ h

theorem evolves_add (f : Forest) {a : Allocator} (h : a.IsNew) : f.Evolves (f.add a).1 := by
  constructor
  · intro i b hb
    have := lt_length_of_get? hb
    exact ⟨b, by rw [get?_add, if_neg (by omega), hb], .refl⟩
  · intro i b hb hn
    rw [get?_add] at hb
    split at hb
    · exact ⟨a, h, (Option.some.inj hb) ▸ .refl⟩
    · rw [hb] at hn
      simp at hn

theorem evolves_charge {f g : Forest} {path : List Nat} {bytes : Int} {limited : Bool}
    (hc : f.Climbs path) (h : f.charge path bytes limited = .ok g) : f.Evolves g := by
  refine charge_induction (motive := fun _ _ _ g => f.Evolves g) ?_ ?_ hc h
  · exact fun _ _ _ _ => .refl f
  · intro i rest bytes limited a g hpos _ _ _ hga hr _ ih
    exact ih.trans (evolves_modify_of_get? hga (.grant hpos hr))

theorem evolves_discharge (f : Forest) (path : List Nat) (bytes : Int) :
    f.Evolves (f.discharge path bytes) := by
  refine discharge_induction (motive := fun f _ _ g => f.Evolves g) ?_ ?_ path f bytes
  · exact fun f _ _ _ => .refl f
  · intro f i rest bytes a hpos ha hopen ih
    exact (evolves_modify_of_get? ha (.giveBack hpos hopen)).trans ih

theorem evolves_shut (f : Forest) (i : Nat) : f.Evolves (f.shut i).1 := by
  unfold shut
  cases ha : f.get? i with
  | none => exact .refl f
  | some a =>
    dsimp only
    by_cases hclosed : a.closed = true
    · rw [if_pos hclosed]
      exact .refl f
    · rw [if_neg hclosed]
      have hopen : a.closed = false := by simpa using hclosed
      exact (evolves_modify_of_get? ha (.shut hopen)).trans (evolves_discharge _ _ _)

end Forest

end FragmentHost

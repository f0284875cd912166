import FragmentHost.Proofs.Memory.Children
import Mathlib.Data.List.Sort

/-!
# Who descends from whom

The record of children that an allocator keeps is written on one occasion only: a child that is made is
entered, and what was dropped since the last time is struck off. In between the record has entries of closed
children, which somebody may still hold, and of dropped ones. An observer is shown the others.

A `Lineage` follows a run from the outside. It writes down who was made under whom, and which allocators were
closed and which were dropped; it never looks at a record or at a mark. The main statement, `traced_ofRun`, is
that the two agree at any point of any run: what is shown are the children of the lineage that were neither
closed nor dropped, in order of creation, and what is on record after a creation are those that were not
dropped.
-/

namespace FragmentHost

/-- A forest with what happened in it so far. -/
structure Lineage where
  forest : Forest := {}
  /-- Each child after the allocator under which it was made, in order of creation. -/
  births : List (Nat × Nat) := []
  /-- The allocators that were asked to close. -/
  closed : List Nat := []
  /-- The allocators that nobody held any more. -/
  dropped : List Nat := []

namespace Lineage

/-- The child that a call makes, after the allocator under which it is made. A refused call makes none. -/
def birth? (f : Forest) : AllocatorCall → Option (Nat × Nat)
  | .child parent label initial max obeysLimits =>
    match f.newChild parent label initial max obeysLimits with
    | .ok (_, child) => some (parent, child)
    | .error _ => none
  | _ => none

/-- The lineage after a call. Nothing is closed or dropped that is not there yet. -/
def post (l : Lineage) (c : AllocatorCall) : Lineage where
  forest := l.forest.perform c
  births := l.births ++ (birth? l.forest c).toList
  closed := l.closed ++ (List.range l.forest.nodes.length).filter fun i => c = .close i
  dropped := l.dropped ++ (List.range l.forest.nodes.length).filter fun i => c = .drop i

/-- The lineage of a run that starts without allocators. -/
def ofRun (calls : List AllocatorCall) : Lineage := calls.foldl post {}

/-- The children that were made under allocator `i`, in order of creation. -/
def childrenOf (l : Lineage) (i : Nat) : List Nat := (l.births.filter (·.1 == i)).map (·.2)

variable {l : Lineage} {c : AllocatorCall} {i j : Nat}

theorem ofRun_concat (calls : List AllocatorCall) (c : AllocatorCall) :
    ofRun (calls ++ [c]) = (ofRun calls).post c := by
  simp [ofRun]

theorem forest_post (l : Lineage) (c : AllocatorCall) : (l.post c).forest = l.forest.perform c := rfl

theorem mem_childrenOf : j ∈ l.childrenOf i ↔ (i, j) ∈ l.births := by
  simp [childrenOf]

theorem mem_births_post {b : Nat × Nat} :
    b ∈ (l.post c).births ↔ b ∈ l.births ∨ birth? l.forest c = some b := by
  simp [post]

theorem mem_closed_post :
    j ∈ (l.post c).closed ↔ j ∈ l.closed ∨ j < l.forest.nodes.length ∧ c = .close j := by
  simp [post]

theorem mem_dropped_post :
    j ∈ (l.post c).dropped ↔ j ∈ l.dropped ∨ j < l.forest.nodes.length ∧ c = .drop j := by
  simp [post]

end Lineage

namespace Forest

variable {f g : Forest} {i j : Nat} {a : Allocator}

/-- The children on record at allocator `i`. -/
def record (f : Forest) (i : Nat) : List Nat := ((f.get? i).map (·.entries)).getD []

/-- Whether allocator `j` is closed, and whether it is dropped. -/
def marks (f : Forest) (j : Nat) : Option (Bool × Bool) := (f.get? j).map fun a => (a.closed, a.dropped)

-- ---------------------------------------------------------------------------
-- Marks
-- ---------------------------------------------------------------------------

theorem marks_of_get? (ha : f.get? j = some a) : f.marks j = some (a.closed, a.dropped) := by
  rw [marks, ha, Option.map_some]

theorem marks_modify (f : Forest) (i : Nat) {change : Allocator → Allocator}
    (h : ∀ a, (change a).closed = a.closed ∧ (change a).dropped = a.dropped) (j : Nat) :
    (f.modify i change).marks j = f.marks j :=
  map_get?_modify f i (fun a => Prod.ext (h a).1 (h a).2) j

theorem marks_shut (f : Forest) (i j : Nat) :
    (f.shut i).1.marks j = if i = j then (f.marks j).map fun m => (true, m.2) else f.marks j := by
  cases hx : f.get? i with
  | none =>
    rw [shut_of_none hx]
    split
    · next hij => simp [marks, ← hij, hx]
    · rfl
  | some x =>
    by_cases hclosed : x.closed = true
    · rw [shut_of_closed hx hclosed]
      split
      · next hij => simp [marks, ← hij, hx, hclosed]
      · rfl
    · rw [shut_of_open hx (by simpa using hclosed), marks]
      -- what goes back to the allocators above changes no marks
      refine (map_get?_discharge (fun _ _ => rfl) _ x.above _ j).trans ?_
      rw [get?_modify]
      split
      · next hij => simp [marks, ← hij, hx, Allocator.shut]
      · rfl

theorem marks_drop (f : Forest) (i j : Nat) :
    (f.drop i).1.marks j = if i = j then (f.marks j).map fun _ => (true, true) else f.marks j := by
  have hshut := marks_shut f i j
  rw [fst_drop, marks, get?_modify]
  split at hshut
  · next hij =>
    rw [if_pos hij, if_pos hij, Option.map_map]
    cases ha : f.marks j with
    | none =>
      rw [ha, Option.map_none, marks, Option.map_eq_none_iff] at hshut
      rw [hshut, Option.map_none, Option.map_none]
    | some m =>
      rw [ha, Option.map_some, marks, Option.map_eq_some_iff] at hshut
      obtain ⟨b, hb, hmarks⟩ := hshut
      rw [hb, Option.map_some, Option.map_some, Function.comp_apply, (Prod.mk.inj hmarks).1]
  · next hij =>
    rw [if_neg hij, if_neg hij]
    exact hshut

/-- An allocator that was there is marked by a call that closes it or drops it, and by no other. -/
theorem marks_perform (hl : f.Linked) (c : AllocatorCall) (hj : j < f.nodes.length) :
    (f.perform c).marks j =
      if c = .close j then (f.marks j).map fun m => (true, m.2)
      else if c = .drop j then (f.marks j).map fun _ => (true, true)
      else f.marks j := by
  cases c with
  | root label max =>
    rw [perform, newRoot, marks, get?_add, if_neg (by omega)]
    rfl
  | child parent label initial max obeysLimits =>
    rw [perform]
    cases hg : f.newChild parent label initial max obeysLimits with
    | error refusal => rfl
    | ok made =>
      obtain ⟨g, child⟩ := made
      obtain ⟨-, -, f', hf', rfl, rfl⟩ := newChild_ok hg
      have hpath := hl.climbs_path parent
      have hne : j ≠ f'.nodes.length := by rw [length_charge hpath hf']; omega
      -- charged, added, recorded
      refine (marks_modify _ parent ?_ j).trans ?_
      · exact fun _ => ⟨rfl, rfl⟩
      · rw [marks, get?_add, if_neg hne]
        exact map_get?_charge (fun _ _ => rfl) hpath hf' j
  | consume i bytes =>
    rw [perform]
    cases hg : f.consume i bytes with
    | error refusal => rfl
    | ok g => exact map_get?_charge (fun _ _ => rfl) (hl.climbs_path i) hg j
  | release i bytes => exact map_get?_discharge (fun _ _ => rfl) f _ bytes j
  | limit i limit =>
    refine marks_modify f i ?_ j
    exact fun _ => ⟨rfl, rfl⟩
  | close i =>
    rw [perform, fst_close, marks_shut]
    simp
  | drop i =>
    rw [perform, marks_drop]
    simp

end Forest

namespace Lineage

variable {l : Lineage} {f g : Forest} {c : AllocatorCall} {i j : Nat}

-- ---------------------------------------------------------------------------
-- Births
-- ---------------------------------------------------------------------------

theorem birth?_newChild {parent : Nat} {label : String} {initial max : Int} {obeysLimits : Bool}
    (hg : f.newChild parent label initial max obeysLimits = .ok (g, j)) :
    birth? f (.child parent label initial max obeysLimits) = some (parent, j) := by
  rw [birth?, hg]

/-- A call that makes a child was granted a reservation. -/
theorem newChild_of_birth? (h : birth? f c = some (i, j)) :
    ∃ label initial max obeysLimits g, c = .child i label initial max obeysLimits ∧
      f.newChild i label initial max obeysLimits = .ok (g, j) := by
  cases c with
  | child parent label initial max obeysLimits =>
    rw [birth?] at h
    cases hg : f.newChild parent label initial max obeysLimits with
    | error refusal => simp [hg] at h
    | ok made =>
      obtain ⟨g, child⟩ := made
      simp only [hg, Option.some.injEq, Prod.mk.injEq] at h
      obtain ⟨rfl, rfl⟩ := h
      exact ⟨label, initial, max, obeysLimits, g, rfl, hg⟩
  | root | consume | release | limit | close | drop => simp [birth?] at h

theorem head?_newborn {parent : Nat} {label : String} {initial max : Int} {obeysLimits : Bool}
    (hg : f.newChild parent label initial max obeysLimits = .ok (g, j)) :
    (f.newborn parent label initial max obeysLimits).above.head? = some parent := by
  obtain ⟨-, ⟨p, hp, -⟩, -⟩ := Forest.newChild_ok hg
  rw [Forest.newborn, Forest.path_of_get? hp, List.head?_cons]

-- ---------------------------------------------------------------------------
-- Keeping the lineage
-- ---------------------------------------------------------------------------

/-- The lineage agrees with what the allocators know of themselves: whom they have above them, and whether
they are closed or dropped. -/
structure Faithful (l : Lineage) : Prop where
  linked : l.forest.Linked
  recorded : l.forest.Recorded
  births : ∀ i j, (i, j) ∈ l.births ↔ ∃ x, l.forest.get? j = some x ∧ x.above.head? = some i
  /-- Those made later have larger numbers. -/
  rising : l.births.Pairwise fun a b => a.2 < b.2
  closed : ∀ j x, l.forest.get? j = some x → (x.closed = true ↔ j ∈ l.closed ∨ j ∈ l.dropped)
  dropped : ∀ j x, l.forest.get? j = some x → (x.dropped = true ↔ j ∈ l.dropped)
  there : ∀ j, j ∈ l.closed ∨ j ∈ l.dropped → j < l.forest.nodes.length

theorem Faithful.lt_length (h : l.Faithful) {b : Nat × Nat} (hb : b ∈ l.births) :
    b.2 < l.forest.nodes.length := by
  obtain ⟨x, hx, -⟩ := (h.births b.1 b.2).mp hb
  exact Forest.lt_length_of_get? hx

theorem Faithful.births_post (h : l.Faithful) (c : AllocatorCall) (i j : Nat) :
    (i, j) ∈ (l.post c).births ↔
      ∃ x, (l.post c).forest.get? j = some x ∧ x.above.head? = some i := by
  have hev := (Forest.evolves_perform h.linked c).1
  rw [mem_births_post]
  constructor
  · rintro (hold | hnew)
    · obtain ⟨x, hx, hparent⟩ := (h.births i j).mp hold
      obtain ⟨y, hy, hxy⟩ := hev.old j x hx
      exact ⟨y, hy, hxy.above_eq ▸ hparent⟩
    · obtain ⟨label, initial, max, obeysLimits, g, rfl, hg⟩ := newChild_of_birth? hnew
      obtain ⟨-, -, hmade⟩ := Forest.made_of_newChild h.linked hg
      refine ⟨_, ?_, head?_newborn hg⟩
      rw [post, Forest.perform, hg]
      exact hmade
  · rintro ⟨y, hy, hparent⟩
    cases hx : l.forest.get? j with
    | some x =>
      exact Or.inl ((h.births i j).mpr ⟨x, hx, (hev.of_get? hx hy).above_eq ▸ hparent⟩)
    | none =>
      rcases Forest.made_of_perform h.linked hy hx with
        ⟨label, max, -, rfl⟩ | ⟨parent, label, initial, max, obeysLimits, g, rfl, hg, rfl⟩
      · simp at hparent
      · rw [head?_newborn hg, Option.some.injEq] at hparent
        exact Or.inr (hparent ▸ birth?_newChild hg)

theorem Faithful.rising_post (h : l.Faithful) (c : AllocatorCall) :
    (l.post c).births.Pairwise fun a b => a.2 < b.2 := by
  rw [post]
  cases hb : birth? l.forest c with
  | none => simpa using h.rising
  | some b =>
    obtain ⟨label, initial, max, obeysLimits, g, -, hg⟩ := newChild_of_birth? (i := b.1) (j := b.2) hb
    obtain ⟨hchild, -⟩ := Forest.made_of_newChild h.linked hg
    refine List.pairwise_append.mpr ⟨h.rising, List.pairwise_singleton _ _, fun a ha b' hb' => ?_⟩
    obtain rfl : b' = b := by simpa using hb'
    rw [hchild]
    exact h.lt_length ha

/-- The marks of an allocator after a call, in terms of the lineage. -/
theorem Faithful.marks_post (h : l.Faithful) (c : AllocatorCall) {j : Nat} {y : Allocator}
    (hy : (l.post c).forest.get? j = some y) :
    (y.closed = true ↔ j ∈ (l.post c).closed ∨ j ∈ (l.post c).dropped) ∧
      (y.dropped = true ↔ j ∈ (l.post c).dropped) := by
  have hnew := Forest.marks_of_get? hy
  rw [mem_closed_post, mem_dropped_post]
  cases hx : l.forest.get? j with
  | some x =>
    have hj := Forest.lt_length_of_get? hx
    rw [forest_post, Forest.marks_perform h.linked c hj, Forest.marks_of_get? hx] at hnew
    rw [← h.dropped j x hx]
    have hclosed := h.closed j x hx
    rw [← h.dropped j x hx] at hclosed
    split at hnew
    · next hc =>
      obtain ⟨hyc, hyd⟩ := Prod.mk.inj (Option.some.inj hnew)
      simp [← hyc, ← hyd, hc, hj]
    · next hc =>
      split at hnew
      · next hd =>
        obtain ⟨hyc, hyd⟩ := Prod.mk.inj (Option.some.inj hnew)
        simp [← hyc, ← hyd, hd, hj]
      · next hd =>
        obtain ⟨hyc, hyd⟩ := Prod.mk.inj (Option.some.inj hnew)
        simp [← hyc, ← hyd, hc, hd, hclosed]
  | none =>
    have hlen := Forest.get?_eq_none_iff.mp hx
    have hthere : j ∉ l.closed ∧ j ∉ l.dropped := by
      rw [← not_or]
      exact fun hj => absurd (h.there j hj) (by omega)
    have hlive : y.closed = false ∧ y.dropped = false := by
      rcases Forest.made_of_perform h.linked hy hx with
        ⟨label, max, -, rfl⟩ | ⟨parent, label, initial, max, obeysLimits, g, -, -, rfl⟩
      · exact ⟨rfl, rfl⟩
      · exact ⟨rfl, rfl⟩
    simp [hlive, hthere, Nat.not_lt.mpr hlen]

/-- A call keeps the lineage. -/
theorem Faithful.post (h : l.Faithful) (c : AllocatorCall) : (l.post c).Faithful := by
  obtain ⟨hev, hlinked⟩ := Forest.evolves_perform h.linked c
  constructor
  case linked => exact hlinked
  case recorded => exact Forest.recorded_perform h.linked h.recorded c
  case births => exact h.births_post c
  case rising => exact h.rising_post c
  case closed => exact fun j y hy => (h.marks_post c hy).1
  case dropped => exact fun j y hy => (h.marks_post c hy).2
  case there =>
    intro j hj
    rw [mem_closed_post, mem_dropped_post] at hj
    have hbefore : j < l.forest.nodes.length := by
      rcases hj with (hj | hj) | (hj | hj)
      · exact h.there j (Or.inl hj)
      · exact hj.1
      · exact h.there j (Or.inr hj)
      · exact hj.1
    obtain ⟨x, hx⟩ := Forest.exists_get?_of_lt hbefore
    obtain ⟨y, hy, -⟩ := hev.old j x hx
    exact Forest.lt_length_of_get? hy

/-- The lineage of a run agrees with what the allocators know. -/
theorem faithful_ofRun (calls : List AllocatorCall) : (ofRun calls).Faithful := by
  induction calls using List.reverseRecOn with
  | nil =>
    refine ⟨Forest.linked_empty, Forest.recorded_empty, fun i j => ?_, .nil, fun j x hx => ?_,
      fun j x hx => ?_, fun j hj => ?_⟩
    · simp [ofRun, Forest.get?]
    · simp [ofRun, Forest.get?] at hx
    · simp [ofRun, Forest.get?] at hx
    · simp [ofRun] at hj
  | append_singleton calls c ih =>
    rw [ofRun_concat]
    exact ih.post c

-- ---------------------------------------------------------------------------
-- Children
-- ---------------------------------------------------------------------------

theorem Faithful.rising_childrenOf (h : l.Faithful) (i : Nat) : (l.childrenOf i).Pairwise (· < ·) :=
  List.pairwise_map.mpr (h.rising.filter _)

theorem Faithful.mem_childrenOf_iff (h : l.Faithful) :
    j ∈ l.childrenOf i ↔ ∃ x, l.forest.get? j = some x ∧ x.above.head? = some i := by
  rw [mem_childrenOf, h.births]

/-- An observer is shown the children that were neither closed nor dropped. -/
theorem Faithful.children_eq (h : l.Faithful) (i : Nat) :
    l.forest.children i = (l.childrenOf i).filter fun j => j ∉ l.closed ∧ j ∉ l.dropped := by
  refine (Forest.pairwise_children h.recorded i).eq_of_mem_iff ((h.rising_childrenOf i).filter _) ?_
  intro j
  rw [Forest.mem_children_iff h.recorded, List.mem_filter, h.mem_childrenOf_iff]
  have hlive : ∀ x, l.forest.get? j = some x →
      (x.isLive = true ↔ j ∉ l.closed ∧ j ∉ l.dropped) := by
    intro x hx
    have hclosed := h.closed j x hx
    have hdropped := h.dropped j x hx
    simp only [Allocator.isLive, Bool.and_eq_true, Bool.not_eq_true', ← Bool.not_eq_true, hclosed,
      hdropped]
    tauto
  constructor
  · rintro ⟨x, hx, hxlive, hparent⟩
    exact ⟨⟨x, hx, hparent⟩, by simpa using (hlive x hx).mp hxlive⟩
  · rintro ⟨⟨x, hx, hparent⟩, hj⟩
    exact ⟨x, hx, (hlive x hx).mpr (by simpa using hj), hparent⟩

end Lineage

namespace Forest

variable {f g : Forest} {i j parent : Nat} {label : String} {initial max : Int} {obeysLimits : Bool}

-- ---------------------------------------------------------------------------
-- Creations
-- ---------------------------------------------------------------------------

theorem isDropped_eq (f : Forest) (j : Nat) : f.isDropped j = ((f.marks j).map (·.2)).getD true := by
  rw [isDropped, marks]
  cases f.get? j <;> rfl

theorem record_of_get? {a : Allocator} (ha : f.get? i = some a) : f.record i = a.entries := by
  rw [record, ha, Option.map_some, Option.getD_some]

theorem exists_of_mem_record {c : Nat} (hc : c ∈ f.record i) :
    ∃ a, f.get? i = some a ∧ c ∈ a.entries := by
  cases ha : f.get? i with
  | none => simp [record, ha] at hc
  | some a => exact ⟨a, rfl, record_of_get? ha ▸ hc⟩

/-- A new child is recorded under its parent, where dropped children are struck off on this occasion; the
records of others are not written. -/
theorem record_newChild (hl : f.Linked) (hr : f.Recorded)
    (hg : f.newChild parent label initial max obeysLimits = .ok (g, j)) (hi : i < f.nodes.length) :
    g.record i =
      if parent = i then (f.record i).filter (fun c => !f.isDropped c) ++ [j] else f.record i := by
  obtain ⟨-, ⟨p, hp, -⟩, f', hf', rfl, rfl⟩ := newChild_ok hg
  have hpath := hl.climbs_path parent
  have hlen := length_charge hpath hf'
  obtain ⟨p', hp', -⟩ := (evolves_charge hpath hf').old parent p hp
  -- paying for the child changes neither records nor marks
  have hrecord : ∀ k, f'.record k = f.record k := by
    intro k
    rw [record, map_get?_charge (fun _ _ => rfl) hpath hf', record]
  have hmarks : ∀ k, f'.marks k = f.marks k := by
    intro k
    rw [marks, map_get?_charge (fun _ _ => rfl) hpath hf', marks]
  have hdropped : ∀ c ∈ f.record parent,
      (f'.add (f.newborn parent label initial max obeysLimits)).1.isDropped c = f.isDropped c := by
    intro c hc
    rw [record_of_get? hp] at hc
    obtain ⟨x, hx, -⟩ := hr.child parent p hp c hc
    have hlt := lt_length_of_get? hx
    rw [isDropped_eq, isDropped_eq, marks, get?_add, if_neg (by omega), ← marks, hmarks]
  rw [record, get?_enter_add hp']
  split
  · next h =>
    subst h
    rw [Option.map_some, Option.getD_some, ← record_of_get? hp', hrecord]
    refine congrArg (· ++ [_]) (List.filter_congr fun c hc => ?_)
    rw [hdropped c hc]
  · rw [if_neg (by omega), ← record, hrecord]

end Forest

namespace Lineage

variable {l : Lineage} {i j : Nat}

/-- Striking off what the allocators are marked with is striking off what the lineage tells. -/
theorem Faithful.filter_isDropped (h : l.Faithful) (i : Nat) :
    (l.forest.record i).filter (fun c => !l.forest.isDropped c) =
      (l.forest.record i).filter fun c => c ∉ l.dropped := by
  refine List.filter_congr fun c hc => ?_
  obtain ⟨a, ha, hmem⟩ := Forest.exists_of_mem_record hc
  obtain ⟨x, hx, -⟩ := h.recorded.child i a ha c hmem
  rw [Forest.isDropped_of_get? hx, Bool.eq_iff_iff, Bool.not_eq_true', ← Bool.not_eq_true,
    h.dropped c x hx, decide_eq_true_iff]

/-- Who is on record and not dropped is a child that is not dropped. -/
theorem Faithful.filter_record (h : l.Faithful) (i : Nat) :
    (l.forest.record i).filter (fun j => j ∉ l.dropped) =
      (l.childrenOf i).filter fun j => j ∉ l.dropped := by
  have hrising : (l.forest.record i).Pairwise (· < ·) := by
    unfold Forest.record
    cases ha : l.forest.get? i with
    | none => exact .nil
    | some a => exact h.recorded.increasing i a ha
  refine (hrising.filter _).eq_of_mem_iff ((h.rising_childrenOf i).filter _) fun j => ?_
  simp only [List.mem_filter, decide_eq_true_eq, h.mem_childrenOf_iff]
  refine and_congr_left fun hj => ⟨fun hmem => ?_, ?_⟩
  · obtain ⟨a, ha, hmem⟩ := Forest.exists_of_mem_record hmem
    exact h.recorded.child i a ha j hmem
  · rintro ⟨x, hx, hparent⟩
    have hlive : x.dropped = false := by
      rw [← Bool.not_eq_true, h.dropped j x hx]
      exact hj
    obtain ⟨a, ha, hmem⟩ := h.recorded.entry j x hx hlive i hparent
    rw [Forest.record_of_get? ha]
    exact hmem

/-- What can be seen of the children of allocator `i` is what the lineage tells. -/
structure Traced (l : Lineage) (i : Nat) : Prop where
  /-- An observer is shown the children that are neither closed nor dropped, in order of creation. -/
  shown : l.forest.children i = (l.childrenOf i).filter fun c => c ∉ l.closed ∧ c ∉ l.dropped
  /-- None of them is shown twice. -/
  once : (l.forest.children i).Nodup
  /-- Wherever a child is made, those that are not dropped stay on record, be they closed or not. -/
  kept : ∀ parent label initial max obeysLimits g j,
    l.forest.newChild parent label initial max obeysLimits = .ok (g, j) →
      ∀ c ∈ l.forest.record i, c ∉ l.dropped → c ∈ g.record i
  /-- When a child is made under `i`, no dropped one is left on record. -/
  struck : ∀ label initial max obeysLimits g j,
    l.forest.newChild i label initial max obeysLimits = .ok (g, j) →
      g.record i = (l.childrenOf i).filter (fun c => c ∉ l.dropped) ++ [j] ∧
        ∀ c ∈ g.record i, g.isDropped c = false

theorem Faithful.traced (h : l.Faithful) (i : Nat) : l.Traced i := by
  constructor
  case shown => exact h.children_eq i
  case once => exact Forest.nodup_children h.recorded i
  case kept =>
    intro parent label initial max obeysLimits g j hg c hc hlive
    obtain ⟨a, ha, -⟩ := Forest.exists_of_mem_record hc
    rw [Forest.record_newChild h.linked h.recorded hg (Forest.lt_length_of_get? ha)]
    split
    · rw [h.filter_isDropped]
      exact List.mem_append_left _ (List.mem_filter.mpr ⟨hc, by simpa using hlive⟩)
    · exact hc
  case struck =>
    intro label initial max obeysLimits g j hg
    obtain ⟨-, ⟨p, hp, -⟩, -⟩ := Forest.newChild_ok hg
    have hrecord : g.record i = (l.childrenOf i).filter (fun c => c ∉ l.dropped) ++ [j] := by
      rw [Forest.record_newChild h.linked h.recorded hg (Forest.lt_length_of_get? hp), if_pos rfl,
        h.filter_isDropped, h.filter_record]
    refine ⟨hrecord, fun c hc => ?_⟩
    -- the lineage after the creation has the same losses, and the new child is none of them
    have hpost := h.post (.child i label initial max obeysLimits)
    have hforest : (l.post (.child i label initial max obeysLimits)).forest = g := by
      rw [forest_post, Forest.perform, hg]
    obtain ⟨b, hb, hmem⟩ := Forest.exists_of_mem_record hc
    obtain ⟨x, hx, -⟩ := (hforest ▸ hpost.recorded).child i b hb c hmem
    have hlost : c ∉ l.dropped := by
      rw [hrecord, List.mem_append, List.mem_singleton] at hc
      rcases hc with hc | rfl
      · simpa using (List.mem_filter.mp hc).2
      · obtain ⟨hlast, -⟩ := Forest.made_of_newChild h.linked hg
        exact fun hc => absurd (h.there c (Or.inr hc)) (by omega)
    rw [Forest.isDropped_of_get? hx, ← Bool.not_eq_true, hpost.dropped c x (hforest ▸ hx), mem_dropped_post]
    simp [hlost]

/-- At any point of any run, whoever is closed or dropped in whatever order and whatever is refused: the
children of an allocator that are shown are those that were made under it and that are neither closed nor
dropped, in order of creation and each once; and of its record a later creation strikes off the dropped
children, all of them and no others. -/
theorem traced_ofRun (calls : List AllocatorCall) (i : Nat) : (ofRun calls).Traced i :=
  (faithful_ofRun calls).traced i

/-- One child is refused, one is closed and still held, one is closed and then dropped, and one below it is
dropped as it is. The last creation strikes off the third of them. -/
example :
    let calls : List AllocatorCall := [.root "query" 100, .child 0 "scan" 10 (-1) true,
      .child 0 "sort" 500 (-1) true, .child 0 "join" 20 (-1) true, .child 1 "page" 0 (-1) true, .close 2,
      .child 0 "filter" 0 (-1) true, .close 1, .drop 3, .drop 1]
    let later := calls ++ [.child 0 "union" 0 (-1) false]
    (ofRun calls).forest.record 0 = [1, 2, 4] ∧ (ofRun later).forest.record 0 = [2, 4, 5] ∧
      (ofRun later).forest.children 0 = [4, 5] := by
  decide

end Lineage

end FragmentHost

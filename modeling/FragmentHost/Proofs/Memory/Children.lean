import FragmentHost.Memory.Outline
import FragmentHost.Proofs.Memory.Budget

/-!
# The children on record

Every allocator keeps a record of its children, and an observer sees those of the record that are alive. The
record is right in every forest that a run leads to (`Recorded`): its entries are children of the allocator in
order of creation, and only dropped ones are ever struck off. So what an observer sees are the live children,
each once (`mem_children_iff`, `nodup_children`).

`Reaches` says which allocators one comes to in this way, and by which labels. Children are made after their
parents, so that an outline shows all of them and no depth is too small for it (`outline_eq`). Where no two
children of one allocator share a label, labels lead to one allocator only (`Reaches.unique`), and an
allocator that was reached once is reached as long as it and those on the way to it are alive
(`Reaches.still`).
-/

namespace FragmentHost

/-- A dropped allocator stays dropped. -/
theorem Allocator.Evolves.dropped {a b : Allocator} (h : a.Evolves b) (ha : a.dropped = true) :
    b.dropped = true := by
  refine h.keeps (I := fun b => b.dropped = true) (fun b c hbc hb => ?_) ha
  cases hbc with
  | drop => rfl
  | _ => exact hb

theorem Allocator.Evolves.label_eq {a b : Allocator} (h : a.Evolves b) : b.label = a.label := h.fixed.1

namespace Forest

/-- The records of children are right. -/
structure Recorded (f : Forest) : Prop where
  /-- Entries are in order of creation. -/
  increasing : ∀ i a, f.get? i = some a → a.entries.Pairwise (· < ·)
  /-- What is on record is a child. -/
  child : ∀ i a, f.get? i = some a → ∀ c ∈ a.entries, ∃ x, f.get? c = some x ∧ x.above.head? = some i
  /-- A child is on record, at least until it is dropped. -/
  entry : ∀ c x, f.get? c = some x → x.dropped = false → ∀ i, x.above.head? = some i →
    ∃ a, f.get? i = some a ∧ c ∈ a.entries

variable {f g : Forest}

-- ---------------------------------------------------------------------------
-- Keeping the record
-- ---------------------------------------------------------------------------

/-- An allocator of `f` that is there in `g` is what it has become. -/
theorem Evolves.of_get? (h : f.Evolves g) {i : Nat} {a b : Allocator} (ha : f.get? i = some a)
    (hb : g.get? i = some b) : a.Evolves b := by
  obtain ⟨b', hb', hab⟩ := h.old i a ha
  rw [hb, Option.some.injEq] at hb'
  exact hb' ▸ hab

/-- Where records stay as they are and new allocators are roots, nothing has to be recorded. -/
theorem Recorded.evolves (hr : f.Recorded) (h : f.Evolves g)
    (hsame : ∀ i a, f.get? i = some a → (g.get? i).map (·.entries) = some a.entries)
    (hroots : ∀ i b, g.get? i = some b → f.get? i = none → b.entries = [] ∧ b.above = []) :
    g.Recorded := by
  constructor
  case increasing =>
    intro i b hb
    cases ha : f.get? i with
    | none => simp [(hroots i b hb ha).1]
    | some a =>
      have hentries := hsame i a ha
      rw [hb, Option.map_some, Option.some.injEq] at hentries
      exact hentries ▸ hr.increasing i a ha
  case child =>
    intro i b hb c hc
    cases ha : f.get? i with
    | none => simp [(hroots i b hb ha).1] at hc
    | some a =>
      have hentries := hsame i a ha
      rw [hb, Option.map_some, Option.some.injEq] at hentries
      obtain ⟨x, hx, hparent⟩ := hr.child i a ha c (hentries ▸ hc)
      obtain ⟨y, hy, hxy⟩ := h.old c x hx
      exact ⟨y, hy, hxy.above_eq ▸ hparent⟩
  case entry =>
    intro c y hy hlive i hparent
    cases hx : f.get? c with
    | none => simp [(hroots c y hy hx).2] at hparent
    | some x =>
      have hxy := h.of_get? hx hy
      have hbefore : x.dropped = false := by
        by_contra hdropped
        rw [hxy.dropped (by simpa using hdropped)] at hlive
        simp at hlive
      obtain ⟨a, ha, hc⟩ := hr.entry c x hx hbefore i (hxy.above_eq ▸ hparent)
      obtain ⟨b, hb, -⟩ := h.old i a ha
      have hentries := hsame i a ha
      rw [hb, Option.map_some, Option.some.injEq] at hentries
      exact ⟨b, hb, hentries ▸ hc⟩

/-- No allocator is added, and no record is rewritten. -/
theorem Recorded.evolves_of_length (hr : f.Recorded) (h : f.Evolves g)
    (hlen : g.nodes.length = f.nodes.length)
    (hsame : ∀ i, (g.get? i).map (·.entries) = (f.get? i).map (·.entries)) : g.Recorded := by
  refine hr.evolves h (fun i a ha => by rw [hsame, ha, Option.map_some]) fun i b hb hnone => ?_
  -- there are no new ones
  have := lt_length_of_get? hb
  rw [get?_eq_none_iff] at hnone
  omega

theorem entries_shut (f : Forest) (i j : Nat) :
    ((f.shut i).1.get? j).map (·.entries) = (f.get? j).map (·.entries) := by
  cases ha : f.get? i with
  | none => rw [shut_of_none ha]
  | some a =>
    by_cases hclosed : a.closed = true
    · rw [shut_of_closed ha hclosed]
    · rw [shut_of_open ha (by simpa using hclosed)]
      refine (map_get?_discharge (fun _ _ => rfl) _ a.above _ j).trans (map_get?_modify f i ?_ j)
      exact fun _ => rfl

theorem isDropped_of_get? {i : Nat} {a : Allocator} (ha : f.get? i = some a) :
    f.isDropped i = a.dropped := by
  rw [isDropped, ha]

/-- What is there after `x` was added at the end and recorded under `parent`. -/
theorem get?_enter_add {parent : Nat} {p : Allocator} (hp : f.get? parent = some p) (x : Allocator) (i : Nat) :
    ((f.add x).1.enter parent f.nodes.length).get? i =
      if parent = i then some { p with
        entries := p.entries.filter (fun c => !(f.add x).1.isDropped c) ++ [f.nodes.length] }
      else if i = f.nodes.length then some x else f.get? i := by
  have hlt := lt_length_of_get? hp
  rw [Forest.enter, get?_modify]
  split
  · next h =>
    subst h
    rw [get?_add, if_neg (by omega), hp]
    rfl
  · exact get?_add f x i

/-- What was there has kept its place and its mark, and all of it but for the record of `parent`. -/
theorem get?_enter_add_of_get? {parent : Nat} {p : Allocator} (hp : f.get? parent = some p) (x : Allocator)
    {i : Nat} {y : Allocator} (hy : f.get? i = some y) :
    ∃ z, ((f.add x).1.enter parent f.nodes.length).get? i = some z ∧ z.above = y.above ∧
      z.dropped = y.dropped ∧ (i ≠ parent → z = y) := by
  have hi := lt_length_of_get? hy
  rw [get?_enter_add hp]
  split
  · next h =>
    subst h
    obtain rfl : p = y := Option.some.inj (hp.symm.trans hy)
    exact ⟨_, rfl, rfl, rfl, fun hne => absurd rfl hne⟩
  · rw [if_neg (by omega)]
    exact ⟨y, hy, rfl, rfl, fun _ => rfl⟩

/-- A new child is added at the end and recorded under its parent. -/
theorem Recorded.enter (hr : f.Recorded) {parent : Nat} {p x : Allocator} (hp : f.get? parent = some p)
    (hx : x.IsNew) (hparent : x.above.head? = some parent) :
    ((f.add x).1.enter parent f.nodes.length).Recorded := by
  have hlt := lt_length_of_get? hp
  have hnew : ((f.add x).1.enter parent f.nodes.length).get? f.nodes.length = some x := by
    rw [get?_enter_add hp, if_neg (by omega), if_pos rfl]
  constructor
  case increasing =>
    intro i b hb
    rw [get?_enter_add hp] at hb
    split at hb
    · obtain rfl := Option.some.inj hb
      refine List.pairwise_append.mpr ⟨(hr.increasing parent p hp).filter _, List.pairwise_singleton _ _, ?_⟩
      intro c hc d hd
      obtain ⟨y, hy, -⟩ := hr.child parent p hp c (List.mem_filter.mp hc).1
      rw [List.mem_singleton.mp hd]
      exact lt_length_of_get? hy
    · split at hb
      · obtain rfl := Option.some.inj hb
        simp [hx.unlimited.2]
      · exact hr.increasing i b hb
  case child =>
    intro i b hb c hc
    have hkeep : ∀ y, f.get? c = some y → y.above.head? = some i →
        ∃ z, ((f.add x).1.enter parent f.nodes.length).get? c = some z ∧ z.above.head? = some i := by
      intro y hy hyi
      obtain ⟨z, hz, habove, -⟩ := get?_enter_add_of_get? hp x hy
      exact ⟨z, hz, habove ▸ hyi⟩
    rw [get?_enter_add hp] at hb
    split at hb
    · next h =>
      subst h
      obtain rfl := Option.some.inj hb
      rcases List.mem_append.mp hc with hc | hc
      · obtain ⟨y, hy, hyi⟩ := hr.child parent p hp c (List.mem_filter.mp hc).1
        exact hkeep y hy hyi
      · rw [List.mem_singleton.mp hc]
        exact ⟨x, hnew, hparent⟩
    · split at hb
      · obtain rfl := Option.some.inj hb
        simp [hx.unlimited.2] at hc
      · obtain ⟨y, hy, hyi⟩ := hr.child i b hb c hc
        exact hkeep y hy hyi
  case entry =>
    intro c z hz hlive i hi
    by_cases hc : c = f.nodes.length
    · subst hc
      obtain rfl : x = z := Option.some.inj (hnew.symm.trans hz)
      obtain rfl : parent = i := Option.some.inj (hparent.symm.trans hi)
      exact ⟨_, by rw [get?_enter_add hp, if_pos rfl], by simp⟩
    · obtain ⟨y, hy⟩ : ∃ y, f.get? c = some y := by
        refine exists_get?_of_lt ?_
        have := lt_length_of_get? hz
        rw [Forest.enter, length_modify, length_add] at this
        omega
      obtain ⟨z', hz', habove, hmark, -⟩ := get?_enter_add_of_get? hp x hy
      obtain rfl : z = z' := Option.some.inj (hz.symm.trans hz')
      obtain ⟨a, ha, hmem⟩ := hr.entry c y hy (hmark ▸ hlive) i (habove ▸ hi)
      by_cases hpi : parent = i
      · subst hpi
        obtain rfl : p = a := Option.some.inj (hp.symm.trans ha)
        refine ⟨_, by rw [get?_enter_add hp, if_pos rfl],
          List.mem_append_left _ (List.mem_filter.mpr ⟨hmem, ?_⟩)⟩
        -- the child was not dropped, so that it is not struck off
        have hadded : (f.add x).1.get? c = some y := by rw [get?_add, if_neg hc, hy]
        simp [isDropped_of_get? hadded, ← hmark, hlive]
      · obtain ⟨b, hb, -, -, hsame⟩ := get?_enter_add_of_get? hp x ha
        exact ⟨b, hb, (hsame (Ne.symm hpi)) ▸ hmem⟩

/-- Whatever is asked of a forest, its records stay right. -/
theorem recorded_perform (hl : f.Linked) (hr : f.Recorded) (c : AllocatorCall) :
    (f.perform c).Recorded := by
  cases c with
  | root label max =>
    have hev := (evolves_perform hl (.root label max)).1
    refine hr.evolves hev (fun i a ha => ?_) fun i b hb hnone => ?_
    · have := lt_length_of_get? ha
      rw [perform, newRoot, get?_add, if_neg (by omega), ha, Option.map_some]
    · rw [perform, newRoot, get?_add] at hb
      split at hb
      · obtain rfl := Option.some.inj hb
        exact ⟨rfl, rfl⟩
      · simp [hnone] at hb
  | child parent label initial max obeysLimits =>
    rw [perform]
    cases hg : f.newChild parent label initial max obeysLimits with
    | error refusal => exact hr
    | ok made =>
      obtain ⟨g, child⟩ := made
      obtain ⟨hinitial, ⟨p, hp, -⟩, f', hf', rfl, rfl⟩ := newChild_ok hg
      have hpath := hl.climbs_path parent
      have hev := evolves_charge hpath hf'
      have hcharged := hr.evolves_of_length hev (length_charge hpath hf')
        (map_get?_charge (fun _ _ => rfl) hpath hf')
      obtain ⟨p', hp', -⟩ := hev.old parent p hp
      have hparent : (f.newborn parent label initial max obeysLimits).above.head? = some parent := by
        rw [newborn, path_of_get? hp, List.head?_cons]
      exact hcharged.enter hp' (isNew_newborn f parent label max obeysLimits hinitial) hparent
  | consume i bytes =>
    rw [perform]
    cases hg : f.consume i bytes with
    | error refusal => exact hr
    | ok g =>
      have hpath := hl.climbs_path i
      exact hr.evolves_of_length (evolves_charge hpath hg) (length_charge hpath hg)
        (map_get?_charge (fun _ _ => rfl) hpath hg)
  | release i bytes =>
    exact hr.evolves_of_length (evolves_discharge f _ bytes) (length_discharge f _ bytes)
      (map_get?_discharge (fun _ _ => rfl) f _ bytes)
  | limit i limit =>
    exact hr.evolves_of_length (evolves_perform hl (.limit i limit)).1 (length_modify f i _)
      (map_get?_modify f i fun _ => rfl)
  | close i =>
    rw [perform, fst_close]
    exact hr.evolves_of_length (evolves_shut f i) (length_shut f i) (entries_shut f i)
  | drop i =>
    refine hr.evolves_of_length (evolves_drop f i) ?_ fun j => ?_
    · rw [perform, fst_drop, length_modify, length_shut]
    · rw [perform, fst_drop]
      refine (map_get?_modify _ i ?_ j).trans (entries_shut f i j)
      exact fun _ => rfl

theorem recorded_empty : Recorded {} := by
  refine ⟨fun i a ha => ?_, fun i a ha => ?_, fun c x hx => ?_⟩
  · simp [get?] at ha
  · simp [get?] at ha
  · simp [get?] at hx

theorem Recorded.performAll (hl : f.Linked) (hr : f.Recorded) (calls : List AllocatorCall) :
    (f.performAll calls).Recorded := by
  induction calls generalizing f with
  | nil => exact hr
  | cons c calls ih => exact ih (evolves_perform hl c).2 (recorded_perform hl hr c)

/-- The records are right at any point of any run. -/
theorem recorded_performAll (calls : List AllocatorCall) : (performAll {} calls).Recorded :=
  recorded_empty.performAll linked_empty calls

-- ---------------------------------------------------------------------------
-- Live children
-- ---------------------------------------------------------------------------

/-- The children that are seen are those that are alive. -/
theorem mem_children_iff (hr : f.Recorded) {i c : Nat} :
    c ∈ f.children i ↔ ∃ x, f.get? c = some x ∧ x.isLive = true ∧ x.above.head? = some i := by
  constructor
  · intro hc
    unfold children at hc
    cases ha : f.get? i with
    | none => simp [ha] at hc
    | some a =>
      simp only [ha, List.mem_filter, Option.any_eq_true] at hc
      obtain ⟨hmem, x, hx, hlive⟩ := hc
      obtain ⟨x', hx', hparent⟩ := hr.child i a ha c hmem
      obtain rfl : x = x' := Option.some.inj (hx.symm.trans hx')
      exact ⟨x, hx, hlive, hparent⟩
  · rintro ⟨x, hx, hlive, hparent⟩
    have hdropped : x.dropped = false := by
      unfold Allocator.isLive at hlive
      simp at hlive
      exact hlive.2
    obtain ⟨a, ha, hmem⟩ := hr.entry c x hx hdropped i hparent
    rw [children, ha]
    exact List.mem_filter.mpr ⟨hmem, by simp [hx, hlive]⟩

theorem pairwise_children (hr : f.Recorded) (i : Nat) : (f.children i).Pairwise (· < ·) := by
  unfold children
  cases ha : f.get? i with
  | none => exact .nil
  | some a => exact (hr.increasing i a ha).filter _

/-- Each child is seen once. -/
theorem nodup_children (hr : f.Recorded) (i : Nat) : (f.children i).Nodup :=
  (pairwise_children hr i).imp fun h => Nat.ne_of_lt h

/-- A child is in the forest and was made after its parent. -/
theorem lt_of_mem_children (hl : f.Linked) (hr : f.Recorded) {i c : Nat} (hc : c ∈ f.children i) :
    i < c ∧ c < f.nodes.length := by
  obtain ⟨x, hx, -, hparent⟩ := (mem_children_iff hr).mp hc
  exact ⟨hl.head?_lt hx hparent, lt_length_of_get? hx⟩

theorem children_of_length_le {i : Nat} (h : f.nodes.length ≤ i) : f.children i = [] := by
  rw [children, get?_eq_none_iff.mpr h]

theorem label_of_get? {i : Nat} {a : Allocator} (ha : f.get? i = some a) : f.label i = a.label := by
  simp [label, ha]

-- ---------------------------------------------------------------------------
-- Outlines
-- ---------------------------------------------------------------------------

/-- Depth beyond the number of allocators that were made after the top one adds nothing. -/
theorem ofForest_congr (hl : f.Linked) (hr : f.Recorded) {depth other i : Nat}
    (hdepth : f.nodes.length ≤ depth + i) (hother : f.nodes.length ≤ other + i) :
    Outline.ofForest f depth i = Outline.ofForest f other i := by
  induction depth generalizing other i with
  | zero =>
    have hnone := children_of_length_le (f := f) (i := i) (by omega)
    cases other with
    | zero => rfl
    | succ other => rw [Outline.ofForest, Outline.ofForest, hnone, List.map_nil]
  | succ depth ih =>
    cases other with
    | zero =>
      have hnone := children_of_length_le (f := f) (i := i) (by omega)
      rw [Outline.ofForest, Outline.ofForest, hnone, List.map_nil]
    | succ other =>
      rw [Outline.ofForest, Outline.ofForest]
      congr 1
      refine List.map_congr_left fun c hc => ih ?_ ?_
      · have := lt_of_mem_children hl hr hc
        omega
      · have := lt_of_mem_children hl hr hc
        omega

/-- An outline shows an allocator as it stands, with the outlines of its live children. -/
theorem outline_eq (hl : f.Linked) (hr : f.Recorded) (i : Nat) :
    f.outline i = .node (f.label i) (f.current i) (f.peak i) ((f.children i).map f.outline) := by
  have hstep : Outline.ofForest f f.nodes.length i = Outline.ofForest f (f.nodes.length + 1) i :=
    ofForest_congr hl hr (by omega) (by omega)
  rw [outline, hstep, Outline.ofForest]
  rfl

-- ---------------------------------------------------------------------------
-- Allocators that are seen from another one
-- ---------------------------------------------------------------------------

/-- Going down from `a` through live children, the labels `path` lead to `b`. -/
inductive Reaches (f : Forest) : Nat → List String → Nat → Prop where
  | here (a : Nat) : Reaches f a [] a
  | down {a c b : Nat} {path : List String} (hc : c ∈ f.children a) (hb : Reaches f c path b) :
    Reaches f a (f.label c :: path) b

theorem reaches_nil_iff {a b : Nat} : f.Reaches a [] b ↔ b = a := by
  constructor
  · rintro ⟨⟩
    rfl
  · rintro rfl
    exact .here _

theorem reaches_cons_iff {a b : Nat} {name : String} {path : List String} :
    f.Reaches a (name :: path) b ↔ ∃ c ∈ f.children a, f.label c = name ∧ f.Reaches c path b := by
  constructor
  · intro h
    cases h with
    | down hc hb => exact ⟨_, hc, rfl, hb⟩
  · rintro ⟨c, hc, rfl, hb⟩
    exact .down hc hb

/-- Wherever one comes to from `a`, the children that are seen have different labels. -/
def LabelsDiffer (f : Forest) (a : Nat) : Prop :=
  ∀ path b, f.Reaches a path b → ((f.children b).map f.label).Nodup

theorem LabelsDiffer.nodup {a : Nat} (h : f.LabelsDiffer a) : ((f.children a).map f.label).Nodup :=
  h [] a (.here a)

theorem LabelsDiffer.child {a c : Nat} (h : f.LabelsDiffer a) (hc : c ∈ f.children a) :
    f.LabelsDiffer c :=
  fun path b hb => h (f.label c :: path) b (.down hc hb)

theorem LabelsDiffer.of_reaches {a b : Nat} {path : List String} (h : f.LabelsDiffer a)
    (hb : f.Reaches a path b) : f.LabelsDiffer b := by
  induction hb with
  | here => exact h
  | down hc _ ih => exact ih (h.child hc)

/-- It is enough to look at every allocator once. -/
theorem labelsDiffer_of_nodup (h : ∀ b < f.nodes.length, ((f.children b).map f.label).Nodup) (a : Nat) :
    f.LabelsDiffer a := by
  intro path b _
  by_cases hb : b < f.nodes.length
  · exact h b hb
  · rw [children_of_length_le (Nat.not_lt.mp hb)]
    exact List.nodup_nil

/-- The allocator under which `i` was made. -/
def parent? (f : Forest) (i : Nat) : Option Nat := (f.get? i).bind (·.above.head?)

/-- No two allocators that were made under the same parent share a label. -/
def SiblingsDiffer (f : Forest) : Prop :=
  ∀ i < f.nodes.length, ∀ j < f.nodes.length, (f.parent? i).isSome = true → f.parent? i = f.parent? j →
    f.label i = f.label j → i = j

instance (f : Forest) : Decidable f.SiblingsDiffer :=
  inferInstanceAs (Decidable (∀ i < f.nodes.length, ∀ j < f.nodes.length,
    (f.parent? i).isSome = true → f.parent? i = f.parent? j → f.label i = f.label j → i = j))

theorem SiblingsDiffer.eq (h : f.SiblingsDiffer) {i j p : Nat} {x y : Allocator} (hx : f.get? i = some x)
    (hy : f.get? j = some y) (hxp : x.above.head? = some p) (hyp : y.above.head? = some p)
    (hlabel : x.label = y.label) : i = j := by
  refine h i (lt_length_of_get? hx) j (lt_length_of_get? hy) ?_ ?_ ?_
  · rw [parent?, hx, Option.bind_some, hxp, Option.isSome_some]
  · rw [parent?, parent?, hx, hy, Option.bind_some, Option.bind_some, hxp, hyp]
  · rw [label_of_get? hx, label_of_get? hy, hlabel]

/-- Allocators that were there before had different labels then. -/
theorem SiblingsDiffer.of_evolves (h : g.SiblingsDiffer) (hev : f.Evolves g) : f.SiblingsDiffer := by
  intro i hi j hj hsome hparent hlabel
  obtain ⟨x, hx⟩ := exists_get?_of_lt hi
  obtain ⟨y, hy⟩ := exists_get?_of_lt hj
  obtain ⟨p, hp⟩ := Option.isSome_iff_exists.mp hsome
  have hxp : x.above.head? = some p := by simpa [parent?, hx] using hp
  have hyp : y.above.head? = some p := by simpa [parent?, hy] using hparent.symm.trans hp
  obtain ⟨x', hx', hxx'⟩ := hev.old i x hx
  obtain ⟨y', hy', hyy'⟩ := hev.old j y hy
  refine h.eq hx' hy' (hxx'.above_eq ▸ hxp) (hyy'.above_eq ▸ hyp) ?_
  rw [hxx'.label_eq, hyy'.label_eq, ← label_of_get? hx, ← label_of_get? hy, hlabel]

theorem SiblingsDiffer.labelsDiffer (h : f.SiblingsDiffer) (hr : f.Recorded) (a : Nat) :
    f.LabelsDiffer a := by
  intro path b _
  refine (List.nodup_map_iff_inj_on (nodup_children hr b)).mpr fun c hc d hd hlabel => ?_
  obtain ⟨x, hx, -, hxb⟩ := (mem_children_iff hr).mp hc
  obtain ⟨y, hy, -, hyb⟩ := (mem_children_iff hr).mp hd
  rw [label_of_get? hx, label_of_get? hy] at hlabel
  exact h.eq hx hy hxb hyb hlabel

/-- Labels lead to the same allocator at any two times. -/
theorem Reaches.unique {k : Forest} (hdiffer : k.SiblingsDiffer) (hf : f.Recorded) (hg : g.Recorded)
    (hfk : f.Evolves k) (hgk : g.Evolves k) {a b c : Nat} {path : List String}
    (hb : f.Reaches a path b) (hc : g.Reaches a path c) : b = c := by
  induction path generalizing a with
  | nil => rw [reaches_nil_iff.mp hb, reaches_nil_iff.mp hc]
  | cons name path ih =>
    obtain ⟨d, hd, hdname, hb⟩ := reaches_cons_iff.mp hb
    obtain ⟨e, he, hename, hc⟩ := reaches_cons_iff.mp hc
    obtain ⟨x, hx, -, hxa⟩ := (mem_children_iff hf).mp hd
    obtain ⟨y, hy, -, hya⟩ := (mem_children_iff hg).mp he
    obtain ⟨x', hx', hxx'⟩ := hfk.old d x hx
    obtain ⟨y', hy', hyy'⟩ := hgk.old e y hy
    rw [label_of_get? hx] at hdname
    rw [label_of_get? hy] at hename
    obtain rfl : d = e := hdiffer.eq hx' hy' (hxx'.above_eq ▸ hxa) (hyy'.above_eq ▸ hya)
      (by rw [hxx'.label_eq, hyy'.label_eq, hdname, hename])
    exact ih hb hc

/-- What was reached is reached later on, unless it or something on the way to it is not alive any more. -/
theorem Reaches.still (hf : f.Recorded) (hg : g.Recorded) (hev : f.Evolves g) {a b : Nat}
    {path : List String} (h : f.Reaches a path b) :
    g.Reaches a path b ∨ ∃ front d y, front ≠ [] ∧ front <+: path ∧ f.Reaches a front d ∧
      g.get? d = some y ∧ y.isLive = false := by
  induction h with
  | here a => exact Or.inl (.here a)
  | @down a c b path hc hb ih =>
    obtain ⟨x, hx, -, hxa⟩ := (mem_children_iff hf).mp hc
    obtain ⟨y, hy, hxy⟩ := hev.old c x hx
    cases hlive : y.isLive with
    | false =>
      exact Or.inr ⟨[f.label c], c, y, by simp, ⟨path, rfl⟩, .down hc (.here c), hy, hlive⟩
    | true =>
      have hc' : c ∈ g.children a := (mem_children_iff hg).mpr ⟨y, hy, hlive, hxy.above_eq ▸ hxa⟩
      have hlabel : g.label c = f.label c := by
        rw [label_of_get? hy, label_of_get? hx, hxy.label_eq]
      rcases ih with hstill | ⟨front, d, z, hne, hfront, hd, hz, hdead⟩
      · exact Or.inl (hlabel ▸ .down hc' hstill)
      · refine Or.inr ⟨f.label c :: front, d, z, by simp, ?_, .down hc hd, hz, hdead⟩
        exact (List.cons_prefix_cons).mpr ⟨rfl, hfront⟩

end Forest

end FragmentHost

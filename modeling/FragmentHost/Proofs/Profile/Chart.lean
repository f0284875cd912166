import FragmentHost.Proofs.Memory.Children
import FragmentHost.Proofs.Profile.Nodes

/-!
# What a chart makes of a profile

Charting an allocator goes down two trees at once, the allocators that are seen from it and the nodes of the
profile. Where labels differ, the labels on the way to an allocator lead to the node that is charted for it,
and what is found there is what was found before with the entries of this allocator and of those below it
(`find?_chart`); any other path leads to what it led to before (`find?_chart_of_not_reaches`). All that can be
said of the profile afterwards follows (`Mirrors`).
-/

namespace FragmentHost.Profile

variable {p q x y : Profile} {f : Forest} {a b : Nat}

-- ---------------------------------------------------------------------------
-- The entries of one node
-- ---------------------------------------------------------------------------

/-- The node has the entries of allocator `b`. -/
structure Shows (y : Profile) (f : Forest) (b : Nat) : Prop where
  label : y.info? "Label" = some (f.label b)
  current : y.value? "CurrentMemoryBytes" = some (f.current b)
  peak : y.value? "PeakMemoryBytes" = some (f.peak b)

/-- The node has the entries of allocator `b` and nothing else. -/
structure ShowsOnly (y : Profile) (f : Forest) (b : Nat) : Prop where
  infos : y.infos = [("Label", f.label b)]
  counters : y.counters =
    [("CurrentMemoryBytes", ⟨.bytes, f.current b⟩), ("PeakMemoryBytes", ⟨.bytes, f.peak b⟩)]

/-- From `x` to `y` a node changed in the entries of a chart alone, and new children came after the others. -/
structure Keeps (x y : Profile) : Prop where
  name : y.name = x.name
  info : ∀ key, key ≠ "Label" → y.info? key = x.info? key
  counter : ∀ name, name ≠ "CurrentMemoryBytes" → name ≠ "PeakMemoryBytes" →
    y.counter? name = x.counter? name
  /-- A counter keeps its unit, whatever is written into it. -/
  unit : ∀ name c, x.counter? name = some c → (y.counter? name).map (·.unit) = some c.unit
  children : x.childNames <+: y.childNames

theorem Keeps.refl (x : Profile) : x.Keeps x :=
  ⟨rfl, fun _ _ => rfl, fun _ _ _ => rfl, fun _ c hc => by rw [hc]; rfl, List.prefix_rfl⟩

@[simp] theorem infos_chartEntry (x : Profile) (label : String) (current peak : Int) :
    (x.chartEntry label current peak).infos = x.infos.put "Label" label := rfl

@[simp] theorem counters_chartEntry (x : Profile) (label : String) (current peak : Int) :
    (x.chartEntry label current peak).counters =
      (x.counters.alter "CurrentMemoryBytes" fun c => (c.getD { unit := .bytes }).set current).alter
        "PeakMemoryBytes" fun c => (c.getD { unit := .bytes }).set peak := rfl

@[simp] theorem infos_chartAll (x : Profile) (os : List Outline) : (x.chartAll os).infos = x.infos := by
  induction os generalizing x with
  | nil => rw [chartAll_nil]
  | cons o rest ih => rw [chartAll_cons, ih, infos_modifyChild, infos_ensureChild]

@[simp] theorem counters_chartAll (x : Profile) (os : List Outline) :
    (x.chartAll os).counters = x.counters := by
  induction os generalizing x with
  | nil => rw [chartAll_nil]
  | cons o rest ih => rw [chartAll_cons, ih, counters_modifyChild, counters_ensureChild]

-- ---------------------------------------------------------------------------
-- Outlines with different labels
-- ---------------------------------------------------------------------------

/-- A name that no outline has is not charted. -/
theorem child?_chartAll_of_notMem (x : Profile) {os : List Outline} {name : String}
    (h : name ∉ os.map Outline.label) : (x.chartAll os).child? name = x.child? name := by
  induction os generalizing x with
  | nil => rw [chartAll_nil]
  | cons o rest ih =>
    obtain ⟨hne, hrest⟩ := not_or.mp (mt List.mem_cons.mpr h)
    rw [chartAll_cons, ih _ hrest, child?_enter _ _ _ (name_chart · o), if_neg hne]

/-- Each outline is charted in its own child, whatever else is charted before and after. -/
theorem child?_chartAll_of_mem (x : Profile) {os : List Outline} {o : Outline}
    (hnodup : (os.map Outline.label).Nodup) (ho : o ∈ os) :
    (x.chartAll os).child? o.label = some (((x.child? o.label).getD (empty o.label)).chart o) := by
  induction os generalizing x with
  | nil => simp at ho
  | cons first rest ih =>
    obtain ⟨hfirst, hrest⟩ := List.nodup_cons.mp hnodup
    rw [chartAll_cons]
    rcases List.mem_cons.mp ho with rfl | ho
    · rw [child?_chartAll_of_notMem _ hfirst, child?_enter _ _ _ (name_chart · o), if_pos rfl]
    · have hne : o.label ≠ first.label :=
        fun h => hfirst (h ▸ List.mem_map_of_mem ho)
      rw [ih _ hrest ho, child?_enter _ _ _ (name_chart · first), if_neg hne]

/-- Children that existed keep their order, and the new ones follow in the order of the outlines. -/
theorem childNames_chartAll (x : Profile) {os : List Outline} (hnodup : (os.map Outline.label).Nodup) :
    (x.chartAll os).childNames =
      x.childNames ++ (os.map Outline.label).filter (fun name => name ∉ x.childNames) := by
  induction os generalizing x with
  | nil => simp
  | cons o rest ih =>
    obtain ⟨hfirst, hrest⟩ := List.nodup_cons.mp hnodup
    rw [chartAll_cons, ih _ hrest, childNames_enter _ _ (name_chart · o), List.append_assoc,
      List.map_cons, List.filter_cons]
    congr 1
    by_cases hmem : o.label ∈ x.childNames
    · simp [hmem]
    · -- the child that was just added is not among the others
      have hsame : (rest.map Outline.label).filter (fun name => name ∉ x.childNames ++ [o.label]) =
          (rest.map Outline.label).filter (fun name => name ∉ x.childNames) := by
        refine List.filter_congr fun name hname => ?_
        have hne : name ≠ o.label := fun h => hfirst (h ▸ hname)
        simp [hne]
      rw [if_neg hmem, hsame, if_pos (by simpa using hmem), List.singleton_append]

-- ---------------------------------------------------------------------------
-- Allocators and their nodes
-- ---------------------------------------------------------------------------

theorem label_outline (hl : f.Linked) (hr : f.Recorded) (i : Nat) : (f.outline i).label = f.label i := by
  rw [Forest.outline_eq hl hr]
  rfl

theorem labels_outlines (hl : f.Linked) (hr : f.Recorded) (i : Nat) :
    ((f.children i).map f.outline).map Outline.label = (f.children i).map f.label := by
  rw [List.map_map]
  exact List.map_congr_left fun c _ => label_outline hl hr c

theorem nodup_labels_outlines (hl : f.Linked) (hr : f.Recorded) (hdiffer : f.LabelsDiffer b) :
    (((f.children b).map f.outline).map Outline.label).Nodup := by
  rw [labels_outlines hl hr]
  exact hdiffer.nodup

/-- An allocator is charted by its own entries and by the outlines of its children. -/
theorem chart_outline (hl : f.Linked) (hr : f.Recorded) (x : Profile) (b : Nat) :
    x.chart (f.outline b) =
      (x.chartEntry (f.label b) (f.current b) (f.peak b)).chartAll ((f.children b).map f.outline) := by
  rw [Forest.outline_eq hl hr, chart]

theorem child?_chart_of_mem (hl : f.Linked) (hr : f.Recorded) (hdiffer : f.LabelsDiffer b) (x : Profile)
    {c : Nat} (hc : c ∈ f.children b) :
    (x.chart (f.outline b)).child? (f.label c) =
      some (((x.child? (f.label c)).getD (empty (f.label c))).chart (f.outline c)) := by
  have hchild := child?_chartAll_of_mem (x.chartEntry (f.label b) (f.current b) (f.peak b))
    (nodup_labels_outlines hl hr hdiffer) (List.mem_map_of_mem hc)
  rw [label_outline hl hr] at hchild
  rw [chart_outline hl hr]
  exact hchild

theorem child?_chart_of_notMem (hl : f.Linked) (hr : f.Recorded) (x : Profile) {name : String}
    (hname : name ∉ (f.children b).map f.label) :
    (x.chart (f.outline b)).child? name = x.child? name := by
  rw [← labels_outlines hl hr] at hname
  rw [chart_outline hl hr, child?_chartAll_of_notMem _ hname]
  rfl

/-- The labels that lead to an allocator lead to the node where it is charted. -/
theorem find?_chart (hl : f.Linked) (hr : f.Recorded) (hdiffer : f.LabelsDiffer a) (p : Profile)
    {path : List String} (h : f.Reaches a path b) :
    (p.chart (f.outline a)).find? path = some ((p.nodeAt path).chart (f.outline b)) := by
  induction h generalizing p with
  | here a => rfl
  | down hc _ ih =>
    rw [find?_cons_of_child? (child?_chart_of_mem hl hr hdiffer p hc), ih (hdiffer.child hc), nodeAt]

/-- Names that lead to no allocator lead to what they led to before. -/
theorem find?_chart_of_not_reaches (hl : f.Linked) (hr : f.Recorded) (hdiffer : f.LabelsDiffer a)
    (p : Profile) {path : List String} (h : ∀ b, ¬ f.Reaches a path b) :
    (p.chart (f.outline a)).find? path = p.find? path := by
  induction path generalizing p a with
  | nil => exact absurd (.here a) (h a)
  | cons name rest ih =>
    by_cases hname : name ∈ (f.children a).map f.label
    · obtain ⟨c, hc, rfl⟩ := List.mem_map.mp hname
      have hbelow : ∀ b, ¬ f.Reaches c rest b := fun b hb => h b (.down hc hb)
      rw [find?_cons_of_child? (child?_chart_of_mem hl hr hdiffer p hc), ih (hdiffer.child hc) _ hbelow]
      cases hchild : p.child? (f.label c) with
      | some d => rw [Option.getD_some, find?_cons_of_child? hchild]
      | none =>
        -- the allocator itself is reached, so that the path goes on below the new node
        have hrest : rest ≠ [] := fun hnil => hbelow c (hnil ▸ .here c)
        rw [Option.getD_none, find?_empty_of_ne _ hrest, find?_cons, hchild, Option.bind_none]
    · rw [find?_cons, child?_chart_of_notMem hl hr p hname, ← find?_cons]

-- ---------------------------------------------------------------------------
-- Single nodes
-- ---------------------------------------------------------------------------

theorem infos_chart (hl : f.Linked) (hr : f.Recorded) (x : Profile) (b : Nat) :
    (x.chart (f.outline b)).infos = x.infos.put "Label" (f.label b) := by
  rw [chart_outline hl hr, infos_chartAll, infos_chartEntry]

theorem counters_chart (hl : f.Linked) (hr : f.Recorded) (x : Profile) (b : Nat) :
    (x.chart (f.outline b)).counters =
      (x.counters.alter "CurrentMemoryBytes" fun c => (c.getD { unit := .bytes }).set (f.current b)).alter
        "PeakMemoryBytes" fun c => (c.getD { unit := .bytes }).set (f.peak b) := by
  rw [chart_outline hl hr, counters_chartAll, counters_chartEntry]

theorem childNames_chart (hl : f.Linked) (hr : f.Recorded) (hdiffer : f.LabelsDiffer b) (x : Profile) :
    (x.chart (f.outline b)).childNames =
      x.childNames ++ ((f.children b).map f.label).filter (fun name => name ∉ x.childNames) := by
  rw [chart_outline hl hr, childNames_chartAll _ (nodup_labels_outlines hl hr hdiffer),
    labels_outlines hl hr]
  rfl

theorem peak_ne_current : "PeakMemoryBytes" ≠ "CurrentMemoryBytes" := by decide

/-- A node that the chart makes has nothing else. -/
theorem showsOnly_chart_empty (hl : f.Linked) (hr : f.Recorded) (name : String) (b : Nat) :
    ((empty name).chart (f.outline b)).ShowsOnly f b := by
  refine ⟨infos_chart hl hr _ b, ?_⟩
  rw [counters_chart hl hr]
  exact if_neg peak_ne_current

/-- Where an allocator was charted before, its entries are replaced. -/
theorem ShowsOnly.chart {g : Forest} {c : Nat} (h : x.ShowsOnly g c) (hl : f.Linked) (hr : f.Recorded)
    (b : Nat) : (x.chart (f.outline b)).ShowsOnly f b := by
  refine ⟨?_, ?_⟩
  · rw [infos_chart hl hr, h.infos]
    exact Dictionary.alter_cons_self _ _ _ _
  · rw [counters_chart hl hr, h.counters]
    simp [Assoc.alter, peak_ne_current, Counter.set]

theorem shows_chart (hl : f.Linked) (hr : f.Recorded) (hx : x.Proper) (b : Nat) :
    (x.chart (f.outline b)).Shows f b := by
  constructor
  case label =>
    rw [info?, infos_chart hl hr]
    exact Dictionary.get?_alter_self hx.tidy.infos _ _
  case current =>
    rw [value?, counter?, counters_chart hl hr, Assoc.get?_alter_of_ne peak_ne_current.symm,
      Assoc.get?_alter_self]
    rfl
  case peak =>
    rw [value?, counter?, counters_chart hl hr, Assoc.get?_alter_self]
    rfl

theorem keeps_chart (hl : f.Linked) (hr : f.Recorded) (hdiffer : f.LabelsDiffer b) (x : Profile) :
    x.Keeps (x.chart (f.outline b)) := by
  have hcounter : ∀ name, name ≠ "CurrentMemoryBytes" → name ≠ "PeakMemoryBytes" →
      (x.chart (f.outline b)).counter? name = x.counter? name := by
    intro name hcurrent hpeak
    rw [counter?, counters_chart hl hr, Assoc.get?_alter_of_ne hpeak,
      Assoc.get?_alter_of_ne hcurrent, counter?]
  constructor
  case name => exact name_chart x _
  case info =>
    intro key hkey
    rw [info?, infos_chart hl hr]
    exact Dictionary.get?_alter_of_ne hkey _
  case counter => exact hcounter
  case unit =>
    intro name c hc
    by_cases hpeak : name = "PeakMemoryBytes"
    · subst hpeak
      rw [counter?, counters_chart hl hr, Assoc.get?_alter_self,
        Assoc.get?_alter_of_ne peak_ne_current, ← counter?, hc]
      rfl
    · by_cases hcurrent : name = "CurrentMemoryBytes"
      · subst hcurrent
        rw [counter?, counters_chart hl hr, Assoc.get?_alter_of_ne peak_ne_current.symm,
          Assoc.get?_alter_self, ← counter?, hc]
        rfl
      · rw [hcounter name hcurrent hpeak, hc]
        rfl
  case children =>
    rw [childNames_chart hl hr hdiffer]
    exact List.prefix_append _ _

-- ---------------------------------------------------------------------------
-- The whole profile
-- ---------------------------------------------------------------------------

/-- `q` is `p` with allocator `a` of `f`, and all those that are seen from it, on display below the node for
memory; nothing else has changed. -/
structure Mirrors (f : Forest) (a : Nat) (p q : Profile) : Prop where
  /-- Every allocator has its node. -/
  shown : ∀ path b, f.Reaches a path b → ∃ y, q.find? (chartNode :: path) = some y ∧ y.Shows f b
  /-- A node that was there is still there, with all it had besides the entries of the chart. -/
  kept : ∀ place x, p.find? place = some x → ∃ y, q.find? place = some y ∧ x.Keeps y
  /-- A node that was not there is that of an allocator and has nothing but its entries and its children. -/
  made : ∀ place y, p.find? place = none → q.find? place = some y →
    ∃ path b, place = chartNode :: path ∧ f.Reaches a path b ∧ y.ShowsOnly f b ∧
      y.childNames = (f.children b).map f.label
  /-- Places that no labels lead to are as before, with all that is below them. -/
  elsewhere : ∀ place, place ≠ [] → (∀ path b, place = chartNode :: path → ¬ f.Reaches a path b) →
    q.find? place = p.find? place
  /-- Nothing is written at the top. -/
  top : q.infos = p.infos ∧ q.counters = p.counters
  /-- No node is there twice. -/
  proper : q.Proper

theorem find?_attachMemory (hl : f.Linked) (hr : f.Recorded) (hdiffer : f.LabelsDiffer a) (p : Profile)
    {path : List String} (h : f.Reaches a path b) :
    (p.attachMemory (f.outline a)).find? (chartNode :: path) =
      some ((p.nodeAt (chartNode :: path)).chart (f.outline b)) := by
  have hchild : (p.attachMemory (f.outline a)).child? chartNode =
      some (((p.child? chartNode).getD (empty chartNode)).chart (f.outline a)) := by
    rw [attachMemory, child?_enter _ _ _ (name_chart · _), if_pos rfl]
  rw [find?_cons_of_child? hchild, find?_chart hl hr hdiffer _ h, nodeAt]

theorem find?_attachMemory_of_not_reaches (hl : f.Linked) (hr : f.Recorded) (hdiffer : f.LabelsDiffer a)
    (p : Profile) {place : List String} (hplace : place ≠ [])
    (h : ∀ path b, place = chartNode :: path → ¬ f.Reaches a path b) :
    (p.attachMemory (f.outline a)).find? place = p.find? place := by
  obtain ⟨name, rest, rfl⟩ := List.exists_cons_of_ne_nil hplace
  rw [find?_cons, find?_cons, attachMemory, child?_enter _ _ _ (name_chart · _)]
  split
  · next hname =>
    subst hname
    have hbelow : ∀ b, ¬ f.Reaches a rest b := fun b => h rest b rfl
    rw [Option.bind_some, find?_chart_of_not_reaches hl hr hdiffer _ hbelow]
    cases hchild : p.child? chartNode with
    | some c => rw [Option.getD_some, Option.bind_some]
    | none =>
      have hrest : rest ≠ [] := fun hnil => hbelow a (hnil ▸ .here a)
      rw [Option.getD_none, find?_empty_of_ne _ hrest, Option.bind_none]
  · rfl

theorem mirrors_of_linked (hl : f.Linked) (hr : f.Recorded) (hdiffer : f.LabelsDiffer a) (hp : p.Proper) :
    Mirrors f a p (p.attachMemory (f.outline a)) := by
  have helsewhere : ∀ place, place ≠ [] → (∀ path b, place = chartNode :: path → ¬ f.Reaches a path b) →
      (p.attachMemory (f.outline a)).find? place = p.find? place :=
    fun place => find?_attachMemory_of_not_reaches hl hr hdiffer p
  have htop : (p.attachMemory (f.outline a)).infos = p.infos ∧
      (p.attachMemory (f.outline a)).counters = p.counters := by
    simp [attachMemory]
  constructor
  case shown =>
    intro path b hb
    exact ⟨_, find?_attachMemory hl hr hdiffer p hb, shows_chart hl hr (hp.nodeAt _) b⟩
  case kept =>
    intro place x hx
    by_cases hreached : ∃ path b, place = chartNode :: path ∧ f.Reaches a path b
    · obtain ⟨path, b, rfl, hb⟩ := hreached
      refine ⟨_, find?_attachMemory hl hr hdiffer p hb, ?_⟩
      rw [nodeAt_of_find? hx]
      exact keeps_chart hl hr (hdiffer.of_reaches hb) x
    · by_cases hplace : place = []
      · subst hplace
        obtain rfl : p = x := Option.some.inj hx
        refine ⟨_, rfl, name_attachMemory p _, fun key _ => by rw [info?, htop.1, info?],
          fun name _ _ => by rw [counter?, htop.2, counter?], fun name c hc => ?_, ?_⟩
        · rw [counter?, htop.2, ← counter?, hc, Option.map_some]
        · rw [attachMemory, childNames_enter _ _ (name_chart · _)]
          exact List.prefix_append _ _
      · refine ⟨x, ?_, .refl x⟩
        rw [helsewhere place hplace fun path b hpath hb => hreached ⟨path, b, hpath, hb⟩, hx]
  case made =>
    intro place y hnone hy
    have hplace : place ≠ [] := by
      rintro rfl
      simp at hnone
    by_cases hreached : ∃ path b, place = chartNode :: path ∧ f.Reaches a path b
    · obtain ⟨path, b, rfl, hb⟩ := hreached
      obtain ⟨name, hname⟩ := nodeAt_of_find?_none hnone
      rw [find?_attachMemory hl hr hdiffer p hb, hname] at hy
      obtain rfl := Option.some.inj hy
      refine ⟨path, b, rfl, hb, showsOnly_chart_empty hl hr name b, ?_⟩
      rw [childNames_chart hl hr (hdiffer.of_reaches hb)]
      simp
    · rw [helsewhere place hplace fun path b hpath hb => hreached ⟨path, b, hpath, hb⟩, hnone] at hy
      simp at hy
  case elsewhere => exact helsewhere
  case top => exact htop
  case proper => exact hp.attachMemory _

/-- At any point of any run, charting an allocator whose allocators below have different labels puts all of
them on display in any profile, and nothing else of the profile changes. -/
theorem mirrors_attachMemory (calls : List AllocatorCall) (a : Nat)
    (hdiffer : (Forest.performAll {} calls).LabelsDiffer a) (hp : p.Proper) :
    Mirrors (Forest.performAll {} calls) a p
      (p.attachMemory ((Forest.performAll {} calls).outline a)) :=
  mirrors_of_linked (Forest.linked_performAll calls) (Forest.recorded_performAll calls) hdiffer hp

/-- A fragment with two allocators below it, in a profile where one of them had a node with a counter of
another unit. -/
theorem mirrors_attachMemory_fragment :
    let calls : List AllocatorCall := [.root "process" (-1), .child 0 "fragment" 0 (-1) true,
      .child 1 "scan" 0 (-1) true, .child 1 "join" 0 (-1) true, .consume 2 100, .consume 3 7, .release 3 7]
    let older : List ProfileCall := [.child [] chartNode, .info [chartNode] "Note" "kept",
      .child [chartNode] "join", .counter [chartNode, "join"] "CurrentMemoryBytes" .count, .child [] "timers"]
    (Forest.performAll {} calls).LabelsDiffer 1 ∧ ((empty "query").performAll older).Proper ∧
      Mirrors (Forest.performAll {} calls) 1 ((empty "query").performAll older)
        (((empty "query").performAll older).attachMemory ((Forest.performAll {} calls).outline 1)) := by
  intro calls older
  have hdiffer : (Forest.performAll {} calls).LabelsDiffer 1 :=
    Forest.labelsDiffer_of_nodup (by decide) 1
  have hproper := proper_performAll "query" older
  exact ⟨hdiffer, hproper, mirrors_attachMemory calls 1 hdiffer hproper⟩

end FragmentHost.Profile

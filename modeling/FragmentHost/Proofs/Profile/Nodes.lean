import FragmentHost.Profile.MemoryChart
import Mathlib.Data.List.Induction
import Mathlib.Data.List.Nodup

/-!
# Nodes of a profile

A node is known by the names on the way to it. Asking for a child leaves every other child as it is, and so
does a change of one child that keeps its name (`child?_modifyChild`, `child?_ensureChild`). In every profile
that calls lead to, no two children of a node have the same name, no two counters either, and the texts are in
the order of their keys (`Proper`, `proper_performAll`).
-/

namespace FragmentHost.Profile

/-- The names of the children, in order. -/
def childNames (p : Profile) : List String := p.children.map (·.name)

/-- What the names of `path` lead to, with the nodes on the way made where they are missing. -/
def nodeAt (p : Profile) : (path : List String) → Profile
  | [] => p
  | name :: rest => ((p.child? name).getD (empty name)).nodeAt rest

variable {p q c : Profile} {name other : String}

-- ---------------------------------------------------------------------------
-- Fields
-- ---------------------------------------------------------------------------

@[simp] theorem name_empty (name : String) : (empty name).name = name := rfl

@[simp] theorem childNames_empty (name : String) : (empty name).childNames = [] := rfl

@[simp] theorem child?_empty (name other : String) : (empty name).child? other = none := rfl

@[simp] theorem name_setInfo (p : Profile) (key value : String) : (p.setInfo key value).name = p.name :=
  rfl

@[simp] theorem name_modifyCounter (p : Profile) (name : String) (unit : CounterUnit)
    (change : Counter → Counter) : (p.modifyCounter name unit change).name = p.name := rfl

@[simp] theorem name_modifyChild (p : Profile) (name : String) (change : Profile → Profile) :
    (p.modifyChild name change).name = p.name := rfl

@[simp] theorem infos_modifyChild (p : Profile) (name : String) (change : Profile → Profile) :
    (p.modifyChild name change).infos = p.infos := rfl

@[simp] theorem counters_modifyChild (p : Profile) (name : String) (change : Profile → Profile) :
    (p.modifyChild name change).counters = p.counters := rfl

@[simp] theorem name_ensureChild (p : Profile) (name : String) : (p.ensureChild name).name = p.name := by
  unfold ensureChild
  split <;> rfl

@[simp] theorem infos_ensureChild (p : Profile) (name : String) :
    (p.ensureChild name).infos = p.infos := by
  unfold ensureChild
  split <;> rfl

@[simp] theorem counters_ensureChild (p : Profile) (name : String) :
    (p.ensureChild name).counters = p.counters := by
  unfold ensureChild
  split <;> rfl

-- ---------------------------------------------------------------------------
-- Children
-- ---------------------------------------------------------------------------

theorem name_of_child? (h : p.child? name = some c) : c.name = name := by
  simpa using List.find?_some h

theorem child?_eq_none_iff : p.child? name = none ↔ name ∉ p.childNames := by
  simp [child?, childNames]

/-- The order of the children stays, and new ones come last. -/
theorem childNames_ensureChild (p : Profile) (name : String) :
    (p.ensureChild name).childNames = p.childNames ++ if name ∈ p.childNames then [] else [name] := by
  unfold ensureChild
  split
  · next c hc =>
    have hmem : name ∈ p.childNames := by
      by_contra hnone
      simp [child?_eq_none_iff.mpr hnone] at hc
    rw [if_pos hmem, List.append_nil]
  · next hnone =>
    rw [if_neg (child?_eq_none_iff.mp hnone)]
    simp [childNames, children]

theorem childNames_modifyChild (p : Profile) (name : String) {change : Profile → Profile}
    (hname : ∀ c, (change c).name = c.name) : (p.modifyChild name change).childNames = p.childNames := by
  simp only [childNames, modifyChild, children, List.map_map]
  refine List.map_congr_left fun c _ => ?_
  simp only [Function.comp_apply]
  split
  · exact hname c
  · rfl

theorem child?_ensureChild (p : Profile) (name other : String) :
    (p.ensureChild name).child? other =
      if other = name then some ((p.child? name).getD (empty name)) else p.child? other := by
  unfold ensureChild
  split
  · next c hc =>
    split
    · next h => simp [h, hc]
    · rfl
  · have hlast : (node p.name p.infos p.counters (p.children ++ [empty name])).child? other =
        (p.child? other).or (if name = other then some (empty name) else none) := by
      refine List.find?_append.trans ?_
      simp [child?]
    rw [hlast]
    split
    · next h => simp [h]
    · next h => simp [Ne.symm h]

/-- A change of the child called `name` is seen at that child alone. -/
theorem child?_modifyChild (p : Profile) (name other : String) {change : Profile → Profile}
    (hname : ∀ c, (change c).name = c.name) :
    (p.modifyChild name change).child? other =
      if other = name then (p.child? name).map change else p.child? other := by
  have hnames (c : Profile) : (if c.name == name then change c else c).name = c.name := by
    split
    · exact hname c
    · rfl
  have hfind : (p.modifyChild name change).child? other =
      (p.child? other).map fun c => if c.name == name then change c else c := by
    simp only [child?, modifyChild, children, List.find?_map]
    congr 2
    funext c
    rw [Function.comp_apply, hnames c]
  rw [hfind]
  cases hc : p.child? other with
  | none =>
    split
    · next h => simp [← h, hc]
    · rfl
  | some c =>
    have hcname := name_of_child? hc
    split
    · next h => simp [← h, hc, hcname]
    · next h => simp [hcname, h]

/-- A child that is asked for and then changed. -/
theorem child?_enter (p : Profile) (name other : String) {change : Profile → Profile}
    (hname : ∀ c, (change c).name = c.name) :
    ((p.ensureChild name).modifyChild name change).child? other =
      if other = name then some (change ((p.child? name).getD (empty name))) else p.child? other := by
  rw [child?_modifyChild _ _ _ hname, child?_ensureChild, child?_ensureChild]
  split
  · rw [if_pos rfl, Option.map_some]
  · rfl

theorem childNames_enter (p : Profile) (name : String) {change : Profile → Profile}
    (hname : ∀ c, (change c).name = c.name) :
    ((p.ensureChild name).modifyChild name change).childNames =
      p.childNames ++ if name ∈ p.childNames then [] else [name] := by
  rw [childNames_modifyChild _ _ hname, childNames_ensureChild]

-- ---------------------------------------------------------------------------
-- Paths
-- ---------------------------------------------------------------------------

@[simp] theorem find?_nil (p : Profile) : p.find? [] = some p := rfl

theorem find?_cons (p : Profile) (name : String) (rest : List String) :
    p.find? (name :: rest) = (p.child? name).bind (find? · rest) := rfl

theorem find?_cons_of_child? (h : p.child? name = some c) (rest : List String) :
    p.find? (name :: rest) = c.find? rest := by
  rw [find?_cons, h, Option.bind_some]

theorem find?_append (p : Profile) (path rest : List String) :
    p.find? (path ++ rest) = (p.find? path).bind (find? · rest) := by
  induction path generalizing p with
  | nil => rfl
  | cons name path ih => simp only [List.cons_append, find?_cons, Option.bind_assoc, ih]

/-- There is nothing below a node without content. -/
theorem find?_empty_of_ne (name : String) {path : List String} (h : path ≠ []) :
    (empty name).find? path = none := by
  cases path with
  | nil => exact absurd rfl h
  | cons other rest => rfl

theorem nodeAt_of_find? {path : List String} (h : p.find? path = some q) : p.nodeAt path = q := by
  induction path generalizing p with
  | nil => exact Option.some.inj h
  | cons name rest ih =>
    rw [find?_cons] at h
    obtain ⟨c, hc, hrest⟩ := Option.bind_eq_some_iff.mp h
    rw [nodeAt, hc, Option.getD_some, ih hrest]

/-- What is made where nothing is has no content. -/
theorem nodeAt_empty (name : String) (path : List String) : ∃ last, (empty name).nodeAt path = empty last := by
  induction path generalizing name with
  | nil => exact ⟨name, rfl⟩
  | cons other rest ih => exact ih other

theorem nodeAt_of_find?_none {path : List String} (h : p.find? path = none) :
    ∃ last, p.nodeAt path = empty last := by
  induction path generalizing p with
  | nil => simp at h
  | cons name rest ih =>
    rw [nodeAt]
    cases hc : p.child? name with
    | some c => exact ih ((find?_cons_of_child? hc rest) ▸ h)
    | none => exact nodeAt_empty name rest

/-- There is a node for each of the children. -/
theorem isSome_find?_concat {path : List String} :
    (p.find? (path ++ [name])).isSome ↔ name ∈ (p.nodeAt path).childNames := by
  rw [find?_append]
  cases hq : p.find? path with
  | none =>
    obtain ⟨last, hlast⟩ := nodeAt_of_find?_none hq
    simp [hlast]
  | some q =>
    rw [nodeAt_of_find? hq, Option.bind_some, find?_cons, Option.isSome_bind]
    simp only [find?_nil, Option.isSome_some, Option.any_true]
    rw [← not_iff_not, Option.not_isSome_iff_eq_none, child?_eq_none_iff]

theorem name_modify (p : Profile) (path : List String) {change : Profile → Profile}
    (hname : ∀ c, (change c).name = c.name) : (p.modify path change).name = p.name := by
  cases path with
  | nil => exact hname p
  | cons name rest => rfl

theorem find?_modify_self {path : List String} {change : Profile → Profile}
    (hname : ∀ c, (change c).name = c.name) (h : p.find? path = some q) :
    (p.modify path change).find? path = some (change q) := by
  induction path generalizing p with
  | nil => exact congrArg (some ∘ change) (Option.some.inj h)
  | cons name rest ih =>
    rw [find?_cons] at h
    obtain ⟨c, hc, h⟩ := Option.bind_eq_some_iff.mp h
    have hnames (c : Profile) : (c.modify rest change).name = c.name := name_modify c rest hname
    rw [modify, find?_cons, child?_modifyChild _ _ _ hnames, if_pos rfl, hc, Option.map_some,
      Option.bind_some, ih h]

/-- Two nodes have the same by themselves; what is below them may differ. -/
structure SameOwn (p q : Profile) : Prop where
  name : q.name = p.name
  infos : q.infos = p.infos
  counters : q.counters = p.counters
  childNames : q.childNames = p.childNames

theorem SameOwn.refl (p : Profile) : p.SameOwn p := ⟨rfl, rfl, rfl, rfl⟩

/-- A change of one node that keeps what is below it shows at no other node. -/
theorem sameOwn_nodeAt_modify {path place : List String} {change : Profile → Profile}
    (hname : ∀ c, (change c).name = c.name)
    (hbelow : ∀ c name, ((change c).child? name).getD (empty name) = (c.child? name).getD (empty name))
    (h : p.find? path = some q) (hne : place ≠ path) :
    (p.nodeAt place).SameOwn ((p.modify path change).nodeAt place) := by
  induction path generalizing p place with
  | nil =>
    cases place with
    | nil => exact absurd rfl hne
    | cons name rest =>
      rw [modify, nodeAt, nodeAt, hbelow]
      exact .refl _
  | cons name path ih =>
    rw [find?_cons] at h
    obtain ⟨c, hc, h⟩ := Option.bind_eq_some_iff.mp h
    have hnames (c : Profile) : (c.modify path change).name = c.name := name_modify c path hname
    cases place with
    | nil => exact ⟨rfl, rfl, rfl, childNames_modifyChild p name hnames⟩
    | cons other rest =>
      rw [modify, nodeAt, nodeAt, child?_modifyChild _ _ _ hnames]
      by_cases hother : other = name
      · rw [if_pos hother, hother, hc, Option.map_some, Option.getD_some, Option.getD_some]
        exact ih h fun hrest => hne (by rw [hother, hrest])
      · rw [if_neg hother]
        exact .refl _

-- ---------------------------------------------------------------------------
-- Order in a profile
-- ---------------------------------------------------------------------------

/-- The node itself is in order. -/
structure Tidy (p : Profile) : Prop where
  /-- No two children have the same name. -/
  nodup : p.childNames.Nodup
  infos : p.infos.Ordered
  counters : p.counters.Distinct

/-- The node and all the nodes below it are in order. -/
def Proper (p : Profile) : Prop := ∀ path n, p.find? path = some n → n.Tidy

theorem Proper.tidy (h : p.Proper) : p.Tidy := h [] p rfl

theorem Proper.find? (h : p.Proper) {path : List String} (hq : p.find? path = some q) : q.Proper := by
  intro rest n hn
  refine h (path ++ rest) n ?_
  rwa [find?_append, hq, Option.bind_some]

theorem Proper.child (h : p.Proper) (hc : p.child? name = some c) : c.Proper := by
  have hfind : p.find? [name] = some c := by rw [find?_cons_of_child? hc, find?_nil]
  exact h.find? hfind

/-- A profile is in order if its top node is and its children are. -/
theorem Tidy.proper (h : p.Tidy) (hchildren : ∀ name c, p.child? name = some c → c.Proper) :
    p.Proper := by
  intro path n hn
  cases path with
  | nil => exact Option.some.inj hn ▸ h
  | cons name rest =>
    rw [find?_cons] at hn
    obtain ⟨c, hc, hn⟩ := Option.bind_eq_some_iff.mp hn
    exact hchildren name c hc rest n hn

theorem proper_empty (name : String) : (empty name).Proper := by
  refine Tidy.proper ⟨List.nodup_nil, List.Pairwise.nil, List.nodup_nil⟩ fun other c hc => ?_
  simp at hc

theorem Proper.nodeAt (h : p.Proper) (path : List String) : (p.nodeAt path).Proper := by
  cases hq : p.find? path with
  | some q => exact nodeAt_of_find? hq ▸ h.find? hq
  | none =>
    obtain ⟨name, hname⟩ := nodeAt_of_find?_none hq
    exact hname ▸ proper_empty name

theorem Proper.setInfo (h : p.Proper) (key value : String) : (p.setInfo key value).Proper := by
  have ht := h.tidy
  exact Tidy.proper ⟨ht.nodup, Dictionary.Ordered.alter ht.infos key _, ht.counters⟩
    fun name c hc => h.child hc

theorem Proper.modifyCounter (h : p.Proper) (name : String) (unit : CounterUnit)
    (change : Counter → Counter) : (p.modifyCounter name unit change).Proper := by
  have ht := h.tidy
  exact Tidy.proper ⟨ht.nodup, ht.infos, ht.counters.alter name _⟩
    fun name c hc => h.child hc

theorem Proper.ensureChild (h : p.Proper) (name : String) : (p.ensureChild name).Proper := by
  have ht := h.tidy
  refine Tidy.proper ⟨?_, by simpa using ht.infos, by simpa using ht.counters⟩ fun other c hc => ?_
  · rw [childNames_ensureChild]
    split
    · simpa using ht.nodup
    · next hnew => exact List.concat_eq_append ▸ ht.nodup.concat hnew
  · rw [child?_ensureChild] at hc
    split at hc
    · obtain rfl := Option.some.inj hc
      cases hold : p.child? name with
      | none => exact proper_empty name
      | some d => exact h.child hold
    · exact h.child hc

theorem Proper.modifyChild (h : p.Proper) (name : String) {change : Profile → Profile}
    (hname : ∀ c, (change c).name = c.name) (hchange : ∀ c : Profile, c.Proper → (change c).Proper) :
    (p.modifyChild name change).Proper := by
  have ht := h.tidy
  refine Tidy.proper ⟨?_, ht.infos, ht.counters⟩ fun other c hc => ?_
  · rw [childNames_modifyChild p name hname]
    exact ht.nodup
  · rw [child?_modifyChild p name other hname] at hc
    split at hc
    · obtain ⟨d, hd, rfl⟩ := Option.map_eq_some_iff.mp hc
      exact hchange d (h.child hd)
    · exact h.child hc

theorem Proper.modify (h : p.Proper) (path : List String) {change : Profile → Profile}
    (hname : ∀ c, (change c).name = c.name) (hchange : ∀ c : Profile, c.Proper → (change c).Proper) :
    (p.modify path change).Proper := by
  induction path generalizing p with
  | nil => exact hchange p h
  | cons name rest ih => exact h.modifyChild name (fun c => name_modify c rest hname) fun _ hc => ih hc

-- ---------------------------------------------------------------------------
-- Charts
-- ---------------------------------------------------------------------------

@[simp] theorem name_chartEntry (p : Profile) (label : String) (current peak : Int) :
    (p.chartEntry label current peak).name = p.name := rfl

theorem Proper.chartEntry (h : p.Proper) (label : String) (current peak : Int) :
    (p.chartEntry label current peak).Proper := by
  have hcurrent := (h.setInfo "Label" label).modifyCounter "CurrentMemoryBytes" .bytes (·.set current)
  exact hcurrent.modifyCounter "PeakMemoryBytes" .bytes (·.set peak)

/-- Outlines are charted one after the other, each in the child that carries its label. -/
theorem chartAll_cons (p : Profile) (o : Outline) (rest : List Outline) :
    p.chartAll (o :: rest) =
      ((p.ensureChild o.label).modifyChild o.label fun c => c.chart o).chartAll rest := by
  obtain ⟨label, current, peak, children⟩ := o
  rw [chartAll]
  rfl

@[simp] theorem chartAll_nil (p : Profile) : p.chartAll [] = p := by rw [chartAll]

mutual

@[simp] theorem name_chart (p : Profile) : (o : Outline) → (p.chart o).name = p.name
  | .node label current peak children => by
    rw [chart, name_chartAll _ children, name_chartEntry]

@[simp] theorem name_chartAll (p : Profile) : (os : List Outline) → (p.chartAll os).name = p.name
  | [] => by rw [chartAll_nil]
  | o :: rest => by rw [chartAll_cons, name_chartAll _ rest, name_modifyChild, name_ensureChild]

end

mutual

theorem Proper.chart {p : Profile} (h : p.Proper) : (o : Outline) → (p.chart o).Proper
  | .node label current peak children => by
    rw [Profile.chart]
    exact (h.chartEntry label current peak).chartAll children

theorem Proper.chartAll {p : Profile} (h : p.Proper) : (os : List Outline) → (p.chartAll os).Proper
  | [] => by rwa [chartAll_nil]
  | o :: rest => by
    rw [chartAll_cons]
    refine Proper.chartAll ?_ rest
    exact (h.ensureChild o.label).modifyChild o.label (fun c => name_chart c o) fun _ hc => hc.chart o

end

theorem Proper.attachMemory (h : p.Proper) (o : Outline) : (p.attachMemory o).Proper :=
  (h.ensureChild chartNode).modifyChild chartNode (fun c => name_chart c o) fun _ hc => hc.chart o

-- ---------------------------------------------------------------------------
-- Runs
-- ---------------------------------------------------------------------------

/-- What can be asked of the nodes of a profile, each known by its place. -/
inductive ProfileCall where
  | child (place : List String) (name : String)
  | info (place : List String) (key value : String)
  | counter (place : List String) (name : String) (unit : CounterUnit)
  | add (place : List String) (name : String) (unit : CounterUnit) (n : Int)
  | set (place : List String) (name : String) (unit : CounterUnit) (n : Int)
  | attach (place : List String) (o : Outline)
  deriving Repr

/-- The profile after a call. -/
def perform (p : Profile) : ProfileCall → Profile
  | .child place name => p.modify place (·.ensureChild name)
  | .info place key value => p.modify place (·.setInfo key value)
  | .counter place name unit => p.modify place (·.ensureCounter name unit)
  | .add place name unit n => p.modify place (·.addTo name unit n)
  | .set place name unit n => p.modify place (·.setTo name unit n)
  | .attach place o => p.modify place (·.attachMemory o)

/-- The profile after calls, one after the other. -/
def performAll (p : Profile) (calls : List ProfileCall) : Profile := calls.foldl perform p

theorem name_attachMemory (p : Profile) (o : Outline) : (p.attachMemory o).name = p.name := by
  rw [attachMemory, name_modifyChild, name_ensureChild]

/-- Whatever is asked of a profile, it stays in order. -/
theorem Proper.perform (h : p.Proper) (call : ProfileCall) : (p.perform call).Proper := by
  cases call with
  | child place name => exact h.modify place (name_ensureChild · name) fun _ hc => hc.ensureChild name
  | info place key value =>
    exact h.modify place (name_setInfo · key value) fun _ hc => hc.setInfo key value
  | counter place name unit =>
    exact h.modify place (name_modifyCounter · name unit _) fun _ hc => hc.modifyCounter name unit _
  | add place name unit n =>
    exact h.modify place (name_modifyCounter · name unit _) fun _ hc => hc.modifyCounter name unit _
  | set place name unit n =>
    exact h.modify place (name_modifyCounter · name unit _) fun _ hc => hc.modifyCounter name unit _
  | attach place o => exact h.modify place (name_attachMemory · o) fun _ hc => hc.attachMemory o

/-- Any profile that calls lead to is in order, and so is every node of it. -/
theorem proper_performAll (name : String) (calls : List ProfileCall) :
    ((empty name).performAll calls).Proper := by
  induction calls using List.reverseRecOn with
  | nil => exact proper_empty name
  | append_singleton calls call ih =>
    rw [performAll, List.foldl_append]
    exact ih.perform call

end FragmentHost.Profile

import FragmentHost.Profile.Listing
import FragmentHost.Proofs.Profile.Nodes
import FragmentHost.Proofs.Text.ByteOrder

/-!
# What a listing shows

A listing has a block of lines for each node of a profile. The nodes come in pre-order: a node before those
below it, and what is below an earlier child before what is below a later one (`Before`), where the children of
a node are in the order in which they were made. The block of a node is read off what is found in the node, in
the order of the bytes of the keys (`Block`); the counters, which have no order, are sorted for that. So the
listing has no room for anything that happened on the way: runs that end with the same content, and with the
same order of the children, have the same listing (`canonical_performAll`).
-/

namespace FragmentHost

namespace Dictionary

variable {β : Type}

/-- The entries are what is found. -/
theorem Ordered.mem_iff {d : Dictionary β} (h : Ordered d) {key : String} {value : β} :
    (key, value) ∈ d ↔ get? d key = some value := by
  induction d with
  | nil => simp
  | cons e rest ih =>
    rw [get?_cons, List.mem_cons]
    by_cases hkey : key = e.1
    · -- the key is not found again in the rest
      have hrest : (key, value) ∉ rest := by
        rw [ih (List.pairwise_cons.mp h).2, hkey, get?_eq_none_of_head h]
        simp
      simp [hkey ▸ hrest, hkey, Prod.ext_iff, eq_comm]
    · have hne : (key, value) ≠ e := fun heq => hkey (congrArg Prod.fst heq)
      simp [hne, hkey, ih (List.pairwise_cons.mp h).2]

end Dictionary

namespace Assoc

variable {β : Type} {m n : Assoc β}

/-- Entries of the same content are sorted alike, in whatever order they came. -/
theorem Distinct.sorted_eq (hm : m.Distinct) (hn : n.Distinct) (h : ∀ key, m.get? key = n.get? key) :
    m.sorted = n.sorted := by
  have hmem (e : String × β) : e ∈ m ↔ e ∈ n := by
    rw [hm.mem_iff, hn.mem_iff, h]
  have hperm : m.sorted.Perm n.sorted := by
    have hsame : m.Perm n := (List.perm_ext_iff_of_nodup hm.of_map hn.of_map).mpr hmem
    exact (List.mergeSort_perm m _).trans (hsame.trans (List.mergeSort_perm n _).symm)
  refine hperm.eq_of_pairwise (fun a b _ _ hab hba => ?_) hm.pairwise_sorted hn.pairwise_sorted
  exact absurd (String.lt_trans hab hba) (String.lt_irrefl _)

end Assoc

namespace Profile

-- ---------------------------------------------------------------------------
-- Listings
-- ---------------------------------------------------------------------------

/-- In `p`, a place comes before those below it, and whatever is at an earlier child or below it before
whatever is at a later child or below that one. -/
inductive Before (p : Profile) : List String → List String → Prop where
  | below (place : List String) (name : String) (rest : List String) : Before p place (place ++ name :: rest)
  | beside {place : List String} {first second : String}
      (h : [first, second].Sublist (p.nodeAt place).childNames) (rest more : List String) :
      Before p (place ++ first :: rest) (place ++ second :: more)

/-- The entries are what is found under the keys, in the order of the bytes of the keys. -/
structure InByteOrder {β : Type} (found : String → Option β) (entries : List (String × β)) : Prop where
  rising : entries.Pairwise fun a b => ByteOrder.bytes a.1 < ByteOrder.bytes b.1
  mem_iff : ∀ key value, (key, value) ∈ entries ↔ found key = some value

/-- Two spaces for each level. -/
def indentation (depth : Nat) : String := String.ofList (List.replicate (2 * depth) ' ')

/-- The lines of the node `y` at a depth: its name, its short texts, and its counters with their units. -/
def Block (depth : Nat) (y : Profile) (lines : List String) : Prop :=
  ∃ infos counters, InByteOrder y.info? infos ∧ InByteOrder y.counter? counters ∧
    lines = (indentation depth ++ y.name ++ ":") ::
      (infos.map fun e => indentation depth ++ "   - " ++ e.1 ++ ": " ++ e.2) ++
      (counters.map fun e =>
        indentation depth ++ "   - " ++ e.1 ++ ": " ++ (toString e.2.value ++ e.2.unit.suffix))

/-- A block of lines for each place of `p`, in pre-order. -/
structure Blocks (p : Profile) (blocks : List (List String × List String)) : Prop where
  places : ∀ place, place ∈ blocks.map (·.1) ↔ (p.find? place).isSome
  order : (blocks.map (·.1)).Pairwise p.Before
  block : ∀ b ∈ blocks, ∃ y, p.find? b.1 = some y ∧ Block b.1.length y b.2

/-- The text lists `p`, every line ended. -/
def Lists (p : Profile) (text : String) : Prop :=
  ∃ blocks, p.Blocks blocks ∧ text = String.join ((blocks.flatMap (·.2)).map (· ++ "\n"))

variable {p q c : Profile}

-- ---------------------------------------------------------------------------
-- Children
-- ---------------------------------------------------------------------------

theorem mem_children_of_child? {name : String} (h : p.child? name = some c) : c ∈ p.children :=
  List.mem_of_find?_eq_some h

/-- A child is found by its name. -/
theorem Tidy.child?_of_mem (h : p.Tidy) (hc : c ∈ p.children) : p.child? c.name = some c := by
  obtain ⟨before, after, hchildren⟩ := List.append_of_mem hc
  have hnodup := h.nodup
  rw [childNames, hchildren, List.map_append, List.map_cons, List.nodup_append] at hnodup
  rw [child?, List.find?_eq_some_iff_append]
  refine ⟨by simp, before, after, hchildren, fun d hd => ?_⟩
  have hne : d.name ≠ c.name := hnodup.2.2 _ (List.mem_map_of_mem hd) _ (List.mem_cons_self ..)
  simpa using hne

/-- The children are those that are found by the names, in the order of the names. -/
theorem Tidy.children_eq (h : p.Tidy) : p.children = p.childNames.filterMap p.child? := by
  have hfound : p.children.filterMap (p.child? ∘ name) = p.children.filterMap some :=
    List.filterMap_congr fun c hc => h.child?_of_mem hc
  rw [childNames, List.filterMap_map, hfound, List.filterMap_some]

/-- What holds of every node whose children have it holds of all. -/
theorem descend {motive : Profile → Prop} (h : ∀ p, (∀ c ∈ p.children, motive c) → motive p)
    (p : Profile) : motive p :=
  h p fun c hc =>
    have : sizeOf c < sizeOf p := by
      obtain ⟨name, infos, counters, below⟩ := p
      have hsize : sizeOf c < sizeOf below := List.sizeOf_lt_of_mem hc
      simp only [node.sizeOf_spec]
      omega
    descend h c
termination_by sizeOf p

-- ---------------------------------------------------------------------------
-- Nodes in pre-order
-- ---------------------------------------------------------------------------

mutual

/-- The nodes with their places, each before those below it and children in their order. -/
def visits : Profile → List (List String × Profile)
  | node name infos counters children =>
    ([], node name infos counters children) :: visitsOfAll children

/-- The nodes of several children, with the names of the children on the way. -/
def visitsOfAll : List Profile → List (List String × Profile)
  | [] => []
  | c :: rest => (visits c).map (fun v => (c.name :: v.1, v.2)) ++ visitsOfAll rest

end

theorem visits_eq (p : Profile) :
    p.visits = ([], p) :: p.children.flatMap fun c => c.visits.map fun v => (c.name :: v.1, v.2) := by
  have hall (cs : List Profile) :
      visitsOfAll cs = cs.flatMap fun c => c.visits.map fun v => (c.name :: v.1, v.2) := by
    induction cs with
    | nil => rfl
    | cons c cs ih => rw [visitsOfAll, ih, List.flatMap_cons]
  obtain ⟨name, infos, counters, below⟩ := p
  rw [visits, hall]
  rfl

theorem lines_eq (depth : Nat) (p : Profile) :
    p.lines depth = p.ownLines depth ++ p.children.flatMap (lines (depth + 1)) := by
  have hall (cs : List Profile) : linesOfAll (depth + 1) cs = cs.flatMap (lines (depth + 1)) := by
    induction cs with
    | nil => rfl
    | cons c cs ih => rw [linesOfAll, ih, List.flatMap_cons]
  obtain ⟨name, infos, counters, below⟩ := p
  rw [lines, hall]
  rfl

/-- The lines are those of the nodes, one after the other. -/
theorem lines_eq_flatMap_visits (p : Profile) (depth : Nat) :
    p.lines depth = p.visits.flatMap fun v => v.2.ownLines (depth + v.1.length) := by
  induction p using descend generalizing depth with
  | h p ih =>
    rw [lines_eq, visits_eq, List.flatMap_cons, List.flatMap_assoc]
    congr 1
    refine List.flatMap_congr fun c hc => ?_
    rw [ih c hc, List.flatMap_map]
    refine List.flatMap_congr fun v _ => ?_
    rw [List.length_cons, Nat.add_assoc, Nat.add_comm 1]

/-- Each node is visited at its place. -/
theorem Proper.mem_visits_iff (hp : p.Proper) {place : List String} {y : Profile} :
    (place, y) ∈ p.visits ↔ p.find? place = some y := by
  induction p using descend generalizing place with
  | h p ih =>
    rw [visits_eq, List.mem_cons, List.mem_flatMap]
    simp only [List.mem_map, Prod.mk.injEq]
    cases place with
    | nil => simpa using eq_comm
    | cons name rest =>
      rw [find?_cons, Option.bind_eq_some_iff]
      constructor
      · rintro (h | ⟨c, hc, v, hv, ⟨rfl, rfl⟩, rfl⟩)
        · simp at h
        · have hchild := hp.tidy.child?_of_mem hc
          exact ⟨c, hchild, (ih c hc (hp.child hchild)).mp hv⟩
      · rintro ⟨c, hc, hy⟩
        have hmem := mem_children_of_child? hc
        have hplace : c.name :: rest = name :: rest := by rw [name_of_child? hc]
        exact Or.inr ⟨c, hmem, (rest, y), (ih c hmem (hp.child hc)).mpr hy, hplace, rfl⟩

theorem nodeAt_cons_of_child? {name : String} (h : p.child? name = some c) (rest : List String) :
    p.nodeAt (name :: rest) = c.nodeAt rest := by
  rw [nodeAt, h, Option.getD_some]

/-- Places below a child are in the same order in the whole profile. -/
theorem Before.cons {x y : List String} (h : c.Before x y) {name : String} (hc : p.child? name = some c) :
    p.Before (name :: x) (name :: y) := by
  cases h with
  | below _ other rest => exact .below (name :: x) other rest
  | @beside place first second hbeside rest more =>
    have hchildren : [first, second].Sublist (p.nodeAt (name :: place)).childNames := by
      rwa [nodeAt_cons_of_child? hc]
    exact .beside hchildren rest more

/-- Nodes are visited in pre-order. -/
theorem Proper.pairwise_visits (hp : p.Proper) : (p.visits.map (·.1)).Pairwise p.Before := by
  induction p using descend with
  | h p ih =>
    rw [visits_eq, List.map_cons, List.map_flatMap, List.pairwise_cons, List.pairwise_flatMap]
    simp only [List.map_map]
    refine ⟨fun place hplace => ?_, fun c hc => ?_, ?_⟩
    · -- the node itself comes first
      simp only [List.mem_flatMap, List.mem_map, Function.comp_apply] at hplace
      obtain ⟨c, -, v, -, rfl⟩ := hplace
      exact .below [] c.name v.1
    · have hchild := hp.tidy.child?_of_mem hc
      have hbelow := ih c hc (hp.child hchild)
      rw [List.pairwise_map] at hbelow ⊢
      exact hbelow.imp fun h => h.cons hchild
    · refine List.pairwise_iff_forall_sublist.mpr fun {c d} hcd x hx y hy => ?_
      simp only [List.mem_map, Function.comp_apply] at hx hy
      obtain ⟨v, -, rfl⟩ := hx
      obtain ⟨w, -, rfl⟩ := hy
      have hchildren : [c.name, d.name].Sublist (p.nodeAt []).childNames := hcd.map name
      exact .beside hchildren v.1 w.1

-- ---------------------------------------------------------------------------
-- The text
-- ---------------------------------------------------------------------------

theorem inByteOrder_of_ordered {β : Type} {d : Dictionary β} (h : d.Ordered) : InByteOrder d.get? d :=
  ⟨h.imp ByteOrder.bytes_lt_iff.mpr, fun _ _ => h.mem_iff⟩

/-- Sorting puts entries in the order of the bytes. -/
theorem inByteOrder_sorted {β : Type} {m : Assoc β} (h : m.Distinct) : InByteOrder m.get? m.sorted :=
  ⟨h.pairwise_sorted.imp ByteOrder.bytes_lt_iff.mpr, fun _ _ => Assoc.mem_sorted.trans h.mem_iff⟩

theorem Tidy.block_ownLines (h : p.Tidy) (depth : Nat) : Block depth p (p.ownLines depth) :=
  ⟨p.infos, p.counters.sorted, inByteOrder_of_ordered h.infos, inByteOrder_sorted h.counters, rfl⟩

/-- The text of a profile in order lists its nodes. -/
theorem Proper.lists_text (hp : p.Proper) : p.Lists p.text := by
  have hplaces : (p.visits.map fun v => (v.1, v.2.ownLines v.1.length)).map (·.1) = p.visits.map (·.1) := by
    rw [List.map_map]
    rfl
  refine ⟨p.visits.map fun v => (v.1, v.2.ownLines v.1.length), ⟨fun place => ?_, ?_, fun b hb => ?_⟩, ?_⟩
  · rw [hplaces, List.mem_map, Option.isSome_iff_exists]
    constructor
    · rintro ⟨⟨_, y⟩, hv, rfl⟩
      exact ⟨y, hp.mem_visits_iff.mp hv⟩
    · rintro ⟨y, hy⟩
      exact ⟨(place, y), hp.mem_visits_iff.mpr hy, rfl⟩
  · rw [hplaces]
    exact hp.pairwise_visits
  · obtain ⟨⟨place, y⟩, hv, rfl⟩ := List.mem_map.mp hb
    have hy := hp.mem_visits_iff.mp hv
    exact ⟨y, hy, (hp place y hy).block_ownLines place.length⟩
  · rw [text, lines_eq_flatMap_visits, List.flatMap_map]
    simp only [Nat.zero_add]

-- ---------------------------------------------------------------------------
-- Children in the order in which they were made
-- ---------------------------------------------------------------------------

/-- From `p` to `q` no node lost children, and new ones came after those that were there. -/
def Grows (p q : Profile) : Prop := ∀ place, (p.nodeAt place).childNames <+: (q.nodeAt place).childNames

theorem Grows.refl (p : Profile) : p.Grows p := fun _ => List.prefix_rfl

theorem Grows.trans {r : Profile} (hpq : p.Grows q) (hqr : q.Grows r) : p.Grows r :=
  fun place => (hpq place).trans (hqr place)

/-- What happens to a node alone, and what happens below it. -/
theorem grows_of_children (hnames : p.childNames <+: q.childNames)
    (hbelow : ∀ name, ((p.child? name).getD (empty name)).Grows ((q.child? name).getD (empty name))) :
    p.Grows q := by
  intro place
  cases place with
  | nil => exact hnames
  | cons name rest => exact hbelow name rest

theorem grows_ensureChild (p : Profile) (name : String) : p.Grows (p.ensureChild name) := by
  refine grows_of_children ?_ fun other => ?_
  · rw [childNames_ensureChild]
    exact List.prefix_append _ _
  · rw [child?_ensureChild]
    split
    · next h => exact h ▸ .refl _
    · exact .refl _

theorem grows_modifyChild (p : Profile) (name : String) {change : Profile → Profile}
    (hname : ∀ c, (change c).name = c.name) (hchange : ∀ c : Profile, c.Grows (change c)) :
    p.Grows (p.modifyChild name change) := by
  refine grows_of_children ?_ fun other => ?_
  · exact (childNames_modifyChild p name hname).symm ▸ List.prefix_rfl
  · rw [child?_modifyChild p name other hname]
    split
    · next h =>
      rw [h]
      cases p.child? name with
      | none => exact .refl _
      | some c => exact hchange c
    · exact .refl _

theorem grows_modify (p : Profile) (place : List String) {change : Profile → Profile}
    (hname : ∀ c, (change c).name = c.name) (hchange : ∀ c : Profile, c.Grows (change c)) :
    p.Grows (p.modify place change) := by
  induction place generalizing p with
  | nil => exact hchange p
  | cons name rest ih => exact grows_modifyChild p name (fun c => name_modify c rest hname) ih

theorem grows_setInfo (p : Profile) (key value : String) : p.Grows (p.setInfo key value) :=
  grows_of_children List.prefix_rfl fun _ => .refl _

theorem grows_modifyCounter (p : Profile) (name : String) (unit : CounterUnit)
    (change : Counter → Counter) : p.Grows (p.modifyCounter name unit change) :=
  grows_of_children List.prefix_rfl fun _ => .refl _

theorem grows_chartEntry (p : Profile) (label : String) (current peak : Int) :
    p.Grows (p.chartEntry label current peak) :=
  grows_of_children List.prefix_rfl fun _ => .refl _

mutual

theorem grows_chart (p : Profile) : (o : Outline) → p.Grows (p.chart o)
  | .node label current peak children => by
    rw [chart]
    exact (grows_chartEntry p label current peak).trans (grows_chartAll _ children)

theorem grows_chartAll (p : Profile) : (os : List Outline) → p.Grows (p.chartAll os)
  | [] => by
    rw [chartAll_nil]
    exact .refl p
  | o :: rest => by
    rw [chartAll_cons]
    refine Grows.trans ?_ (grows_chartAll _ rest)
    exact (grows_ensureChild p o.label).trans
      (grows_modifyChild _ o.label (name_chart · o) fun c => grows_chart c o)

end

theorem grows_attachMemory (p : Profile) (o : Outline) : p.Grows (p.attachMemory o) :=
  (grows_ensureChild p chartNode).trans
    (grows_modifyChild _ chartNode (name_chart · o) fun c => grows_chart c o)

theorem grows_perform (p : Profile) (call : ProfileCall) : p.Grows (p.perform call) := by
  cases call with
  | child place name => exact grows_modify p place (name_ensureChild · name) (grows_ensureChild · name)
  | info place key value =>
    exact grows_modify p place (name_setInfo · key value) (grows_setInfo · key value)
  | counter place name unit =>
    exact grows_modify p place (name_modifyCounter · name unit _) (grows_modifyCounter · name unit _)
  | add place name unit n =>
    exact grows_modify p place (name_modifyCounter · name unit _) (grows_modifyCounter · name unit _)
  | set place name unit n =>
    exact grows_modify p place (name_modifyCounter · name unit _) (grows_modifyCounter · name unit _)
  | attach place o => exact grows_modify p place (name_attachMemory · o) (grows_attachMemory · o)

theorem performAll_append (p : Profile) (calls later : List ProfileCall) :
    p.performAll (calls ++ later) = (p.performAll calls).performAll later :=
  List.foldl_append

theorem grows_performAll (p : Profile) (calls : List ProfileCall) : p.Grows (p.performAll calls) := by
  induction calls generalizing p with
  | nil => exact .refl p
  | cons call calls ih => exact (grows_perform p call).trans (ih _)

-- ---------------------------------------------------------------------------
-- Profiles of the same content
-- ---------------------------------------------------------------------------

/-- Every node of `p` is also in `q`, with the same texts and counters and with children of the same names in
the same order. -/
def SameContent (p q : Profile) : Prop :=
  ∀ place x, p.find? place = some x → ∃ y, q.find? place = some y ∧ y.childNames = x.childNames ∧
    (∀ key, y.info? key = x.info? key) ∧ ∀ name, y.counter? name = x.counter? name

/-- Children of one name have the same content, if there are any. -/
theorem SameContent.child? (h : p.SameContent q) (name : String) :
    (p.child? name = none ∧ q.child? name = none) ∨
    ∃ c d, p.child? name = some c ∧ q.child? name = some d ∧ c.SameContent d ∧ d.name = c.name := by
  cases hc : p.child? name with
  | none =>
    obtain ⟨y, hy, hnames, -⟩ := h [] p rfl
    obtain rfl : q = y := Option.some.inj hy
    rw [child?_eq_none_iff, ← hnames, ← child?_eq_none_iff] at hc
    exact Or.inl ⟨rfl, hc⟩
  | some c =>
    obtain ⟨d, hd, -⟩ := h [name] c (by rw [find?_cons_of_child? hc, find?_nil])
    have hd : q.child? name = some d := by simpa [find?_cons] using hd
    refine Or.inr ⟨c, d, rfl, hd, fun place x hx => ?_, by rw [name_of_child? hd, name_of_child? hc]⟩
    rw [← find?_cons_of_child? hc] at hx
    obtain ⟨y, hy, hsame⟩ := h (name :: place) x hx
    rw [find?_cons_of_child? hd] at hy
    exact ⟨y, hy, hsame⟩

/-- The lines of a profile in order tell nothing but its content. -/
theorem SameContent.lines_eq (h : p.SameContent q) (hp : p.Proper) (hq : q.Proper) (hname : q.name = p.name)
    (depth : Nat) : q.lines depth = p.lines depth := by
  induction p using descend generalizing q depth with
  | h p ih =>
    obtain ⟨y, hy, hnames, hinfos, hcounters⟩ := h [] p rfl
    obtain rfl : q = y := Option.some.inj hy
    have hinfos : q.infos = p.infos := hq.tidy.infos.ext hp.tidy.infos hinfos
    have hcounters : q.counters.sorted = p.counters.sorted :=
      hq.tidy.counters.sorted_eq hp.tidy.counters hcounters
    have hchild (name : String) :
        (q.child? name).map (lines (depth + 1)) = (p.child? name).map (lines (depth + 1)) := by
      rcases h.child? name with ⟨hc, hd⟩ | ⟨c, d, hc, hd, hsame, hcd⟩
      · rw [hc, hd]
      · rw [hc, hd, Option.map_some, Option.map_some,
          ih c (mem_children_of_child? hc) hsame (hp.child hc) (hq.child hd) hcd]
    have hchildren : q.children.map (lines (depth + 1)) = p.children.map (lines (depth + 1)) := by
      rw [hq.tidy.children_eq, hp.tidy.children_eq, hnames, List.map_filterMap, List.map_filterMap]
      exact List.filterMap_congr fun name _ => hchild name
    rw [Profile.lines_eq, Profile.lines_eq, ownLines, ownLines, hname, hinfos, hcounters, List.flatMap_def,
      List.flatMap_def, hchildren]

/-- So do the texts of its nodes. -/
theorem SameContent.map_text (h : p.SameContent q) (hp : p.Proper) (hq : q.Proper) (hname : q.name = p.name)
    (place : List String) : (q.find? place).map text = (p.find? place).map text := by
  induction place generalizing p q with
  | nil =>
    rw [find?_nil, find?_nil, Option.map_some, Option.map_some, text, text, h.lines_eq hp hq hname]
  | cons name rest ih =>
    rw [find?_cons, find?_cons]
    rcases h.child? name with ⟨hc, hd⟩ | ⟨c, d, hc, hd, hsame, hcd⟩
    · rw [hc, hd]
    · rw [hc, hd, Option.bind_some, Option.bind_some]
      exact ih hsame (hp.child hc) (hq.child hd) hcd

-- ---------------------------------------------------------------------------
-- Runs
-- ---------------------------------------------------------------------------

/-- What the profile after a run shows, at any of its nodes. -/
structure Canonical (name : String) (calls : List ProfileCall) : Prop where
  listed : ∀ place y, ((empty name).performAll calls).find? place = some y → y.Lists y.text
  /-- The children that a node had at any time come first at the end, in the order that they had. -/
  creation : ∀ before after, calls = before ++ after → ∀ place,
    (((empty name).performAll before).nodeAt place).childNames <+:
      (((empty name).performAll calls).nodeAt place).childNames
  /-- The text tells nothing but the content. -/
  same : ∀ others, ((empty name).performAll calls).SameContent ((empty name).performAll others) →
    ∀ place, (((empty name).performAll others).find? place).map text =
      (((empty name).performAll calls).find? place).map text

theorem name_perform (p : Profile) (call : ProfileCall) : (p.perform call).name = p.name := by
  cases call with
  | child place name => exact name_modify p place (name_ensureChild · name)
  | info place key value => exact name_modify p place (name_setInfo · key value)
  | counter place name unit => exact name_modify p place (name_modifyCounter · name unit _)
  | add place name unit n => exact name_modify p place (name_modifyCounter · name unit _)
  | set place name unit n => exact name_modify p place (name_modifyCounter · name unit _)
  | attach place o => exact name_modify p place (name_attachMemory · o)

theorem name_performAll (p : Profile) (calls : List ProfileCall) : (p.performAll calls).name = p.name := by
  induction calls generalizing p with
  | nil => rfl
  | cons call calls ih => exact (ih _).trans (name_perform p call)

/-- Whatever is asked of a profile, its text is that of its content. -/
theorem canonical_performAll (name : String) (calls : List ProfileCall) : Canonical name calls := by
  have hproper := proper_performAll name calls
  constructor
  case listed => exact fun place y hy => (hproper.find? hy).lists_text
  case creation =>
    rintro before after rfl place
    rw [performAll_append]
    exact grows_performAll _ after place
  case same =>
    intro others hsame place
    have hname : ((empty name).performAll others).name = ((empty name).performAll calls).name := by
      rw [name_performAll, name_performAll]
    exact hsame.map_text hproper (proper_performAll name others) hname place

/-- Profiles that differ at the top alone, in the order in which counters came. -/
theorem sameContent_of_children (hchildren : q.children = p.children) (hinfos : q.infos = p.infos)
    (hcounters : ∀ name, q.counter? name = p.counter? name) : p.SameContent q := by
  intro place x hx
  cases place with
  | nil =>
    obtain rfl : p = x := Option.some.inj hx
    refine ⟨q, rfl, ?_, fun key => ?_, hcounters⟩
    · rw [childNames, hchildren, childNames]
    · rw [info?, hinfos, info?]
  | cons name rest =>
    refine ⟨x, ?_, rfl, fun _ => rfl, fun _ => rfl⟩
    rw [find?_cons, child?, hchildren]
    exact hx

/-- Texts and counters of three nodes that come in another order, some of them more than once. -/
theorem canonical_performAll_interleaved :
    let calls : List ProfileCall := [.child [] "scan", .child [] "join", .info ["scan"] "Table" "orders",
      .counter [] "é" .bytes, .counter [] "z" .count, .add ["join"] "Rows" .nanoseconds 3,
      .add ["join"] "Rows" .nanoseconds (-5)]
    let others : List ProfileCall := [.counter [] "z" .count, .child [] "scan", .info ["scan"] "Table" "old",
      .child [] "join", .add ["join"] "Rows" .nanoseconds 1, .counter [] "é" .bytes,
      .info ["scan"] "Table" "orders", .child [] "scan", .set ["join"] "Rows" .count (-2)]
    ((empty "query").performAll calls).SameContent ((empty "query").performAll others) ∧
      Canonical "query" calls ∧
      ((empty "query").performAll others).text = ((empty "query").performAll calls).text := by
  intro calls others
  have hsame : ((empty "query").performAll calls).SameContent ((empty "query").performAll others) := by
    refine sameContent_of_children rfl rfl fun name => ?_
    -- the counters of the query came in another order
    have hcalls : ((empty "query").performAll calls).counters = [("é", ⟨.bytes, 0⟩), ("z", ⟨.count, 0⟩)] :=
      rfl
    have hothers : ((empty "query").performAll others).counters =
        [("z", ⟨.count, 0⟩), ("é", ⟨.bytes, 0⟩)] := rfl
    rw [counter?, counter?, hcalls, hothers]
    simp only [Assoc.get?_cons, Assoc.get?_nil, beq_iff_eq]
    by_cases hz : name = "z"
    · simp [hz]
    · simp [hz]
  exact ⟨hsame, canonical_performAll "query" calls,
    Option.some.inj ((canonical_performAll "query" calls).same others hsame [])⟩

example : ((empty "query").performAll [.child [] "scan", .counter [] "é" .bytes, .counter [] "z" .count,
      .info ["scan"] "Table" "orders"]).text =
    "query:\n   - z: 0\n   - é: 0B\n  scan:\n     - Table: orders\n" := by
  cbv

end Profile

end FragmentHost

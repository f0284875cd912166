import FragmentHost.Profile.Objects
import FragmentHost.Proofs.Profile.Requests

/-!
# Objects at their places

Whoever asks for a node or a counter of a profile is given the object itself, which all others who asked for
it have as well. `Holding` carries a run in which handles are objects; `Handles` carries the same run with
places in one tree.

The two agree. Each object is at one place of the tree, at most one object is at a place, and list and map of a
node hold the same children (`Stands`, `stands_run`). So handles are the same object if they are at the same
place, and what is read off an object is what the tree has there (`sameObjects_run`).
-/

namespace FragmentHost.Profile

-- ---------------------------------------------------------------------------
-- Handles as objects
-- ---------------------------------------------------------------------------

/-- Objects, and the nodes and counters that were handed out; the top node comes first. -/
structure Holding where
  objects : Objects
  nodes : List Nat := [0]
  counters : List Nat := []
  deriving DecidableEq, Repr

namespace Holding

/-- Goes on with the node of a handle. -/
def onNode (m : Holding) (k : Nat) (next : Nat → Holding) : Holding :=
  match m.nodes[k]? with
  | some n => next n
  | none => m

/-- Changes a counter of a node that is made if there is none. -/
def touch (m : Holding) (n : Nat) (name : String) (unit : CounterUnit) (change : Counter → Counter) :
    Holding :=
  let (objects, k) := m.objects.ensureCounter n name unit
  { m with objects := objects.modifyCounter k change }

/-- Hands out a counter of a node. -/
def handOut (m : Holding) (n : Nat) (name : String) (unit : CounterUnit) : Holding :=
  let (objects, k) := m.objects.ensureCounter n name unit
  { m with objects, counters := m.counters ++ [k] }

/-- Changes the counter of a handle. -/
def modifyHeld (m : Holding) (k : Nat) (change : Counter → Counter) : Holding :=
  match m.counters[k]? with
  | some c => { m with objects := m.objects.modifyCounter c change }
  | none => m

/-- Carries out a call. -/
def act (m : Holding) : HandleCall → Holding
  | .child k name => m.onNode k fun n =>
    let (objects, c) := m.objects.ensureChild n name
    { m with objects, nodes := m.nodes ++ [c] }
  | .getChild k name => m.onNode k fun n =>
    { m with nodes := m.nodes ++ (m.objects.child? n name).toList }
  | .info k key value => m.onNode k fun n => { m with objects := m.objects.setInfo n key value }
  | .counter k name unit => m.onNode k fun n => m.handOut n name unit
  | .timer k name => m.onNode k fun n => m.handOut n name .nanoseconds
  | .addTo k name unit v => m.onNode k fun n => m.touch n name unit (·.add v)
  | .setTo k name unit v => m.onNode k fun n => m.touch n name unit (·.set v)
  | .add k v => m.modifyHeld k (·.add v)
  | .set k v => m.modifyHeld k (·.set v)

/-- A new profile after calls, one after the other. -/
def run (name : String) (calls : List HandleCall) : Holding :=
  calls.foldl act { objects := { nodes := [.bare name] } }

/-- The counter of a handle. -/
def counter? (m : Holding) (k : Nat) : Option Counter :=
  (m.counters[k]?.bind (m.objects.counters[·]?)).map (·.counter)

end Holding

-- ---------------------------------------------------------------------------
-- Numbers
-- ---------------------------------------------------------------------------

section Numbers

variable {α : Type} {l later : List α} {is js : List Nat} {as bs : List α} {i j : Nat} {a b : α}

/-- The numbers `is` stand for `as` in a table. -/
def Points (l : List α) (is : List Nat) (as : List α) : Prop := is.map (l[·]?) = as.map some

theorem getElem?_grow (h : l <+: later) (hi : l[i]? = some a) : later[i]? = some a := by
  obtain ⟨rest, rfl⟩ := h
  rw [List.getElem?_append_left (List.getElem?_eq_some_iff.mp hi).1, hi]

/-- Different things have different numbers. -/
theorem eq_of_getElem? (h : l.Nodup) (hi : l[i]? = some a) (hj : l[j]? = some a) : i = j :=
  (List.getElem?_inj (List.getElem?_eq_some_iff.mp hi).1 h).mp (hi.trans hj.symm)

/-- What comes at the end is the last one or was there before. -/
theorem getElem?_concat_eq_some_iff :
    (l ++ [b])[i]? = some a ↔ l[i]? = some a ∨ (i = l.length ∧ b = a) := by
  rcases Nat.lt_trichotomy i l.length with hlt | rfl | hgt
  · rw [List.getElem?_append_left hlt]
    simp [hlt.ne]
  · rw [List.getElem?_concat_length, List.getElem?_eq_none le_rfl]
    simp
  · rw [List.getElem?_eq_none (by simp; omega), List.getElem?_eq_none hgt.le]
    simp [hgt.ne']

theorem points_nil : Points l [] [] := rfl

theorem points_singleton (hi : l[i]? = some a) : Points l [i] [a] := congrArg (fun x => [x]) hi

theorem Points.append (h : Points l is as) (h' : Points l js bs) : Points l (is ++ js) (as ++ bs) := by
  rw [Points, List.map_append, h, h', List.map_append]

theorem Points.exists_of_mem (h : Points l is as) (hi : i ∈ is) : ∃ a ∈ as, l[i]? = some a := by
  have hmem := List.mem_map_of_mem (f := (l[·]?)) hi
  rw [h] at hmem
  obtain ⟨a, ha, heq⟩ := List.mem_map.mp hmem
  exact ⟨a, ha, heq.symm⟩

theorem Points.exists_number (h : Points l is as) (ha : a ∈ as) : ∃ i ∈ is, l[i]? = some a := by
  have hmem := List.mem_map_of_mem (f := some) ha
  rw [← h] at hmem
  exact List.mem_map.mp hmem

/-- Numbers of old things stay when new ones come. -/
theorem Points.grow (h : Points l is as) (hl : l <+: later) : Points later is as := by
  rw [Points, ← h]
  refine List.map_congr_left fun i hi => ?_
  obtain ⟨a, -, ha⟩ := h.exists_of_mem hi
  rw [ha, getElem?_grow hl ha]

theorem Points.map_getElem? (h : Points l is as) (k : Nat) : (is[k]?).map (l[·]?) = (as[k]?).map some := by
  rw [← List.getElem?_map, h, List.getElem?_map]

theorem Points.of_none (h : Points l is as) {k : Nat} (hk : as[k]? = none) : is[k]? = none := by
  have hget := h.map_getElem? k
  rwa [hk, Option.map_none, Option.map_eq_none_iff] at hget

theorem Points.of_some (h : Points l is as) {k : Nat} (hk : as[k]? = some a) :
    ∃ i, is[k]? = some i ∧ l[i]? = some a := by
  have hget := h.map_getElem? k
  rw [hk, Option.map_some] at hget
  exact Option.map_eq_some_iff.mp hget

/-- Two numbers are the same if they stand for the same thing. -/
theorem Points.getElem?_eq_iff (h : Points l is as) (hl : l.Nodup) (i j : Nat) :
    is[i]? = is[j]? ↔ as[i]? = as[j]? := by
  constructor
  · intro hsame
    refine Option.map_injective (Option.some_injective α) ?_
    rw [← h.map_getElem?, ← h.map_getElem?, hsame]
  · intro hsame
    cases ha : as[j]? with
    | none => rw [h.of_none ha, h.of_none (hsame.trans ha)]
    | some a =>
      obtain ⟨m, hm, hma⟩ := h.of_some ha
      obtain ⟨n, hn, hna⟩ := h.of_some (hsame.trans ha)
      rw [hm, hn, eq_of_getElem? hl hma hna]

end Numbers

-- ---------------------------------------------------------------------------
-- Where objects stand
-- ---------------------------------------------------------------------------

/-- The object `x` is the node `q` at `place`, where nodes are at `places` and counters belong to `owners`. -/
structure NodeObject.IsAt (x : NodeObject) (places : List (List String))
    (owners : List (List String × String)) (place : List String) (q : Profile) : Prop where
  name : x.name = q.name
  infos : x.infos = q.infos
  children : Points places x.children (q.childNames.map (place ++ [·]))
  byName : ∀ name c, x.byName.get? name = some c ↔ places[c]? = some (place ++ [name])
  counters : ∀ name k, x.counters.get? name = some k ↔ owners[k]? = some (place, name)

/-- Node objects are the nodes of a tree, each at its place. -/
structure NodesStand (nodes : List NodeObject) (places : List (List String))
    (owners : List (List String × String)) (p : Profile) : Prop where
  length_eq : nodes.length = places.length
  nodup : places.Nodup
  mem_iff : ∀ place name, place ++ [name] ∈ places ↔ name ∈ (p.nodeAt place).childNames
  node : ∀ (n : Nat) (place : List String), places[n]? = some place →
    ∃ x : NodeObject, nodes[n]? = some x ∧ x.IsAt places owners place (p.nodeAt place)

/-- Counter objects are the counters of a tree, each with its node and its name. -/
structure CountersStand (counters : List CounterObject) (owners : List (List String × String))
    (p : Profile) : Prop where
  length_eq : counters.length = owners.length
  nodup : owners.Nodup
  mem_iff : ∀ place name, (place, name) ∈ owners ↔ ((p.nodeAt place).counter? name).isSome
  counter : ∀ (k : Nat) (place : List String) (name : String), owners[k]? = some (place, name) →
    ∃ c, counters[k]? = some ⟨name, c⟩ ∧ (p.nodeAt place).counter? name = some c

/-- The objects are those of the tree. -/
structure Stands (o : Objects) (places : List (List String)) (owners : List (List String × String))
    (p : Profile) : Prop where
  nodes : NodesStand o.nodes places owners p
  counters : CountersStand o.counters owners p

/-- From `p` to `p'` one node changed by itself. -/
structure Changes (p p' : Profile) (place : List String) (q : Profile) : Prop where
  self : p'.nodeAt place = q
  others : ∀ other, other ≠ place → (p.nodeAt other).SameOwn (p'.nodeAt other)

/-- Two nodes differ in counters at most. -/
structure SameHead (p q : Profile) : Prop where
  name : q.name = p.name
  infos : q.infos = p.infos
  childNames : q.childNames = p.childNames

variable {o : Objects} {nodes : List NodeObject} {counters : List CounterObject}
  {places more : List (List String)} {owners others : List (List String × String)}
  {p p' q q' : Profile} {place : List String} {name : String} {n k : Nat} {x : NodeObject}

theorem SameOwn.sameHead (h : p.SameOwn q) : p.SameHead q := ⟨h.name, h.infos, h.childNames⟩

theorem changes_modify {r : Request} (hq : p.find? place = some q) :
    Changes p (p.modify place r.apply) place (r.apply (p.nodeAt place)) := by
  constructor
  case self => rw [nodeAt_of_find? (find?_modify_self (name_apply · r) hq), nodeAt_of_find? hq]
  case others => exact fun other => sameOwn_nodeAt_modify (name_apply · r) (getD_child?_apply · r) hq

theorem Changes.counter?_eq (hc : Changes p p' place q) {other : List String} (hne : other ≠ place)
    (name : String) : (p'.nodeAt other).counter? name = (p.nodeAt other).counter? name := by
  rw [counter?, (hc.others other hne).counters, counter?]

theorem Changes.sameHead (hc : Changes p p' place q) (hself : (p.nodeAt place).SameHead q)
    (other : List String) : (p.nodeAt other).SameHead (p'.nodeAt other) := by
  by_cases hother : other = place
  · rw [hother, hc.self]
    exact hself
  · exact (hc.others other hother).sameHead

/-- Nothing changed at all. -/
theorem Changes.sameOwn (hc : Changes p p' place (p.nodeAt place)) (other : List String) :
    (p.nodeAt other).SameOwn (p'.nodeAt other) := by
  by_cases hother : other = place
  · rw [hother, hc.self]
    exact .refl _
  · exact hc.others other hother

theorem Changes.counter?_of_counters (hc : Changes p p' place q)
    (hself : q.counters = (p.nodeAt place).counters) (other : List String) (name : String) :
    (p'.nodeAt other).counter? name = (p.nodeAt other).counter? name := by
  by_cases hother : other = place
  · rw [hother, hc.self, counter?, hself, counter?]
  · exact hc.counter?_eq hother name

/-- More objects elsewhere do not move a node. -/
theorem NodeObject.IsAt.grow (h : x.IsAt places owners place q) (hplaces : places <+: more)
    (howners : owners <+: others) (hsame : q.SameHead q')
    (hnode : ∀ (c : Nat) (name : String), more[c]? = some (place ++ [name]) →
      places[c]? = some (place ++ [name]))
    (hcounter : ∀ (k : Nat) (name : String), others[k]? = some (place, name) →
      owners[k]? = some (place, name)) : x.IsAt more others place q' := by
  constructor
  case name => rw [h.name, hsame.name]
  case infos => rw [h.infos, hsame.infos]
  case children => exact hsame.childNames ▸ h.children.grow hplaces
  case byName => exact fun name c => (h.byName name c).trans ⟨getElem?_grow hplaces, hnode c name⟩
  case counters =>
    exact fun name k => (h.counters name k).trans ⟨getElem?_grow howners, hcounter k name⟩

-- ---------------------------------------------------------------------------
-- Nodes
-- ---------------------------------------------------------------------------

/-- The node of a new counter. -/
theorem NodeObject.IsAt.count (h : x.IsAt places owners place q) (hfresh : (place, name) ∉ owners)
    (hsame : q.SameHead q') :
    (x.count name owners.length).IsAt places (owners ++ [(place, name)]) place q' := by
  constructor
  case name => exact h.name.trans hsame.name.symm
  case infos => exact h.infos.trans hsame.infos.symm
  case children => exact hsame.childNames ▸ h.children
  case byName => exact h.byName
  case counters =>
    intro other k
    rw [NodeObject.count, Assoc.get?_alter, getElem?_concat_eq_some_iff]
    by_cases hother : other = name
    · have hnone : owners[k]? ≠ some (place, name) := fun hk => hfresh (List.mem_of_getElem? hk)
      simp [hother, hnone, eq_comm]
    · simp [hother, Ne.symm hother, h.counters]

/-- One node object changes, the others stay where they are. -/
theorem NodesStand.modify (h : NodesStand nodes places owners p) (hn : places[n]? = some place)
    (hc : Changes p p' place q) (hnames : q.childNames = (p.nodeAt place).childNames)
    (howners : owners <+: others)
    (hnew : ∀ (k : Nat) (other : List String) (name : String), others[k]? = some (other, name) →
      other ≠ place → owners[k]? = some (other, name))
    {change : NodeObject → NodeObject}
    (hchange : ∀ x : NodeObject, x.IsAt places owners place (p.nodeAt place) →
      (change x).IsAt places others place q) :
    NodesStand (nodes.modify n change) places others p' := by
  constructor
  case length_eq => rw [List.length_modify, h.length_eq]
  case nodup => exact h.nodup
  case mem_iff =>
    intro other name
    rw [h.mem_iff]
    by_cases hother : other = place
    · rw [hother, hc.self, hnames]
    · rw [(hc.others other hother).childNames]
  case node =>
    intro i other hi
    obtain ⟨x, hx, hat⟩ := h.node i other hi
    rw [List.getElem?_modify, hx]
    by_cases hni : n = i
    · subst hni
      obtain rfl : place = other := Option.some.inj (hn.symm.trans hi)
      exact ⟨change x, by simp, hc.self ▸ hchange x hat⟩
    · have hne : other ≠ place := fun heq => hni (eq_of_getElem? h.nodup hn (heq ▸ hi))
      refine ⟨x, by simp [hni], hat.grow List.prefix_rfl howners (hc.others other hne).sameHead
        (fun _ _ hname => hname) fun k name hk => hnew k other name hk hne⟩

/-- What happens to counters does not show in the node objects. -/
theorem NodesStand.same (h : NodesStand nodes places owners p)
    (hsame : ∀ other, (p.nodeAt other).SameHead (p'.nodeAt other)) : NodesStand nodes places owners p' := by
  refine { h with mem_iff := fun other name => ?_, node := fun i other hi => ?_ }
  · rw [h.mem_iff, (hsame other).childNames]
  · obtain ⟨x, hx, hat⟩ := h.node i other hi
    exact ⟨x, hx, hat.grow List.prefix_rfl List.prefix_rfl (hsame other) (fun _ _ hname => hname)
      fun _ _ hk => hk⟩

theorem nodeAt_concat (p : Profile) (place : List String) (name : String) :
    p.nodeAt (place ++ [name]) = ((p.nodeAt place).child? name).getD (empty name) := by
  induction place generalizing p with
  | nil => rfl
  | cons other rest ih => exact ih _

/-- The parent of a new child. -/
theorem NodeObject.IsAt.adopt (h : x.IsAt places owners place q) (hnew : name ∉ q.childNames)
    (hfresh : place ++ [name] ∉ places) :
    (x.adopt name places.length).IsAt (places ++ [place ++ [name]]) owners place (q.ensureChild name) := by
  constructor
  case name => exact h.name.trans (name_ensureChild q name).symm
  case infos => exact h.infos.trans (infos_ensureChild q name).symm
  case children =>
    rw [childNames_ensureChild, if_neg hnew, List.map_append]
    exact (h.children.grow (List.prefix_append _ _)).append
      (points_singleton (List.getElem?_concat_length ..))
  case byName =>
    intro other c
    rw [NodeObject.adopt, Assoc.get?_alter, getElem?_concat_eq_some_iff]
    by_cases hother : other = name
    · have hnone : places[c]? ≠ some (place ++ [name]) := fun hc => hfresh (List.mem_of_getElem? hc)
      simp [hother, hnone, eq_comm]
    · simp [hother, Ne.symm hother, h.byName]
  case counters => exact h.counters

/-- Nothing is below a new child. -/
theorem NodeObject.isAt_bare (hplaces : ∀ other, place ++ [other] ∉ places)
    (howners : ∀ other, (place, other) ∉ owners) :
    (NodeObject.bare name).IsAt places owners place (empty name) := by
  constructor
  case name => rfl
  case infos => rfl
  case children => exact points_nil
  case byName =>
    exact fun other c => iff_of_false (by simp [bare]) fun hc => hplaces other (List.mem_of_getElem? hc)
  case counters =>
    exact fun other k => iff_of_false (by simp [bare]) fun hk => howners other (List.mem_of_getElem? hk)

/-- A new child is the last object. -/
theorem NodesStand.addChild (h : NodesStand nodes places owners p) (hn : places[n]? = some place)
    (hnew : name ∉ (p.nodeAt place).childNames)
    (hc : Changes p p' place ((p.nodeAt place).ensureChild name))
    (hbare : ∀ other, (place ++ [name], other) ∉ owners) :
    NodesStand (nodes.modify n (·.adopt name places.length) ++ [.bare name]) (places ++ [place ++ [name]])
      owners p' := by
  have hfresh : place ++ [name] ∉ places := fun hmem => hnew ((h.mem_iff place name).mp hmem)
  have hnames : ((p.nodeAt place).ensureChild name).childNames = (p.nodeAt place).childNames ++ [name] := by
    rw [childNames_ensureChild, if_neg hnew]
  have hmade : p'.nodeAt (place ++ [name]) = empty name := by
    rw [nodeAt_concat, hc.self, child?_ensureChild, if_pos rfl, child?_eq_none_iff.mpr hnew]
    rfl
  constructor
  case length_eq => simp [h.length_eq]
  case nodup => exact List.concat_eq_append ▸ h.nodup.concat hfresh
  case mem_iff =>
    intro other child
    rw [List.mem_append, h.mem_iff, List.mem_singleton]
    by_cases hother : other = place
    · rw [hother, hc.self, hnames]
      simp
    · rw [(hc.others other hother).childNames]
      simp [hother]
  case node =>
    intro i other hi
    rcases getElem?_concat_eq_some_iff.mp hi with hold | ⟨rfl, rfl⟩
    · obtain ⟨x, hx, hat⟩ := h.node i other hold
      have hlt : i < nodes.length := (List.getElem?_eq_some_iff.mp hx).1
      rw [List.getElem?_append_left (by simpa using hlt), List.getElem?_modify, hx]
      by_cases hni : n = i
      · subst hni
        obtain rfl : place = other := Option.some.inj (hn.symm.trans hold)
        exact ⟨x.adopt name places.length, by simp, hc.self ▸ hat.adopt hnew hfresh⟩
      · have hne : other ≠ place := fun heq => hni (eq_of_getElem? h.nodup hn (heq ▸ hold))
        refine ⟨x, by simp [hni], hat.grow (List.prefix_append _ _) List.prefix_rfl
          (hc.others other hne).sameHead (fun c child hchild => ?_) fun _ _ hk => hk⟩
        rcases getElem?_concat_eq_some_iff.mp hchild with hchild | ⟨-, heq⟩
        · exact hchild
        · exact absurd (List.append_inj' heq rfl).1.symm hne
    · have hempty := hc.others (place ++ [name]) (by simp)
      rw [hmade] at hempty ⊢
      refine ⟨.bare name, by simp [← h.length_eq], NodeObject.isAt_bare (fun other hother => ?_) hbare⟩
      rcases List.mem_append.mp hother with hold | hlast
      · rw [h.mem_iff, ← hempty.childNames] at hold
        simp at hold
      · simp at hlast

-- ---------------------------------------------------------------------------
-- Counters
-- ---------------------------------------------------------------------------

/-- From `p` to `p'` at most one counter changed. -/
structure Counted (p p' : Profile) (place : List String) (name : String) : Prop where
  head : ∀ other, (p.nodeAt other).SameHead (p'.nodeAt other)
  others : ∀ other otherName, (other, otherName) ≠ (place, name) →
    (p'.nodeAt other).counter? otherName = (p.nodeAt other).counter? otherName

theorem counter?_modifyCounter (p : Profile) (name other : String) (unit : CounterUnit)
    (change : Counter → Counter) :
    (p.modifyCounter name unit change).counter? other =
      if other = name then some (change ((p.counter? name).getD { unit := unit })) else p.counter? other :=
  Assoc.get?_alter ..

/-- A request to a counter is a change of that counter. -/
theorem Changes.counted {unit : CounterUnit} (change : Counter → Counter)
    (hc : Changes p p' place ((p.nodeAt place).modifyCounter name unit change)) : Counted p p' place name := by
  constructor
  case head => exact hc.sameHead ⟨rfl, rfl, rfl⟩
  case others =>
    intro other otherName hne
    by_cases hother : other = place
    · subst hother
      have hname : otherName ≠ name := fun heq => hne (heq ▸ rfl)
      rw [hc.self, counter?_modifyCounter, if_neg hname]
    · exact hc.counter?_eq hother otherName

theorem CountersStand.same (h : CountersStand counters owners p)
    (hsame : ∀ other name, (p'.nodeAt other).counter? name = (p.nodeAt other).counter? name) :
    CountersStand counters owners p' := by
  refine { h with mem_iff := fun other name => ?_, counter := fun k other name hk => ?_ }
  · rw [h.mem_iff, hsame]
  · rw [hsame]
    exact h.counter k other name hk

/-- One counter object changes, the others stay as they are. -/
theorem CountersStand.modify (h : CountersStand counters owners p) (hk : owners[k]? = some (place, name))
    {change : Counter → Counter} (hc : Counted p p' place name)
    (hself : (p'.nodeAt place).counter? name = ((p.nodeAt place).counter? name).map change) :
    CountersStand (counters.modify k fun c => { c with counter := change c.counter }) owners p' := by
  constructor
  case length_eq => rw [List.length_modify, h.length_eq]
  case nodup => exact h.nodup
  case mem_iff =>
    intro other otherName
    rw [h.mem_iff]
    by_cases heq : (other, otherName) = (place, name)
    · obtain ⟨rfl, rfl⟩ := Prod.mk.inj heq
      rw [hself, Option.isSome_map]
    · rw [hc.others other otherName heq]
  case counter =>
    intro i other otherName hi
    obtain ⟨c, hget, hcounter⟩ := h.counter i other otherName hi
    rw [List.getElem?_modify, hget]
    by_cases hki : k = i
    · subst hki
      obtain ⟨rfl, rfl⟩ := Prod.mk.inj (Option.some.inj (hk.symm.trans hi))
      exact ⟨change c, by simp, by rw [hself, hcounter, Option.map_some]⟩
    · have hne : (other, otherName) ≠ (place, name) :=
        fun heq => hki (eq_of_getElem? h.nodup hk (heq ▸ hi))
      exact ⟨c, by simp [hki], by rw [hc.others other otherName hne, hcounter]⟩

/-- A new counter is the last object. -/
theorem CountersStand.add (h : CountersStand counters owners p) (hfresh : (place, name) ∉ owners)
    (hc : Counted p p' place name) {c : Counter} (hself : (p'.nodeAt place).counter? name = some c) :
    CountersStand (counters ++ [⟨name, c⟩]) (owners ++ [(place, name)]) p' := by
  constructor
  case length_eq => simp [h.length_eq]
  case nodup => exact List.concat_eq_append ▸ h.nodup.concat hfresh
  case mem_iff =>
    intro other otherName
    rw [List.mem_append, h.mem_iff, List.mem_singleton]
    by_cases heq : (other, otherName) = (place, name)
    · obtain ⟨rfl, rfl⟩ := Prod.mk.inj heq
      simp [hself]
    · rw [hc.others other otherName heq]
      simp [heq]
  case counter =>
    intro i other otherName hi
    rcases getElem?_concat_eq_some_iff.mp hi with hold | ⟨rfl, heq⟩
    · obtain ⟨d, hget, hcounter⟩ := h.counter i other otherName hold
      have hne : (other, otherName) ≠ (place, name) := fun heq => hfresh (heq ▸ List.mem_of_getElem? hold)
      rw [← hc.others other otherName hne] at hcounter
      exact ⟨d, getElem?_grow (List.prefix_append _ _) hget, hcounter⟩
    · obtain ⟨rfl, rfl⟩ := Prod.mk.inj heq
      exact ⟨c, by simp [← h.length_eq], hself⟩

-- ---------------------------------------------------------------------------
-- Steps
-- ---------------------------------------------------------------------------

theorem Stands.same (h : Stands o places owners p)
    (hsame : ∀ other, (p.nodeAt other).SameOwn (p'.nodeAt other)) : Stands o places owners p' := by
  refine ⟨h.nodes.same fun other => (hsame other).sameHead, h.counters.same fun other name => ?_⟩
  rw [counter?, counter?, (hsame other).counters]

theorem Stands.child? (h : Stands o places owners p) (hn : places[n]? = some place) (name : String)
    (c : Nat) : o.child? n name = some c ↔ places[c]? = some (place ++ [name]) := by
  obtain ⟨x, hx, hat⟩ := h.nodes.node n place hn
  rw [Objects.child?, hx, Option.bind_some, hat.byName]

theorem Stands.counter? (h : Stands o places owners p) (hn : places[n]? = some place) (name : String)
    (k : Nat) : o.counter? n name = some k ↔ owners[k]? = some (place, name) := by
  obtain ⟨x, hx, hat⟩ := h.nodes.node n place hn
  rw [Objects.counter?, hx, Option.bind_some, hat.counters]

theorem Stands.not_mem_of_child? (h : Stands o places owners p) (hn : places[n]? = some place)
    (hnone : o.child? n name = none) : place ++ [name] ∉ places := by
  intro hmem
  obtain ⟨c, hc⟩ := List.mem_iff_getElem?.mp hmem
  rw [(h.child? hn name c).mpr hc] at hnone
  simp at hnone

theorem Stands.not_mem_of_counter? (h : Stands o places owners p) (hn : places[n]? = some place)
    (hnone : o.counter? n name = none) : (place, name) ∉ owners := by
  intro hmem
  obtain ⟨k, hk⟩ := List.mem_iff_getElem?.mp hmem
  rw [(h.counter? hn name k).mpr hk] at hnone
  simp at hnone

/-- A child that is asked for is found on both sides or on none. -/
theorem Stands.nodesFor_getChild (h : Stands o places owners p) (hn : places[n]? = some place)
    (hq : p.find? place = some q) (name : String) :
    Points places (o.child? n name).toList (Handles.nodesFor p place (.getChild name)) := by
  have hfound : ((p.find? place).bind (·.child? name)).isSome ↔ place ++ [name] ∈ places := by
    rw [hq, Option.bind_some, h.nodes.mem_iff, nodeAt_of_find? hq, ← not_iff_not,
      Option.not_isSome_iff_eq_none, child?_eq_none_iff]
  rw [Handles.nodesFor]
  cases hchild : o.child? n name with
  | some c =>
    have hc := (h.child? hn name c).mp hchild
    rw [if_pos (hfound.mpr (List.mem_of_getElem? hc))]
    exact points_singleton hc
  | none =>
    rw [if_neg fun hsome => h.not_mem_of_child? hn hchild (hfound.mp hsome)]
    exact points_nil

theorem Stands.setInfo (h : Stands o places owners p) (hn : places[n]? = some place) {key value : String}
    (hc : Changes p p' place ((p.nodeAt place).setInfo key value)) :
    Stands (o.setInfo n key value) places owners p' := by
  constructor
  case nodes =>
    refine h.nodes.modify hn hc rfl List.prefix_rfl (fun _ _ _ hk _ => hk) fun x hat => ?_
    exact { hat with infos := congrArg (·.put key value) hat.infos }
  case counters => exact h.counters.same (hc.counter?_of_counters rfl)

/-- A child is found, or it is made. -/
theorem Stands.ensureChild (h : Stands o places owners p) (hn : places[n]? = some place)
    (hc : Changes p p' place ((p.nodeAt place).ensureChild name)) :
    ∃ more, places <+: more ∧ Stands (o.ensureChild n name).1 more owners p' ∧
      more[(o.ensureChild n name).2]? = some (place ++ [name]) := by
  have hcounters := h.counters.same (hc.counter?_of_counters (counters_ensureChild _ name))
  rw [Objects.ensureChild]
  cases hchild : o.child? n name with
  | some c =>
    have hplace := (h.child? hn name c).mp hchild
    have hmem := (h.nodes.mem_iff place name).mp (List.mem_of_getElem? hplace)
    refine ⟨places, List.prefix_rfl, ⟨h.nodes.same (hc.sameHead ⟨?_, ?_, ?_⟩), hcounters⟩, hplace⟩
    · exact name_ensureChild _ name
    · exact infos_ensureChild _ name
    · rw [childNames_ensureChild, if_pos hmem, List.append_nil]
  | none =>
    have hnew : name ∉ (p.nodeAt place).childNames := by
      rw [← h.nodes.mem_iff]
      exact h.not_mem_of_child? hn hchild
    have hbare : ∀ other, (place ++ [name], other) ∉ owners := by
      intro other
      rw [h.counters.mem_iff, nodeAt_concat, child?_eq_none_iff.mpr hnew]
      exact Bool.false_ne_true
    have hnodes := h.nodes.addChild hn hnew hc hbare
    rw [← h.nodes.length_eq] at hnodes
    refine ⟨_, List.prefix_append _ _, ⟨hnodes, hcounters⟩, ?_⟩
    rw [h.nodes.length_eq]
    exact List.getElem?_concat_length ..

/-- A counter is found, or it is made. -/
theorem Stands.ensureCounter (h : Stands o places owners p) (hn : places[n]? = some place) {unit : CounterUnit}
    (hc : Changes p p' place ((p.nodeAt place).ensureCounter name unit)) :
    ∃ others, owners <+: others ∧ Stands (o.ensureCounter n name unit).1 places others p' ∧
      others[(o.ensureCounter n name unit).2]? = some (place, name) := by
  have hcounted : Counted p p' place name := Changes.counted id hc
  have hself : (p'.nodeAt place).counter? name =
      some (((p.nodeAt place).counter? name).getD { unit := unit }) := by
    rw [hc.self, Profile.ensureCounter, counter?_modifyCounter, if_pos rfl, id_eq]
  rw [Objects.ensureCounter]
  cases hcounter : o.counter? n name with
  | some k =>
    have howner := (h.counter? hn name k).mp hcounter
    obtain ⟨c, -, hold⟩ := h.counters.counter k place name howner
    refine ⟨owners, List.prefix_rfl, ⟨h.nodes.same hcounted.head, h.counters.same fun other otherName => ?_⟩,
      howner⟩
    by_cases heq : (other, otherName) = (place, name)
    · obtain ⟨rfl, rfl⟩ := Prod.mk.inj heq
      rw [hself, hold, Option.getD_some]
    · exact hcounted.others other otherName heq
  | none =>
    have hfresh := h.not_mem_of_counter? hn hcounter
    have hnone : (p.nodeAt place).counter? name = none := by
      rwa [← Option.not_isSome_iff_eq_none, ← h.counters.mem_iff]
    rw [hnone, Option.getD_none] at hself
    refine ⟨_, List.prefix_append _ _, ⟨?_, h.counters.add hfresh hcounted hself⟩, ?_⟩
    · refine h.nodes.modify hn hc rfl (List.prefix_append _ _) (fun k other otherName hk hne => ?_)
        fun x hat => ?_
      · rcases getElem?_concat_eq_some_iff.mp hk with hold | ⟨-, heq⟩
        · exact hold
        · exact absurd (Prod.mk.inj heq).1.symm hne
      · exact h.counters.length_eq ▸ hat.count hfresh ⟨rfl, rfl, rfl⟩
    · rw [h.counters.length_eq]
      exact List.getElem?_concat_length ..

/-- A counter that is there changes. -/
theorem Stands.modifyCounter (h : Stands o places owners p) (hk : owners[k]? = some (place, name))
    {change : Counter → Counter} (hc : Counted p p' place name)
    (hself : (p'.nodeAt place).counter? name = ((p.nodeAt place).counter? name).map change) :
    Stands (o.modifyCounter k change) places owners p' :=
  ⟨h.nodes.same hc.head, h.counters.modify hk hc hself⟩

/-- A counter is found or made, and then changes. -/
theorem Stands.touch (h : Stands o places owners p) (hn : places[n]? = some place)
    (hq : p.find? place = some q) {unit : CounterUnit} {change : Counter → Counter}
    (hc : Changes p p' place ((p.nodeAt place).modifyCounter name unit change)) :
    ∃ others, owners <+: others ∧
      Stands ((o.ensureCounter n name unit).1.modifyCounter (o.ensureCounter n name unit).2 change) places
        others p' := by
  -- the counter as it is before the change
  have hmade : Changes p (p.modify place (·.ensureCounter name unit)) place
      ((p.nodeAt place).ensureCounter name unit) := changes_modify (r := .counter name unit) hq
  obtain ⟨others, hgrow, hstands, hk⟩ := h.ensureCounter hn hmade
  refine ⟨others, hgrow, hstands.modifyCounter hk ?_ ?_⟩
  · have hold : Counted p _ place name := Changes.counted id hmade
    have hnew := Changes.counted change hc
    refine ⟨fun other => ?_, fun other otherName hne => ?_⟩
    · have h₁ := hold.head other
      have h₂ := hnew.head other
      exact ⟨h₂.name.trans h₁.name.symm, h₂.infos.trans h₁.infos.symm,
        h₂.childNames.trans h₁.childNames.symm⟩
    · rw [hnew.others other otherName hne, hold.others other otherName hne]
  · rw [hc.self, hmade.self, Profile.ensureCounter, counter?_modifyCounter, counter?_modifyCounter, if_pos rfl,
      if_pos rfl, Option.map_some, id_eq]

-- ---------------------------------------------------------------------------
-- Runs
-- ---------------------------------------------------------------------------

/-- What was handed out as objects and what was handed out as places. -/
structure Matches (m : Holding) (r : Handles) (places : List (List String))
    (owners : List (List String × String)) : Prop where
  stands : Stands m.objects places owners r.tree
  nodes : Points places m.nodes r.nodes
  counters : Points owners m.counters r.counters

variable {m m' : Holding} {r : Handles}

/-- A request that is carried out on both sides. -/
theorem Matches.carryOut (h : Matches m r places owners) {request : Request} (ns ks : List Nat)
    (hstands : Stands m'.objects more others (r.tree.modify place request.apply)) (hplaces : places <+: more)
    (howners : owners <+: others) (hnodes : m'.nodes = m.nodes ++ ns)
    (hns : Points more ns (Handles.nodesFor r.tree place request))
    (hcounters : m'.counters = m.counters ++ ks)
    (hks : Points others ks (Handles.countersFor place request)) :
    Matches m' (r.carryOut place request) more others := by
  constructor
  case stands => exact hstands
  case nodes => exact hnodes ▸ (h.nodes.grow hplaces).append hns
  case counters => exact hcounters ▸ (h.counters.grow howners).append hks

/-- A call through the handle of a node. -/
theorem Matches.onNode (h : Matches m r places owners) (hkept : r.Kept) {call : HandleCall} {request : Request}
    (hcall : call.placed? r = (r.nodes[k]?).map fun place => (place, request)) {next : Nat → Holding}
    (hnext : ∀ (n : Nat) (place : List String) (q : Profile), places[n]? = some place →
      r.tree.find? place = some q →
      ∃ more others, Matches (next n) (r.carryOut place request) more others) :
    ∃ more others, Matches (m.onNode k next) (r.act call) more others := by
  rw [Handles.act, hcall, Holding.onNode]
  cases hr : r.nodes[k]? with
  | none =>
    rw [h.nodes.of_none hr]
    exact ⟨places, owners, h⟩
  | some place =>
    obtain ⟨n, hn, hplace⟩ := h.nodes.of_some hr
    obtain ⟨q, hq⟩ := Option.isSome_iff_exists.mp (hkept.node place (List.mem_of_getElem? hr))
    rw [hn]
    exact hnext n place q hplace hq

theorem Matches.handOut (h : Matches m r places owners) (hn : places[n]? = some place)
    (hq : r.tree.find? place = some q) (name : String) (unit : CounterUnit) :
    ∃ more others, Matches (m.handOut n name unit) (r.carryOut place (.counter name unit)) more others := by
  obtain ⟨others, hgrow, hstands, hk⟩ :=
    h.stands.ensureCounter hn (changes_modify (r := .counter name unit) hq)
  exact ⟨places, others, h.carryOut [] _ hstands List.prefix_rfl hgrow (List.append_nil _).symm rfl rfl
    (points_singleton hk)⟩

theorem Matches.touch (h : Matches m r places owners) (hn : places[n]? = some place)
    (hq : r.tree.find? place = some q) {request : Request} {unit : CounterUnit} {change : Counter → Counter}
    (happly : ∀ c, request.apply c = c.modifyCounter name unit change)
    (hnodes : Handles.nodesFor r.tree place request = [])
    (hcounters : Handles.countersFor place request = []) :
    ∃ more others, Matches (m.touch n name unit change) (r.carryOut place request) more others := by
  have hc := changes_modify (r := request) hq
  rw [happly] at hc
  obtain ⟨others, hgrow, hstands⟩ := h.stands.touch hn hq hc
  exact ⟨places, others, h.carryOut [] [] hstands List.prefix_rfl hgrow
    (List.append_nil _).symm (hnodes ▸ points_nil) (List.append_nil _).symm (hcounters ▸ points_nil)⟩

/-- A call through the handle of a counter. -/
theorem Matches.modifyHeld (h : Matches m r places owners) (hkept : r.Kept) {call : HandleCall}
    (request : String → Request) {change : Counter → Counter}
    (hcall : call.placed? r = (r.counters[k]?).map fun e => (e.1, request e.2))
    (happly : ∀ name c, (request name).apply c = c.modifyCounter name .count change)
    (hnodes : ∀ place name, Handles.nodesFor r.tree place (request name) = [])
    (hcounters : ∀ place name, Handles.countersFor place (request name) = []) :
    ∃ more others, Matches (m.modifyHeld k change) (r.act call) more others := by
  rw [Handles.act, hcall, Holding.modifyHeld]
  cases hr : r.counters[k]? with
  | none =>
    rw [h.counters.of_none hr]
    exact ⟨places, owners, h⟩
  | some e =>
    obtain ⟨place, name⟩ := e
    obtain ⟨c, hc, howner⟩ := h.counters.of_some hr
    obtain ⟨q, hq⟩ := Option.isSome_iff_exists.mp (hkept.counter _ (List.mem_of_getElem? hr)).1
    obtain ⟨before, -, hbefore⟩ := h.stands.counters.counter c place name howner
    have hchanges := changes_modify (r := request name) hq
    rw [happly] at hchanges
    rw [hc]
    refine ⟨places, owners, h.carryOut [] []
      (h.stands.modifyCounter howner (Changes.counted change hchanges) ?_) List.prefix_rfl List.prefix_rfl
      (List.append_nil _).symm (hnodes place name ▸ points_nil) (List.append_nil _).symm
      (hcounters place name ▸ points_nil)⟩
    rw [hchanges.self, counter?_modifyCounter, if_pos rfl, hbefore, Option.getD_some, Option.map_some]

/-- One call on both sides. -/
theorem Matches.act (h : Matches m r places owners) (hkept : r.Kept) (call : HandleCall) :
    ∃ more others, Matches (m.act call) (r.act call) more others := by
  cases call with
  | child k name =>
    refine h.onNode hkept rfl fun n place q hn hq => ?_
    obtain ⟨more, hgrow, hstands, hc⟩ :=
      h.stands.ensureChild hn (changes_modify (r := .child name) hq)
    exact ⟨more, owners, h.carryOut _ [] hstands hgrow List.prefix_rfl rfl
      (points_singleton hc) (List.append_nil _).symm points_nil⟩
  | getChild k name =>
    refine h.onNode hkept rfl fun n place q hn hq => ?_
    have hsame := Changes.sameOwn (changes_modify (r := .getChild name) hq)
    exact ⟨places, owners, h.carryOut _ [] (h.stands.same hsame) List.prefix_rfl List.prefix_rfl rfl
      (h.stands.nodesFor_getChild hn hq name) (List.append_nil _).symm rfl⟩
  | info k key value =>
    refine h.onNode hkept rfl fun n place q hn hq => ?_
    have hstands := h.stands.setInfo hn (changes_modify (r := .info key value) hq)
    exact ⟨places, owners, h.carryOut [] [] hstands List.prefix_rfl List.prefix_rfl
      (List.append_nil _).symm rfl (List.append_nil _).symm rfl⟩
  | counter k name unit =>
    exact h.onNode hkept rfl fun n place q hn hq => h.handOut hn hq name unit
  | timer k name =>
    exact h.onNode hkept rfl fun n place q hn hq => h.handOut hn hq name .nanoseconds
  | addTo k name unit v =>
    exact h.onNode hkept rfl fun n place q hn hq => h.touch hn hq (fun _ => rfl) rfl rfl
  | setTo k name unit v =>
    exact h.onNode hkept rfl fun n place q hn hq => h.touch hn hq (fun _ => rfl) rfl rfl
  | add k v =>
    exact h.modifyHeld hkept (.add · v) rfl (fun _ _ => rfl) (fun _ _ => rfl) fun _ _ => rfl
  | set k v =>
    exact h.modifyHeld hkept (.set · v) rfl (fun _ _ => rfl) (fun _ _ => rfl) fun _ _ => rfl

theorem matches_start (name : String) :
    Matches { objects := { nodes := [.bare name] } } { tree := empty name } [[]] [] := by
  have hnodes : NodesStand [.bare name] [[]] [] (empty name) := by
    constructor
    case length_eq => rfl
    case nodup => exact List.nodup_singleton _
    case mem_iff =>
      intro place child
      obtain ⟨last, hlast⟩ := nodeAt_empty name place
      simp [hlast]
    case node =>
      intro n place hn
      obtain ⟨rfl, rfl⟩ : n = 0 ∧ place = [] := by
        simpa [List.getElem?_singleton, and_comm, eq_comm] using hn
      exact ⟨.bare name, rfl, rfl, rfl, rfl, fun child c => iff_of_false (by simp [NodeObject.bare])
        (by simp [List.getElem?_singleton]), fun _ _ => iff_of_false (by simp [NodeObject.bare]) (by simp)⟩
  have hcounters : CountersStand [] [] (empty name) := by
    refine ⟨rfl, List.nodup_nil, fun place counter => ?_, fun k place counter hk => by simp at hk⟩
    obtain ⟨last, hlast⟩ := nodeAt_empty name place
    rw [hlast]
    exact iff_of_false List.not_mem_nil Bool.false_ne_true
  exact ⟨⟨hnodes, hcounters⟩, rfl, rfl⟩

/-- Objects are at their places all the time. -/
theorem stands_run (name : String) (calls : List HandleCall) :
    ∃ places owners, Matches (Holding.run name calls) (Handles.run name calls) places owners := by
  induction calls using List.reverseRecOn with
  | nil => exact ⟨[[]], [], matches_start name⟩
  | append_singleton calls call ih =>
    obtain ⟨places, owners, h⟩ := ih
    rw [Holding.run, List.foldl_append, Handles.run_concat]
    exact h.act (Handles.kept_run name calls) call

-- ---------------------------------------------------------------------------
-- What is read off objects
-- ---------------------------------------------------------------------------

/-- The object with number `n` shows the node `p`. -/
structure Objects.Shows (o : Objects) (n : Nat) (p : Profile) (x : NodeObject) : Prop where
  found : o.nodes[n]? = some x
  name : x.name = p.name
  infos : x.infos = p.infos
  children : x.children.map (fun c => (o.nodes[c]?).map (·.name)) = p.childNames.map some
  once : x.children.Nodup
  /-- List and map hold the same children. -/
  listed : ∀ c, c ∈ x.children ↔ ∃ name, x.byName.get? name = some c
  /-- The map knows a child by the name that it has. -/
  byName : ∀ name c, x.byName.get? name = some c → (o.nodes[c]?).map (·.name) = some name
  value : ∀ name, o.value? n name = p.value? name

/-- Handles are objects, and the objects are what the tree has at the places of the handles. -/
structure SameObjects (m : Holding) (r : Handles) : Prop where
  /-- Two handles are one node if they are at one place. -/
  node : ∀ i j : Nat, m.nodes[i]? = m.nodes[j]? ↔ r.nodes[i]? = r.nodes[j]?
  counter : ∀ i j : Nat, m.counters[i]? = m.counters[j]? ↔ r.counters[i]? = r.counters[j]?
  shown : ∀ (k n : Nat), m.nodes[k]? = some n → ∃ x p, r.node? k = some p ∧ m.objects.Shows n p x
  held : ∀ k, m.counter? k = r.counter? k

/-- A child has the name by which its place ends. -/
theorem Stands.name_eq (h : Stands o places owners p) {c : Nat} (hc : places[c]? = some (place ++ [name])) :
    (o.nodes[c]?).map (·.name) = some name := by
  obtain ⟨x, hx, hat⟩ := h.nodes.node c _ hc
  rw [hx, Option.map_some, hat.name, nodeAt_concat]
  cases hchild : (p.nodeAt place).child? name with
  | none => rfl
  | some q => exact congrArg some (name_of_child? hchild)

theorem NodeObject.IsAt.exists_place (hat : x.IsAt places owners place q) {c : Nat} (hc : c ∈ x.children) :
    ∃ name, places[c]? = some (place ++ [name]) := by
  obtain ⟨child, hchild, hplace⟩ := hat.children.exists_of_mem hc
  obtain ⟨name, -, rfl⟩ := List.mem_map.mp hchild
  exact ⟨name, hplace⟩

/-- The children have the names that the tree has there, in order. -/
theorem Stands.map_name_children (h : Stands o places owners p) (hat : x.IsAt places owners place q) :
    x.children.map (fun c => (o.nodes[c]?).map (·.name)) = q.childNames.map some := by
  have hnames : x.children.map (fun c => (o.nodes[c]?).map (·.name)) =
      (x.children.map (places[·]?)).map (·.bind List.getLast?) := by
    rw [List.map_map]
    refine List.map_congr_left fun c hc => ?_
    obtain ⟨name, hname⟩ := hat.exists_place hc
    rw [h.name_eq hname, Function.comp_apply, hname, Option.bind_some, List.getLast?_concat]
  rw [hnames, hat.children, List.map_map, List.map_map]
  refine List.map_congr_left fun name _ => ?_
  simp

theorem Stands.mem_children_iff (h : Stands o places owners p)
    (hat : x.IsAt places owners place (p.nodeAt place)) (c : Nat) :
    c ∈ x.children ↔ ∃ name, x.byName.get? name = some c := by
  constructor
  · intro hc
    obtain ⟨name, hname⟩ := hat.exists_place hc
    exact ⟨name, (hat.byName name c).mpr hname⟩
  · rintro ⟨name, hname⟩
    have hc := (hat.byName name c).mp hname
    have hlisted := (h.nodes.mem_iff place name).mp (List.mem_of_getElem? hc)
    obtain ⟨d, hd, hdplace⟩ := hat.children.exists_number (List.mem_map_of_mem hlisted)
    rwa [eq_of_getElem? h.nodes.nodup hc hdplace]

theorem Stands.value?_eq (h : Stands o places owners p) (hn : places[n]? = some place) (name : String) :
    o.value? n name = (p.nodeAt place).value? name := by
  rw [Objects.value?, Profile.value?]
  cases hk : o.counter? n name with
  | none =>
    have hnone : (p.nodeAt place).counter? name = none := by
      rw [← Option.not_isSome_iff_eq_none, ← h.counters.mem_iff]
      exact h.not_mem_of_counter? hn hk
    rw [hnone]
    rfl
  | some k =>
    obtain ⟨c, hget, hc⟩ := h.counters.counter k place name ((h.counter? hn name k).mp hk)
    rw [Option.bind_some, hget, hc]
    rfl

theorem Stands.shows (h : Stands o places owners p) (hp : p.Proper) (hn : places[n]? = some place) :
    ∃ x, o.Shows n (p.nodeAt place) x := by
  obtain ⟨x, hx, hat⟩ := h.nodes.node n place hn
  refine ⟨x, ?_⟩
  constructor
  case found => exact hx
  case name => exact hat.name
  case infos => exact hat.infos
  case children => exact h.map_name_children hat
  case once =>
    refine List.Nodup.of_map (places[·]?) ?_
    rw [hat.children, List.map_map]
    refine (hp.nodeAt place).tidy.nodup.map fun name other heq => ?_
    simpa using heq
  case listed => exact h.mem_children_iff hat
  case byName => exact fun name c hc => h.name_eq ((hat.byName name c).mp hc)
  case value => exact h.value?_eq hn

/-- Whatever is asked through handles, objects and places tell the same. -/
theorem sameObjects_run (name : String) (calls : List HandleCall) :
    SameObjects (Holding.run name calls) (Handles.run name calls) := by
  obtain ⟨places, owners, h⟩ := stands_run name calls
  have hkept := Handles.kept_run name calls
  constructor
  case node => exact h.nodes.getElem?_eq_iff h.stands.nodes.nodup
  case counter => exact h.counters.getElem?_eq_iff h.stands.counters.nodup
  case shown =>
    intro k n hk
    have hnode := h.nodes.map_getElem? k
    rw [hk, Option.map_some] at hnode
    obtain ⟨place, hr, hplace⟩ := Option.map_eq_some_iff.mp hnode.symm
    obtain ⟨q, hq⟩ := Option.isSome_iff_exists.mp (hkept.node place (List.mem_of_getElem? hr))
    obtain ⟨x, hshows⟩ := h.stands.shows hkept.proper hplace.symm
    rw [nodeAt_of_find? hq] at hshows
    exact ⟨x, q, by rw [Handles.node?, hr, Option.bind_some, hq], hshows⟩
  case held =>
    intro k
    rw [Holding.counter?, Handles.counter?]
    cases hr : (Handles.run name calls).counters[k]? with
    | none =>
      rw [h.counters.of_none hr]
      rfl
    | some e =>
      obtain ⟨c, hc, howner⟩ := h.counters.of_some hr
      obtain ⟨q, hq⟩ := Option.isSome_iff_exists.mp (hkept.counter e (List.mem_of_getElem? hr)).1
      obtain ⟨d, hget, hd⟩ := h.stands.counters.counter c e.1 e.2 howner
      rw [nodeAt_of_find? hq] at hd
      rw [hc, Option.bind_some, hget, Option.bind_some, hq, Option.bind_some, hd]
      rfl

/-- Both handles of the child are the same node. -/
example : (Holding.run "fragment" Handles.sharing).nodes = [0, 1, 1] := by decide

end FragmentHost.Profile

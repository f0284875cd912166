import FragmentHost.Proofs.Host.Teardown
import FragmentHost.Proofs.Memory.Returns

/-!
# Forgetting names in steps

What nobody holds is given up as soon as a name goes. When several names go one after the other, some
objects go early and others late, and which ones depends on the order. In the end it makes no difference:
giving up first what some names leave and then what fewer names leave ends where giving up at once does
(`collect_collect`).

What goes late was still held when the early objects went, and so was everything that it holds. So nothing
that goes late returns bytes through an allocator that went early, and the steps can be exchanged: returns
with each other and with drops that they do not pass (`Forest.release_release`, `Forest.release_drop`), and
drops with each other as long as allocators go after those below them (`Forest.dropAll_perm`).
-/

namespace FragmentHost

namespace Arena

-- ---------------------------------------------------------------------------
-- Releases in any order
-- ---------------------------------------------------------------------------

/-- The bytes that go back when buffer `b` is released now. -/
def outstanding (a : Arena) (b : Nat) : Int := if a.isReleased b then 0 else a.capacity b

/-- The arena after allocators were dropped one after the other. -/
def dropAll (a : Arena) (numbers : List Nat) : Arena :=
  { a with forest := a.forest.dropAll numbers }

theorem dropAll_append (a : Arena) (numbers later : List Nat) :
    a.dropAll (numbers ++ later) = (a.dropAll numbers).dropAll later := by
  rw [dropAll, Forest.dropAll_append]
  rfl

theorem outstanding_nonneg (a : Arena) (b : Nat) : 0 ≤ a.outstanding b := by
  unfold outstanding
  split
  · exact le_rfl
  · exact Int.natCast_nonneg _

/-- A release of any buffer, also of one that is released or not there. -/
theorem releaseBuffer_eq (a : Arena) (b : Nat) : (a.releaseBuffer b).1 =
    { a.modifyBuffer b (fun x => { x with contents := none }) with
      forest := a.forest.release (a.allocatorOf b) (a.outstanding b) } := by
  have hidle : ∀ i, a.forest.release i 0 = a.forest := fun i =>
    Forest.discharge_of_nonpos _ _ le_rfl
  cases hb : a.buffer? b with
  | none =>
    have hbuffers : a.buffers.modify b (fun x => { x with contents := none }) = a.buffers :=
      List.modify_eq_self (buffer?_eq_none_iff.mp hb)
    have hnothing : a.outstanding b = 0 := by simp [outstanding, isReleased, hb]
    rw [releaseBuffer_of_none hb, hnothing, hidle, modifyBuffer, hbuffers]
  | some x =>
    cases hx : x.isReleased with
    | false =>
      have hcapacity : a.outstanding b = x.capacity := by
        simp [outstanding, isReleased, capacity, hb, hx]
      rw [releaseBuffer_of_unreleased hb hx, hcapacity, allocatorOf, hb]
      rfl
    | true =>
      -- a released buffer has no contents already
      have hnone : x.contents = none := by simpa [Buffer.isReleased] using hx
      have hbuffers : a.buffers.modify b (fun x => { x with contents := none }) = a.buffers := by
        refine List.ext_getElem? fun c => ?_
        rw [List.getElem?_modify]
        by_cases hbc : b = c
        · subst hbc
          rw [show a.buffers[b]? = some x from hb]
          simp [← hnone]
        · simp [hbc]
      have hnothing : a.outstanding b = 0 := by simp [outstanding, isReleased, hb, hx]
      rw [releaseBuffer_of_released hb hx, hnothing, hidle, modifyBuffer, hbuffers]

theorem releaseBuffer_of_isReleased {a : Arena} {b : Nat} (hb : a.isReleased b = true) :
    (a.releaseBuffer b).1 = a := by
  cases hx : a.buffer? b with
  | none => rw [releaseBuffer_of_none hx]
  | some x =>
    rw [releaseBuffer_of_released hx]
    rw [← isReleased_of_buffer? hx, hb]

theorem allocatorOf_releaseBuffer (a : Arena) (b c : Nat) :
    (a.releaseBuffer b).1.allocatorOf c = a.allocatorOf c := by
  unfold allocatorOf
  rw [buffer?_releaseBuffer]
  split
  · cases a.buffer? c <;> rfl
  · rfl

variable {a : Arena}

theorem kept_by_releaseBuffer (hl : a.forest.Linked) (hs : a.forest.Sound) (b : Nat) :
    (a.releaseBuffer b).1.forest.Linked ∧ (a.releaseBuffer b).1.forest.Sound ∧
      ∀ i, (a.releaseBuffer b).1.forest.path i = a.forest.path i := by
  rw [releaseBuffer_eq]
  exact Forest.kept_by_release hl hs (a.allocatorOf b) (a.outstanding b)

theorem releaseBuffer_releaseBuffer (hl : a.forest.Linked) (hs : a.forest.Sound) (b c : Nat) :
    ((a.releaseBuffer b).1.releaseBuffer c).1 = ((a.releaseBuffer c).1.releaseBuffer b).1 := by
  by_cases hbc : b = c
  · rw [hbc]
  · have hsame : (a.releaseBuffer b).1.buffer? c = a.buffer? c := by
      rw [buffer?_releaseBuffer, if_neg hbc]
    have hsame' : (a.releaseBuffer c).1.buffer? b = a.buffer? b := by
      rw [buffer?_releaseBuffer, if_neg (Ne.symm hbc)]
    have howed : (a.releaseBuffer b).1.outstanding c = a.outstanding c := by
      rw [outstanding, isReleased_congr hsame, capacity, hsame, ← capacity, ← outstanding]
    have howed' : (a.releaseBuffer c).1.outstanding b = a.outstanding b := by
      rw [outstanding, isReleased_congr hsame', capacity, hsame', ← capacity, ← outstanding]
    have hforest := Forest.release_release hl hs (a.allocatorOf b) (a.allocatorOf c)
      (a.outstanding_nonneg b) (a.outstanding_nonneg c)
    rw [releaseBuffer_eq (a.releaseBuffer b).1 c, releaseBuffer_eq (a.releaseBuffer c).1 b, howed,
      howed', allocatorOf_releaseBuffer, allocatorOf_releaseBuffer, releaseBuffer_eq a b,
      releaseBuffer_eq a c]
    simp only [modifyBuffer, Arena.mk.injEq]
    exact ⟨hforest, trivial, List.modify_modify_ne _ _ _ hbc⟩

theorem releaseAll_releaseBuffer (hl : a.forest.Linked) (hs : a.forest.Sound) (b : Nat)
    (bs : List Nat) :
    ((a.releaseBuffer b).1.releaseAll bs).1 = ((a.releaseAll bs).1.releaseBuffer b).1 := by
  induction bs generalizing a with
  | nil => rfl
  | cons c rest ih =>
    obtain ⟨hl', hs', -⟩ := kept_by_releaseBuffer hl hs c
    rw [fst_releaseAll_cons, releaseBuffer_releaseBuffer hl hs b c, ih hl' hs', fst_releaseAll_cons]

/-- Buffers that were released early are not released again. -/
theorem releaseAll_releaseAll (hl : a.forest.Linked) (hs : a.forest.Sound) {early bs : List Nat}
    (hsub : early ⊆ bs) : ((a.releaseAll early).1.releaseAll bs).1 = (a.releaseAll bs).1 := by
  induction early generalizing a with
  | nil => rfl
  | cons b early ih =>
    obtain ⟨hb, hearly⟩ := List.cons_subset.mp hsub
    obtain ⟨hl', hs', -⟩ := kept_by_releaseBuffer hl hs b
    have hreleased : (a.releaseAll bs).1.isReleased b = true := by
      rw [isReleased_releaseAll, List.contains_iff_mem.mpr hb, Bool.or_true]
    rw [fst_releaseAll_cons, ih hl' hs' hearly, releaseAll_releaseBuffer hl hs,
      releaseBuffer_of_isReleased hreleased]

-- ---------------------------------------------------------------------------
-- Releases and drops
-- ---------------------------------------------------------------------------

/-- Nothing that is still to be returned for buffer `b` comes to one of these allocators. -/
def Avoids (a : Arena) (numbers : List Nat) (b : Nat) : Prop :=
  a.isReleased b = true ∨ ∀ i ∈ numbers, i ∉ a.forest.path (a.allocatorOf b)

theorem releaseBuffer_dropAll (hl : a.forest.Linked) (hs : a.forest.Sound) {b : Nat}
    {numbers : List Nat} (hb : a.Avoids numbers b) :
    ((a.dropAll numbers).releaseBuffer b).1 = (a.releaseBuffer b).1.dropAll numbers := by
  rcases hb with hreleased | hpath
  · have hreleased' : (a.dropAll numbers).isReleased b = true := hreleased
    rw [releaseBuffer_of_isReleased hreleased', releaseBuffer_of_isReleased hreleased]
  · have hforest := Forest.release_dropAll hl hs hpath (a.outstanding_nonneg b)
    rw [releaseBuffer_eq, releaseBuffer_eq]
    show ({ a.modifyBuffer b _ with
      forest := (a.forest.dropAll numbers).release (a.allocatorOf b) (a.outstanding b) } : Arena) = _
    rw [hforest]
    rfl

theorem releaseAll_dropAll (hl : a.forest.Linked) (hs : a.forest.Sound) {bs numbers : List Nat}
    (hbs : ∀ b ∈ bs, a.Avoids numbers b) :
    ((a.dropAll numbers).releaseAll bs).1 = (a.releaseAll bs).1.dropAll numbers := by
  induction bs generalizing a with
  | nil => rfl
  | cons b rest ih =>
    obtain ⟨hl', hs', hpath⟩ := kept_by_releaseBuffer hl hs b
    have hrest : ∀ c ∈ rest, (a.releaseBuffer b).1.Avoids numbers c := by
      intro c hc
      rcases hbs c (List.mem_cons_of_mem b hc) with hreleased | havoids
      · exact Or.inl (by rw [isReleased_releaseBuffer, hreleased, Bool.true_or])
      · exact Or.inr fun i hi => by rw [hpath, allocatorOf_releaseBuffer]; exact havoids i hi
    rw [fst_releaseAll_cons, releaseBuffer_dropAll hl hs (hbs b (List.mem_cons_self ..)),
      ih hl' hs' hrest, fst_releaseAll_cons]

theorem kept_by_releaseAll (hl : a.forest.Linked) (hs : a.forest.Sound) (bs : List Nat) :
    (a.releaseAll bs).1.forest.Linked ∧ (a.releaseAll bs).1.forest.Sound ∧
      ∀ i, (a.releaseAll bs).1.forest.path i = a.forest.path i := by
  induction bs generalizing a with
  | nil => exact ⟨hl, hs, fun _ => rfl⟩
  | cons b rest ih =>
    obtain ⟨hl', hs', hpath⟩ := kept_by_releaseBuffer hl hs b
    obtain ⟨hl'', hs'', hpath'⟩ := ih hl' hs'
    exact ⟨hl'', hs'', fun i => (hpath' i).trans (hpath i)⟩

theorem allocatorOf_releaseAll (a : Arena) (bs : List Nat) (c : Nat) :
    (a.releaseAll bs).1.allocatorOf c = a.allocatorOf c := by
  induction bs generalizing a with
  | nil => rfl
  | cons b rest ih => rw [fst_releaseAll_cons, ih, allocatorOf_releaseBuffer]

end Arena

namespace Forest

theorem isDropped_dropAll (f : Forest) (numbers : List Nat) (j : Nat) :
    (f.dropAll numbers).isDropped j = (f.isDropped j || numbers.contains j) := by
  induction numbers generalizing f with
  | nil => simp
  | cons i numbers ih =>
    rw [dropAll_cons, ih, List.contains_cons, ← Bool.or_assoc]
    congr 1
    by_cases hij : i = j
    · subst hij
      have hgone : (f.drop i).1.isDropped i = true := by
        rw [fst_drop, isDropped, get?_modify_self]
        cases (f.shut i).1.get? i <;> rfl
      rw [hgone, beq_self_eq_true, Bool.or_true]
    · rw [Host.isDropped_drop_of_ne f hij, beq_eq_false_iff_ne.mpr (Ne.symm hij), Bool.or_false]

/-- Everything above an allocator on a path is on the path. -/
theorem Linked.mem_path_trans {f : Forest} (hl : f.Linked) {i j k : Nat} (hij : i ∈ f.path j)
    (hjk : j ∈ f.path k) : i ∈ f.path k := by
  have hsuffix : ∀ {path : List Nat}, f.Climbs path → j ∈ path → ∀ x ∈ f.path j, x ∈ path := by
    intro path
    induction path with
    | nil => simp
    | cons m rest ih =>
      rintro ⟨⟨a, ha, habove⟩, -, hc⟩ hj x hx
      rcases List.mem_cons.mp hj with rfl | hj
      · rwa [path_of_get? ha, habove] at hx
      · exact List.mem_cons_of_mem m (ih hc hj x hx)
  exact hsuffix (hl.climbs_path k) hjk i hij

/-- A path does not lead to what was made later. -/
theorem Linked.not_mem_path_of_lt {f : Forest} (hl : f.Linked) {i j : Nat} (hij : j < i) :
    i ∉ f.path j := by
  cases ha : f.get? j with
  | none => simp [path, ha]
  | some a =>
    rw [path_of_get? ha]
    exact Climbs.not_mem_of_lt (hl j a ha) hij

end Forest

/-- Everything that is held by the name of `fewer` is held by one of `names`. -/
structure Holders.Within (fewer names : Holders) : Prop where
  allocators : fewer.allocators ⊆ names.allocators
  pools : fewer.pools ⊆ names.pools
  buffers : fewer.buffers ⊆ names.buffers
  environments : fewer.environments ⊆ names.environments
  contexts : fewer.contexts ⊆ names.contexts

namespace Host

-- ---------------------------------------------------------------------------
-- Who holds whom
-- ---------------------------------------------------------------------------

/-- Whoever is there holds in `g` what it holds in `h`. -/
structure SameHolding (h g : Host) : Prop where
  contexts_eq : g.contexts = h.contexts
  environments_eq : g.environments = h.environments
  pools_eq : g.arena.pools = h.arena.pools
  buffers_length : g.arena.buffers.length = h.arena.buffers.length
  buffers_eq : ∀ b, (g.arena.buffer? b).map (·.allocator) = (h.arena.buffer? b).map (·.allocator)
  nodes_length : g.forest.nodes.length = h.forest.nodes.length
  path_eq : ∀ i, g.forest.path i = h.forest.path i

variable {h g : Host} {fewer names : Holders}

theorem SameHolding.heldContexts_eq (hsame : h.SameHolding g) (names : Holders) :
    g.heldContexts names = h.heldContexts names := by
  have hcontext : g.context? = h.context? := by
    funext c
    rw [context?, hsame.contexts_eq, context?]
  rw [heldContexts, hcontext, heldContexts]

theorem SameHolding.pool?_eq (hsame : h.SameHolding g) : g.arena.pool? = h.arena.pool? := by
  funext p
  rw [Arena.pool?, hsame.pools_eq, Arena.pool?]

theorem SameHolding.heldBuffers_eq (hsame : h.SameHolding g) (names : Holders) :
    g.heldBuffers names = h.heldBuffers names := by
  rw [heldBuffers, heldPools, hsame.heldContexts_eq, hsame.pool?_eq, heldBuffers, heldPools]

theorem SameHolding.heldAllocators_eq (hsame : h.SameHolding g) (names : Holders) :
    g.heldAllocators names = h.heldAllocators names := by
  have hroot : g.rootOf = h.rootOf := by
    funext e
    rw [rootOf, environment?, hsame.environments_eq, rootOf, environment?]
  have hpath : g.forest.path = h.forest.path := funext hsame.path_eq
  have hdirectly : g.heldDirectly names = h.heldDirectly names := by
    simp only [heldDirectly, heldPools, hsame.heldContexts_eq, hsame.heldBuffers_eq, hsame.pool?_eq,
      hsame.buffers_eq, hroot]
  rw [heldAllocators, hdirectly, hpath, heldAllocators]

theorem SameHolding.unheldBuffers_eq (hsame : h.SameHolding g) (names : Holders) (buffers : List Nat) :
    g.unheldBuffers names buffers = h.unheldBuffers names buffers := by
  rw [unheldBuffers, hsame.heldBuffers_eq, unheldBuffers]

theorem SameHolding.lostBuffers_eq (hsame : h.SameHolding g) (names : Holders) :
    g.lostBuffers names = h.lostBuffers names := by
  rw [lostBuffers, hsame.buffers_length, hsame.unheldBuffers_eq, lostBuffers]

theorem SameHolding.unheldAllocators_eq (hsame : h.SameHolding g)
    (hdropped : g.forest.isDropped = h.forest.isDropped) (names : Holders) (allocators : List Nat) :
    g.unheldAllocators names allocators = h.unheldAllocators names allocators := by
  rw [unheldAllocators, hsame.heldAllocators_eq, hdropped, unheldAllocators]

theorem SameHolding.drawnFrom_eq (hsame : h.SameHolding g) (b : Nat) : g.drawnFrom b = h.drawnFrom b := by
  have hpath : g.forest.path = h.forest.path := funext hsame.path_eq
  have hmap : ∀ k : Host, k.drawnFrom b =
      ((k.arena.buffer? b).map (·.allocator)).elim [] k.forest.path := by
    intro k
    unfold drawnFrom
    cases k.arena.buffer? b <;> rfl
  rw [hmap, hmap, hsame.buffers_eq, hpath]

theorem heldContexts_mono (h : Host) (hw : fewer.Within names) :
    h.heldContexts fewer ⊆ h.heldContexts names :=
  List.filterMap_subset _ hw.contexts

theorem heldPools_mono (h : Host) (hw : fewer.Within names) :
    h.heldPools fewer ⊆ h.heldPools names :=
  List.append_subset.mpr ⟨List.subset_append_of_subset_left _ hw.pools,
    List.subset_append_of_subset_right _ (List.map_subset _ (h.heldContexts_mono hw))⟩

theorem heldBuffers_mono (h : Host) (hw : fewer.Within names) :
    h.heldBuffers fewer ⊆ h.heldBuffers names := by
  refine List.append_subset.mpr ⟨List.subset_append_of_subset_left _ hw.buffers, fun b hb => ?_⟩
  obtain ⟨p, hp, hbp⟩ := List.mem_flatMap.mp hb
  exact List.mem_append_right _ (List.mem_flatMap.mpr ⟨p, h.heldPools_mono hw hp, hbp⟩)

theorem heldAllocators_mono (h : Host) (hw : fewer.Within names) :
    h.heldAllocators fewer ⊆ h.heldAllocators names := by
  have hdirectly : h.heldDirectly fewer ⊆ h.heldDirectly names := by
    intro i hi
    simp only [heldDirectly, List.mem_append] at hi ⊢
    rcases hi with (((hi | hi) | hi) | hi) | hi
    · exact Or.inl (Or.inl (Or.inl (Or.inl (hw.allocators hi))))
    · exact Or.inl (Or.inl (Or.inl (Or.inr (List.filterMap_subset _ (h.heldPools_mono hw) hi))))
    · exact Or.inl (Or.inl (Or.inr (List.filterMap_subset _ (h.heldBuffers_mono hw) hi)))
    · exact Or.inl (Or.inr (List.filterMap_subset _ hw.environments hi))
    · obtain ⟨c, hc, hic⟩ := List.mem_flatMap.mp hi
      exact Or.inr (List.mem_flatMap.mpr ⟨c, h.heldContexts_mono hw hc, hic⟩)
  intro i hi
  obtain ⟨k, hk, hik⟩ := List.mem_flatMap.mp hi
  exact List.mem_flatMap.mpr ⟨k, hdirectly hk, hik⟩

theorem mem_unheldBuffers {buffers : List Nat} {b : Nat} :
    b ∈ h.unheldBuffers names buffers ↔ b ∈ buffers ∧ b ∉ h.heldBuffers names := by
  simp [unheldBuffers]

theorem mem_unheldAllocators {allocators : List Nat} {i : Nat} :
    i ∈ h.unheldAllocators names allocators ↔
      i ∈ allocators ∧ i ∉ h.heldAllocators names ∧ h.forest.isDropped i = false := by
  simp [unheldAllocators]

theorem mem_lostBuffers {b : Nat} :
    b ∈ h.lostBuffers names ↔ b < h.arena.buffers.length ∧ b ∉ h.heldBuffers names := by
  rw [lostBuffers, mem_unheldBuffers, List.mem_range]

theorem mem_lostAllocators {i : Nat} : i ∈ h.lostAllocators names ↔
    i < h.forest.nodes.length ∧ i ∉ h.heldAllocators names ∧ h.forest.isDropped i = false := by
  rw [lostAllocators, mem_unheldAllocators, List.mem_reverse, List.mem_range]

theorem lostBuffers_mono (h : Host) (hw : fewer.Within names) :
    h.lostBuffers names ⊆ h.lostBuffers fewer := by
  intro b hb
  rw [mem_lostBuffers] at hb ⊢
  exact ⟨hb.1, fun hheld => hb.2 (h.heldBuffers_mono hw hheld)⟩

-- ---------------------------------------------------------------------------
-- Who holds whom after something was given up
-- ---------------------------------------------------------------------------

theorem SameHolding.trans {k : Host} (hhg : h.SameHolding g) (hgk : g.SameHolding k) :
    h.SameHolding k where
  contexts_eq := hgk.contexts_eq.trans hhg.contexts_eq
  environments_eq := hgk.environments_eq.trans hhg.environments_eq
  pools_eq := hgk.pools_eq.trans hhg.pools_eq
  buffers_length := hgk.buffers_length.trans hhg.buffers_length
  buffers_eq b := (hgk.buffers_eq b).trans (hhg.buffers_eq b)
  nodes_length := hgk.nodes_length.trans hhg.nodes_length
  path_eq i := (hgk.path_eq i).trans (hhg.path_eq i)

theorem sameHolding_releaseBuffer (h : Host) (b : Nat) :
    h.SameHolding { h with arena := (h.arena.releaseBuffer b).1 } where
  contexts_eq := rfl
  environments_eq := rfl
  pools_eq := Arena.pools_releaseBuffer h.arena b
  buffers_length := by
    rw [Arena.releaseBuffer_eq]
    exact List.length_modify ..
  buffers_eq c := by
    rw [Arena.buffer?_releaseBuffer]
    split
    · cases h.arena.buffer? c <;> rfl
    · rfl
  nodes_length := by
    rw [forest, Arena.releaseBuffer_eq]
    exact Forest.length_discharge h.arena.forest _ _
  path_eq i := by
    rw [forest, Arena.releaseBuffer_eq]
    exact Forest.path_of_evolves (Forest.evolves_discharge h.arena.forest _ _)
      (Forest.length_discharge h.arena.forest _ _) i

theorem sameHolding_releaseAll (h : Host) (bs : List Nat) :
    h.SameHolding { h with arena := (h.arena.releaseAll bs).1 } := by
  induction bs generalizing h with
  | nil => exact ⟨rfl, rfl, rfl, rfl, fun _ => rfl, rfl, fun _ => rfl⟩
  | cons b rest ih =>
    exact (h.sameHolding_releaseBuffer b).trans (ih { h with arena := (h.arena.releaseBuffer b).1 })

theorem sameHolding_dropAll (h : Host) (numbers : List Nat) :
    h.SameHolding { h with arena := h.arena.dropAll numbers } := by
  obtain ⟨hev, hlen⟩ := Forest.evolves_dropAll h.arena.forest numbers
  exact ⟨rfl, rfl, rfl, rfl, fun _ => rfl, hlen, Forest.path_of_evolves hev hlen⟩

theorem isDropped_releaseAll (a : Arena) (bs : List Nat) (i : Nat) :
    (a.releaseAll bs).1.forest.isDropped i = a.forest.isDropped i := by
  induction bs generalizing a with
  | nil => rfl
  | cons b rest ih =>
    rw [Arena.fst_releaseAll_cons, ih, Arena.releaseBuffer_eq]
    exact isDropped_congr (Forest.map_get?_discharge (fun _ _ => rfl) a.forest _ _ i)

/-- Released buffers hold their allocators as before. -/
theorem unheldAllocators_giveUpBuffers (h : Host) (names : Holders) (buffers allocators : List Nat) :
    (h.giveUpBuffers names buffers).unheldAllocators names allocators =
      h.unheldAllocators names allocators := by
  have hsame : h.SameHolding (h.giveUpBuffers names buffers) := h.sameHolding_releaseAll _
  exact hsame.unheldAllocators_eq (funext (isDropped_releaseAll h.arena _)) names allocators

/-- The buffers that nobody holds are released and the allocators that nobody holds are dropped. -/
theorem arena_collect (h : Host) (names : Holders) : (h.collect names).arena =
    (h.arena.releaseAll (h.lostBuffers names)).1.dropAll (h.lostAllocators names) := by
  have hn : (List.range h.forest.nodes.length).reverse.Nodup :=
    List.nodup_reverse.mpr List.nodup_range
  rw [collect, arena_giveUpAllocators _ names hn, unheldAllocators_giveUpBuffers]
  rfl

/-- A dropped handle releases its buffer and drops what the buffer draws from, unless somebody holds them. -/
theorem arena_dropBuffer (hl : h.forest.Linked) (names : Holders) (b : Nat) :
    (h.dropBuffer names b).arena = (h.arena.releaseAll (h.unheldBuffers names [b])).1.dropAll
      (h.unheldAllocators names (h.drawnFrom b)) := by
  show ((h.giveUpBuffers names [b]).giveUpAllocators names (h.drawnFrom b)).arena = _
  rw [arena_giveUpAllocators _ names (nodup_drawnFrom hl b), unheldAllocators_giveUpBuffers]
  rfl

theorem sameHolding_collect (h : Host) (names : Holders) : h.SameHolding (h.collect names) := by
  have hrecords := (writes_collect h names).sameRecords rfl
  have harena := (h.sameHolding_releaseAll (h.lostBuffers names)).trans
    (sameHolding_dropAll { h with arena := (h.arena.releaseAll (h.lostBuffers names)).1 }
      (h.lostAllocators names))
  have hlater : SameHolding { h with
      arena := (h.arena.releaseAll (h.lostBuffers names)).1.dropAll (h.lostAllocators names) }
      (h.collect names) := by
    have hcollect := h.arena_collect names
    refine ⟨hrecords.contexts_eq, hrecords.environments_eq, ?_, ?_, fun _ => ?_, ?_, fun _ => ?_⟩ <;>
      first | rw [hcollect] | rw [forest, hcollect]; rfl
  exact harena.trans hlater

-- ---------------------------------------------------------------------------
-- Giving up in two steps
-- ---------------------------------------------------------------------------

/-- Whatever is above the allocator of a held buffer is held. -/
theorem held_of_mem_path_allocatorOf {b i : Nat} (hlt : b < h.arena.buffers.length)
    (hb : b ∈ h.heldBuffers names) (hi : i ∈ h.forest.path (h.arena.allocatorOf b)) :
    i ∈ h.heldAllocators names := by
  obtain ⟨x, hx⟩ : ∃ x, h.arena.buffer? b = some x := ⟨_, List.getElem?_eq_getElem hlt⟩
  have hallocator : h.arena.allocatorOf b = x.allocator := by
    rw [Arena.allocatorOf, hx]
    rfl
  have hdirectly : x.allocator ∈ h.heldDirectly names := by
    have hdraws : x.allocator ∈
        (h.heldBuffers names).filterMap fun b => (h.arena.buffer? b).map (·.allocator) :=
      List.mem_filterMap.mpr ⟨b, hb, by rw [hx]; rfl⟩
    simp only [heldDirectly, List.mem_append]
    exact Or.inl (Or.inl (Or.inr hdraws))
  rw [hallocator] at hi
  exact List.mem_flatMap.mpr ⟨x.allocator, hdirectly, hi⟩

/-- Whatever is held, nothing that is given up is above it. -/
theorem not_mem_path_of_lost (hl : h.forest.Linked) {i j : Nat} (hi : i ∈ h.lostAllocators names)
    (hj : j ∈ h.heldAllocators names) : i ∉ h.forest.path j := by
  intro hij
  obtain ⟨k, hk, hjk⟩ := List.mem_flatMap.mp hj
  exact (mem_lostAllocators.mp hi).2.1 (List.mem_flatMap.mpr ⟨k, hk, hl.mem_path_trans hij hjk⟩)

theorem bottomUp_lostAllocators (hl : h.forest.Linked) (names : Holders) :
    h.forest.BottomUp (h.lostAllocators names) := by
  have hfalling : (List.range h.forest.nodes.length).reverse.Pairwise (· > ·) :=
    List.pairwise_reverse.mpr List.pairwise_lt_range
  exact (hfalling.filter _).imp fun hij => hl.not_mem_path_of_lt hij

theorem isDropped_collect (h : Host) (names : Holders) (i : Nat) :
    (h.collect names).forest.isDropped i =
      (h.forest.isDropped i || (h.lostAllocators names).contains i) := by
  rw [forest, h.arena_collect names]
  show (Forest.dropAll _ _).isDropped i = _
  rw [Forest.isDropped_dropAll, isDropped_releaseAll]
  rfl

/-- The allocators that go late are those that would go at once but did not go early. -/
theorem mem_lostAllocators_collect {i : Nat} :
    i ∈ (h.collect names).lostAllocators fewer ↔
      i ∈ h.lostAllocators fewer ∧ i ∉ h.lostAllocators names := by
  have hsame := h.sameHolding_collect names
  rw [mem_lostAllocators, hsame.nodes_length, hsame.heldAllocators_eq, isDropped_collect,
    mem_lostAllocators, Bool.or_eq_false_iff, List.contains_eq_mem, decide_eq_false_iff_not]
  tauto

theorem perm_lostAllocators (h : Host) (hw : fewer.Within names) :
    (h.lostAllocators names ++ (h.collect names).lostAllocators fewer).Perm
      (h.lostAllocators fewer) := by
  have hnodup : ∀ (g : Host) (held : Holders), (g.lostAllocators held).Nodup := fun g held =>
    (List.nodup_reverse.mpr List.nodup_range).filter _
  refine (List.perm_ext_iff_of_nodup (List.nodup_append'.mpr ⟨hnodup h names, hnodup _ fewer, ?_⟩)
    (hnodup h fewer)).mpr fun i => ?_
  · exact fun i hi hi' => (mem_lostAllocators_collect.mp hi').2 hi
  · have hmono : i ∈ h.lostAllocators names → i ∈ h.lostAllocators fewer := by
      rw [mem_lostAllocators, mem_lostAllocators]
      exact fun ⟨hlt, hheld, hlive⟩ => ⟨hlt, fun hi => hheld (h.heldAllocators_mono hw hi), hlive⟩
    rw [List.mem_append, mem_lostAllocators_collect]
    tauto

theorem kept_by_collect (hl : h.forest.Linked) (hs : h.forest.Sound) (names : Holders) :
    (h.collect names).forest.Linked ∧ (h.collect names).forest.Sound := by
  obtain ⟨hl', hs', -⟩ := Arena.kept_by_releaseAll hl hs (h.lostBuffers names)
  obtain ⟨hev, hlen⟩ := Forest.evolves_dropAll (h.arena.releaseAll (h.lostBuffers names)).1.forest
    (h.lostAllocators names)
  obtain ⟨hl'', hs'', -⟩ := Forest.kept_of_evolves hl' hs' hev hlen
  rw [forest, arena_collect]
  exact ⟨hl'', hs''⟩

/-- Giving up what some names leave and then what fewer names leave ends where giving up at once does. -/
theorem collect_collect (hl : h.forest.Linked) (hs : h.forest.Sound) (hw : fewer.Within names) :
    ((h.collect names).collect fewer).arena = (h.collect fewer).arena := by
  obtain ⟨hl₁, hs₁, hpath⟩ := Arena.kept_by_releaseAll hl hs (h.lostBuffers names)
  obtain ⟨hl₂, hs₂, hpath'⟩ := Arena.kept_by_releaseAll hl hs (h.lostBuffers fewer)
  have hsame := h.sameHolding_collect names
  -- a buffer that goes late is held at first, and so is everything that it draws from
  have hlate : ∀ b ∈ h.lostBuffers fewer,
      (h.arena.releaseAll (h.lostBuffers names)).1.Avoids (h.lostAllocators names) b := by
    intro b hb
    by_cases hearly : b ∈ h.lostBuffers names
    · exact Or.inl (by rw [Arena.isReleased_releaseAll, List.contains_iff_mem.mpr hearly, Bool.or_true])
    · refine Or.inr fun i hi hmem => ?_
      rw [mem_lostBuffers] at hb hearly
      have hheld : b ∈ h.heldBuffers names := by
        by_contra hnot
        exact hearly ⟨hb.1, hnot⟩
      rw [hpath, Arena.allocatorOf_releaseAll] at hmem
      exact (mem_lostAllocators.mp hi).2.1 (held_of_mem_path_allocatorOf hb.1 hheld hmem)
  -- and so is an allocator that goes late
  have hrest : ∀ j ∈ (h.collect names).lostAllocators fewer, j ∈ h.heldAllocators names := by
    intro j hj
    obtain ⟨hlost, hnot⟩ := mem_lostAllocators_collect.mp hj
    rw [mem_lostAllocators] at hlost hnot
    by_contra hheld
    exact hnot ⟨hlost.1, hheld, hlost.2.2⟩
  have hsteps : h.forest.BottomUp
      (h.lostAllocators names ++ (h.collect names).lostAllocators fewer) := by
    have hlater := bottomUp_lostAllocators (kept_by_collect hl hs names).1 fewer
    refine List.pairwise_append.mpr ⟨bottomUp_lostAllocators hl names, hlater.imp fun {i j} hij => ?_,
      fun i hi j hj => not_mem_path_of_lost hl hi (hrest j hj)⟩
    rwa [hsame.path_eq] at hij
  have hkept : ∀ {numbers : List Nat}, h.forest.BottomUp numbers →
      (h.arena.releaseAll (h.lostBuffers fewer)).1.forest.BottomUp numbers := by
    intro numbers hup
    refine hup.imp fun {i j} hij => ?_
    rwa [hpath']
  have hdrops := Forest.dropAll_perm (h.perm_lostAllocators hw) hl₂ hs₂ (hkept hsteps)
    (hkept (bottomUp_lostAllocators hl fewer))
  calc ((h.collect names).collect fewer).arena
      = ((h.collect names).arena.releaseAll (h.lostBuffers fewer)).1.dropAll
          ((h.collect names).lostAllocators fewer) := by
        rw [arena_collect, hsame.lostBuffers_eq]
    _ = (((h.arena.releaseAll (h.lostBuffers names)).1.releaseAll (h.lostBuffers fewer)).1.dropAll
          (h.lostAllocators names)).dropAll ((h.collect names).lostAllocators fewer) := by
        rw [h.arena_collect names, Arena.releaseAll_dropAll hl₁ hs₁ hlate]
    _ = (h.arena.releaseAll (h.lostBuffers fewer)).1.dropAll
          (h.lostAllocators names ++ (h.collect names).lostAllocators fewer) := by
        rw [Arena.releaseAll_releaseAll hl hs (h.lostBuffers_mono hw), Arena.dropAll_append]
    _ = (h.arena.releaseAll (h.lostBuffers fewer)).1.dropAll (h.lostAllocators fewer) := by
        rw [Arena.dropAll, hdrops, ← Arena.dropAll]
    _ = (h.collect fewer).arena := (h.arena_collect fewer).symm

end Host

end FragmentHost

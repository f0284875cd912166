import FragmentHost.Proofs.Memory.Ledger

/-!
# The budget of a subtree

An allocator with a ceiling answers for everything below it that can still be used: itself and every
allocator from which one climbs to it through open allocators only (`Forest.openBelow`). Use within a
reservation is not charged upwards, so that no allocator sees the whole of what its subtree uses. What
adds up are the own uses: an allocator holds for each of its live children at least what the child uses,
and the rest is its own (`Balanced.current_eq`). Summed over the subtree, everything but the use of the
allocator at the top cancels out (`sum_held_le`).

The equation is exact only where no addition stopped at the largest word. Below a ceiling this cannot
happen without being refused: an allocator at which it happened would have the largest word in use, its
parent would have to hold as much, and so on up to the ceiling, which is lower (`Capped.post`).
-/

namespace FragmentHost

namespace Forest

-- ---------------------------------------------------------------------------
-- The open part of a subtree
-- ---------------------------------------------------------------------------

/-- Allocator `i` is there and not closed. -/
def isOpen (f : Forest) (i : Nat) : Bool := (f.get? i).any (!·.closed)

/-- Climbing the path one meets open allocators only, until `p` is reached. -/
def opensTo (f : Forest) (p : Nat) : (path : List Nat) → Bool
  | [] => false
  | i :: rest => f.isOpen i && (i == p || f.opensTo p rest)

/-- Allocator `p` and those below it from which one climbs to `p` through open allocators only. -/
def openBelow (f : Forest) (p : Nat) : Finset Nat :=
  (Finset.range f.nodes.length).filter fun i => f.opensTo p (f.path i)

theorem isOpen_of_get? {f : Forest} {i : Nat} {a : Allocator} (ha : f.get? i = some a) :
    f.isOpen i = !a.closed := by
  simp [isOpen, ha]

/-- An allocator is in the open part if it is open and either is `p` or has its parent there. -/
theorem mem_openBelow_iff {f : Forest} (hl : f.Linked) {p d : Nat} :
    d ∈ f.openBelow p ↔ ∃ a, f.get? d = some a ∧ a.closed = false ∧
      (d = p ∨ ∃ m, a.above.head? = some m ∧ m ∈ f.openBelow p) := by
  have hmem : ∀ i, i ∈ f.openBelow p ↔ i < f.nodes.length ∧ f.opensTo p (f.path i) = true := by
    simp [openBelow]
  rw [hmem]
  cases ha : f.get? d with
  | none => simp [path, ha, opensTo]
  | some a =>
    have hlt := lt_length_of_get? ha
    have hclimbs := hl.climbs_above ha
    cases habove : a.above with
    | nil => simp [path_of_get? ha, habove, opensTo, isOpen_of_get? ha, hlt]
    | cons m rest =>
      -- the path goes on like the one of the parent
      rw [habove] at hclimbs
      obtain ⟨⟨b, hb, hrest⟩, -⟩ := hclimbs
      have hm := lt_length_of_get? hb
      simp [path_of_get? ha, habove, opensTo, isOpen_of_get? ha, hlt, hmem, hm, path_of_get? hb,
        hrest]

/-- The parent of an allocator was made before it. -/
theorem Linked.head?_lt {f : Forest} (hl : f.Linked) {d m : Nat} {a : Allocator}
    (ha : f.get? d = some a) (hm : a.above.head? = some m) : m < d :=
  (hl d a ha).2.1 m (List.mem_of_head? hm)

/-- Induction down the open part of a subtree, from `p` to the children. -/
theorem openBelow_induction {f : Forest} (hl : f.Linked) {p : Nat} {motive : Nat → Prop}
    (top : ∀ a, f.get? p = some a → a.closed = false → motive p)
    (child : ∀ d a m, f.get? d = some a → a.closed = false → a.above.head? = some m →
      m ∈ f.openBelow p → motive m → motive d) :
    ∀ d ∈ f.openBelow p, motive d := by
  intro d
  induction d using Nat.strong_induction_on with
  | _ d ih =>
    intro hd
    obtain ⟨a, ha, hopen, hwhere⟩ := (mem_openBelow_iff hl).mp hd
    rcases hwhere with rfl | ⟨m, hm, hmem⟩
    · exact top a ha hopen
    · exact child d a m ha hopen hm hmem (ih m (hl.head?_lt ha hm) hmem)

theorem mem_openBelow_self {f : Forest} (hl : f.Linked) {p : Nat} {a : Allocator}
    (ha : f.get? p = some a) (hopen : a.closed = false) : p ∈ f.openBelow p :=
  (mem_openBelow_iff hl).mpr ⟨a, ha, hopen, Or.inl rfl⟩

/-- Nothing in the open part of a subtree was made before its top. -/
theorem le_of_mem_openBelow {f : Forest} (hl : f.Linked) {p d : Nat} (hd : d ∈ f.openBelow p) :
    p ≤ d := by
  refine openBelow_induction hl (motive := fun d => p ≤ d) (fun _ _ _ => le_rfl) ?_ d hd
  exact fun d a m ha _ hm _ hle => hle.trans (hl.head?_lt ha hm).le

/-- The open part of a subtree can only lose allocators that were there before. -/
theorem mem_openBelow_of_evolves {f g : Forest} (hf : f.Linked) (hg : g.Linked) (hev : f.Evolves g)
    {p d : Nat} (hd : d ∈ g.openBelow p) (hlt : d < f.nodes.length) : d ∈ f.openBelow p := by
  refine openBelow_induction hg (motive := fun d => d < f.nodes.length → d ∈ f.openBelow p) ?_ ?_ d
    hd hlt
  · intro b hb hopen hlt
    obtain ⟨a, ha⟩ := exists_get?_of_lt hlt
    obtain ⟨b', hb', hab⟩ := hev.old p a ha
    rw [hb, Option.some.injEq] at hb'
    subst hb'
    exact mem_openBelow_self hf ha (hab.open_before hopen)
  · intro d b m hb hopen hm _ ih hlt
    obtain ⟨a, ha⟩ := exists_get?_of_lt hlt
    obtain ⟨b', hb', hab⟩ := hev.old d a ha
    rw [hb, Option.some.injEq] at hb'
    subst hb'
    rw [hab.above_eq] at hm
    have hmlt := hf.head?_lt ha hm
    exact (mem_openBelow_iff hf).mpr
      ⟨a, ha, hab.open_before hopen, Or.inr ⟨m, hm, ih (hmlt.trans hlt)⟩⟩

/-- An open allocator is a live child of the one above it. -/
theorem mem_liveChildren {f : Forest} (hs : f.Sound) {d m : Nat} {a : Allocator}
    (ha : f.get? d = some a) (hopen : a.closed = false) (hm : a.above.head? = some m) :
    d ∈ f.liveChildren m := by
  rw [liveChildren, Finset.mem_filter, Finset.mem_range]
  refine ⟨lt_length_of_get? ha, ?_⟩
  simp [ha, hm, Allocator.isLive_of_open (hs d a ha) hopen]

/-- The parent of an allocator; a root is its own. -/
def parent (f : Forest) (i : Nat) : Nat := ((f.get? i).bind (·.above.head?)).getD i

/-- In the open part of a subtree, the uses of all allocators but the top one are held for them
somewhere in it. -/
theorem sum_current_le {f : Forest} (hl : f.Linked) (hs : f.Sound) (p : Nat) :
    ∑ d ∈ (f.openBelow p).erase p, f.current d ≤
      ∑ m ∈ f.openBelow p, ∑ c ∈ f.liveChildren m, f.claim c := by
  -- every allocator but the top one counts among what its parent holds
  have hplace : ∀ d ∈ (f.openBelow p).erase p,
      f.parent d ∈ f.openBelow p ∧ d ∈ f.liveChildren (f.parent d) := by
    intro d hd
    obtain ⟨hne, hmem⟩ := Finset.mem_erase.mp hd
    obtain ⟨a, ha, hopen, hwhere⟩ := (mem_openBelow_iff hl).mp hmem
    obtain ⟨m, hm, hmem⟩ := hwhere.resolve_left hne
    have hparent : f.parent d = m := by simp [parent, ha, hm]
    rw [hparent]
    exact ⟨hmem, mem_liveChildren hs ha hopen hm⟩
  rw [← Finset.sum_fiberwise_of_maps_to fun d hd => (hplace d hd).1]
  refine Finset.sum_le_sum fun m _ => ?_
  calc ∑ d ∈ ((f.openBelow p).erase p).filter (f.parent · = m), f.current d
      ≤ ∑ d ∈ ((f.openBelow p).erase p).filter (f.parent · = m), f.claim d :=
        Finset.sum_le_sum fun d _ => current_le_claim f d
    _ ≤ ∑ c ∈ f.liveChildren m, f.claim c := by
        refine Finset.sum_le_sum_of_subset_of_nonneg (fun d hd => ?_) fun d _ _ => claim_nonneg hs d
        obtain ⟨hd, hm⟩ := Finset.mem_filter.mp hd
        exact hm ▸ (hplace d hd).2

end Forest

namespace Ledger

-- ---------------------------------------------------------------------------
-- Disciplined runs
-- ---------------------------------------------------------------------------

/-- A call returns to an allocator no more than the allocator holds. -/
def Covers (l : Ledger) : AllocatorCall → Prop
  | .release i bytes => bytes ≤ l.held i
  | .root _ _ | .child _ _ _ _ _ | .consume _ _ | .limit _ _ | .close _ | .drop _ => True

instance (l : Ledger) : (c : AllocatorCall) → Decidable (l.Covers c)
  | .release i bytes => Int.decLe bytes (l.held i)
  | .root _ _ | .child _ _ _ _ _ | .consume _ _ | .limit _ _ | .close _ | .drop _ => isTrue trivial

/-- No call of a run returns more to an allocator than the allocator holds at that time. -/
def Disciplined (l : Ledger) : List AllocatorCall → Prop
  | [] => True
  | c :: calls => l.Covers c ∧ (l.post c).Disciplined calls

instance decidableDisciplined :
    (l : Ledger) → (calls : List AllocatorCall) → Decidable (l.Disciplined calls)
  | _, [] => isTrue trivial
  | l, c :: calls =>
    @instDecidableAnd _ _ (inferInstanceAs (Decidable (l.Covers c)))
      (decidableDisciplined (l.post c) calls)

theorem Covers.allows {l : Ledger} {c : AllocatorCall} (h : l.Covers c) (p : Nat) :
    l.Allows p c := by
  cases c with
  | release i bytes =>
    rintro rfl
    exact h
  | _ => trivial

theorem Disciplined.respects {l : Ledger} {calls : List AllocatorCall} (h : l.Disciplined calls)
    (p : Nat) : l.Respects p calls := by
  induction calls generalizing l with
  | nil => trivial
  | cons c calls ih => exact ⟨h.1.allows p, ih h.2⟩

-- ---------------------------------------------------------------------------
-- No addition stops below a ceiling
-- ---------------------------------------------------------------------------

/-- An addition that stopped left the largest word in use. -/
theorem current_of_mem_stopping {f : Forest} (hl : f.Linked) (hs : f.Sound) {c : AllocatorCall}
    {q : Nat} (hq : q ∈ stopping f c) : (f.perform c).current q = Word.largest := by
  cases c with
  | consume i bytes =>
    rw [stopping] at hq
    rw [Forest.perform]
    cases hg : f.consume i bytes with
    | error refusal => simp [hg] at hq
    | ok g =>
      rw [hg] at hq
      exact Forest.current_of_mem_saturating hs (hl.climbs_path i) hg hq
  | child parent label initial max obeysLimits =>
    rw [stopping] at hq
    rw [Forest.perform]
    cases hg : f.newChild parent label initial max obeysLimits with
    | error refusal => simp [hg] at hq
    | ok made =>
      obtain ⟨g, child⟩ := made
      rw [hg] at hq
      obtain ⟨-, -, f', hf', rfl, rfl⟩ := Forest.newChild_ok hg
      have hcurrent := Forest.current_of_mem_saturating hs (hl.climbs_path parent) hf' hq
      have hlt : q < f'.nodes.length := by
        rw [Forest.length_charge (hl.climbs_path parent) hf']
        exact (hl.climbs_path parent).lt_length (Forest.mem_path_of_mem_saturating hq)
      -- neither the new allocator nor the record of it changes what is in use at the old ones
      rw [← hcurrent]
      simp only [Forest.current, Forest.enter, Forest.get?_modify, Forest.get?_add,
        if_neg (Nat.ne_of_lt hlt)]
      split <;> cases f'.get? q <;> rfl
  | _ => simp [stopping] at hq

/-- Below an allocator with a ceiling no addition has stopped. -/
def Capped (l : Ledger) : Prop :=
  ∀ p a, l.forest.get? p = some a → 0 ≤ a.max → a.max < Word.largest →
    ∀ d ∈ l.forest.openBelow p, d ∉ l.saturated

/-- What was not saturated below a ceiling is not saturated after a call either if its use is within
the ceiling: a saturated allocator has the largest word in use. -/
theorem Capped.not_mem_saturated_post {l : Ledger} (hl : l.forest.Linked) (hs : l.forest.Sound)
    (hu : l.Unbounded) (h : l.Capped) {c : AllocatorCall} {p : Nat} {a : Allocator}
    (ha : (l.post c).forest.get? p = some a) (hmax : 0 ≤ a.max) (hlt : a.max < Word.largest) {d : Nat}
    (hd : d ∈ (l.post c).forest.openBelow p) (hfits : (l.post c).forest.current d ≤ a.max) :
    d ∉ (l.post c).saturated := by
  obtain ⟨hev, hl'⟩ := Forest.evolves_perform hl c
  rw [forest_post] at ha hd hfits
  intro hsat
  rcases List.mem_append.mp hsat with hsat | hsat
  · -- saturated before, so below the same ceiling before
    obtain ⟨b, hb, -⟩ := hu d hsat
    have hdlt := Forest.lt_length_of_get? hb
    have hplt : p < l.forest.nodes.length := (Forest.le_of_mem_openBelow hl' hd).trans_lt hdlt
    obtain ⟨a₀, ha₀⟩ := Forest.exists_get?_of_lt hplt
    obtain ⟨a', ha', hab⟩ := hev.old p a₀ ha₀
    rw [ha, Option.some.injEq] at ha'
    subst ha'
    rw [hab.fixed.2.2.2.1] at hmax hlt
    exact h p a₀ ha₀ hmax hlt d (Forest.mem_openBelow_of_evolves hl hl' hev hd hdlt) hsat
  · rw [current_of_mem_stopping hl hs hsat] at hfits
    omega

/-- A call lets nothing below a ceiling stop. Downwards from the ceiling, each allocator uses no more
than its parent holds for it. -/
theorem Capped.post {l : Ledger} (hl : l.forest.Linked) (hs : l.forest.Sound) (hu : l.Unbounded)
    (hb : ∀ i, l.Balanced i) (h : l.Capped) {c : AllocatorCall} (hc : l.Covers c) :
    (l.post c).Capped := by
  obtain ⟨hev, hl'⟩ : l.forest.Evolves (l.post c).forest ∧ (l.post c).forest.Linked :=
    Forest.evolves_perform hl c
  have hs' := hs.evolves hev
  intro p a ha hmax hlt
  have hboth : ∀ d ∈ (l.post c).forest.openBelow p,
      d ∉ (l.post c).saturated ∧ (l.post c).forest.current d ≤ a.max := by
    refine Forest.openBelow_induction hl' ?_ ?_
    · -- at the ceiling itself
      intro b hb hopen
      rw [ha, Option.some.injEq] at hb
      subst hb
      have hfits : (l.post c).forest.current p ≤ a.max := by
        rw [Forest.current_of_get? ha]
        exact (hs' p a ha).current_le_max hmax
      have hself := Forest.mem_openBelow_self hl' ha hopen
      exact ⟨h.not_mem_saturated_post hl hs hu ha hmax hlt hself hfits, hfits⟩
    · -- the parent was not saturated, so its ledger is exact and its use bounds that of the child
      intro d b m hb' hopen hm hmem ih
      obtain ⟨e, he, hopene, -⟩ := (Forest.mem_openBelow_iff hl').mp hmem
      have hfits : (l.post c).forest.current d ≤ a.max := by
        have hparent := ((hb m).post hl hs (hc.allows m)).current_le he hopene ih.1 hs'
          (Forest.mem_liveChildren hs' hb' hopen hm)
        exact hparent.trans ((Forest.current_of_get? he).ge.trans ih.2)
      have hbelow := (Forest.mem_openBelow_iff hl').mpr ⟨b, hb', hopen, Or.inr ⟨m, hm, hmem⟩⟩
      exact ⟨h.not_mem_saturated_post hl hs hu ha hmax hlt hbelow hfits, hfits⟩
  exact fun d hd => (hboth d hd).1

/-- A disciplined run lets nothing below a ceiling stop. -/
theorem Capped.postAll {l : Ledger} (hl : l.forest.Linked) (hs : l.forest.Sound) (hu : l.Unbounded)
    (hb : ∀ i, l.Balanced i) (h : l.Capped) {calls : List AllocatorCall}
    (hc : l.Disciplined calls) : (l.postAll calls).Capped := by
  induction calls generalizing l with
  | nil => exact h
  | cons c calls ih =>
    obtain ⟨hev, hl'⟩ := Forest.evolves_perform hl c
    exact ih hl' (hs.evolves hev) (hu.post hl hs c) (fun i => (hb i).post hl hs (hc.1.allows i))
      (h.post hl hs hu hb hc.1) hc.2

theorem capped_ofRun {calls : List AllocatorCall} (h : Disciplined {} calls) :
    (ofRun calls).Capped := by
  refine Capped.postAll Forest.linked_empty Forest.sound_empty (by simp [Unbounded]) balanced_empty
    ?_ h
  intro p a _ _ _ d _
  simp

-- ---------------------------------------------------------------------------
-- The budget
-- ---------------------------------------------------------------------------

/-- What the open part of a subtree holds is in use at the top of it. -/
theorem sum_held_le {l : Ledger} (hl : l.forest.Linked) (hs : l.forest.Sound)
    (hb : ∀ i, l.Balanced i) {p : Nat} {a : Allocator} (ha : l.forest.get? p = some a)
    (hopen : a.closed = false) (hsat : ∀ d ∈ l.forest.openBelow p, d ∉ l.saturated) :
    ∑ d ∈ l.forest.openBelow p, l.held d ≤ a.current := by
  have hheld : ∀ d ∈ l.forest.openBelow p,
      l.held d = l.forest.current d - ∑ c ∈ l.forest.liveChildren d, l.forest.claim c := by
    intro d hd
    obtain ⟨b, hb', hopenb, -⟩ := (Forest.mem_openBelow_iff hl).mp hd
    have heq := (hb d).current_eq hb' hopenb (hsat d hd)
    rw [Forest.current_of_get? hb']
    omega
  -- the sum telescopes: what is held for children is in use at them or above them
  have hbelow := Forest.sum_current_le hl hs p
  have hself := Finset.add_sum_erase _ l.forest.current (Forest.mem_openBelow_self hl ha hopen)
  rw [Finset.sum_congr rfl hheld, Finset.sum_sub_distrib, ← hself, Forest.current_of_get? ha]
  omega

/-- In a disciplined run, an open allocator with a ceiling below the largest word has at least as many
bytes in use as it and the allocators that one can still climb from to it hold together, it has no more
in use than its ceiling, and no request that one of them granted stopped at the largest word. -/
theorem sum_held_le_current (calls : List AllocatorCall) (h : Disciplined {} calls) {p : Nat}
    {a : Allocator} (ha : (ofRun calls).forest.get? p = some a) (hopen : a.closed = false)
    (hmax : 0 ≤ a.max) (hlt : a.max < Word.largest) :
    ∑ d ∈ (ofRun calls).forest.openBelow p, (ofRun calls).held d ≤ a.current ∧ a.current ≤ a.max ∧
      ∀ d ∈ (ofRun calls).forest.openBelow p, d ∉ (ofRun calls).saturated := by
  have hcapped := capped_ofRun h p a ha hmax hlt
  have hs := sound_ofRun calls
  exact ⟨sum_held_le (linked_ofRun calls) hs (fun i => balanced_ofRun (h.respects i)) ha hopen hcapped,
    (hs p a ha).current_le_max hmax, hcapped⟩

/-- A run over a root with a ceiling and two levels below it. Part of what is used below is paid out of
reservations, one request is refused for the ceiling, and an allocator is closed above an open one. -/
def threeLevels : List AllocatorCall :=
  [.root "query" 500, .child 0 "fragment" 200 (-1) true, .child 1 "scan" 50 (-1) true,
    .child 1 "join" 0 (-1) true, .child 3 "build" 0 (-1) true, .consume 2 120, .consume 0 90,
    .consume 4 60, .consume 2 400, .release 2 30, .close 3]

/-- The fragment and its scan hold ninety bytes of the reservation of two hundred. -/
theorem sum_held_le_current_threeLevels :
    Disciplined {} threeLevels ∧ (ofRun threeLevels).forest.openBelow 0 = {0, 1, 2} ∧
      ∃ a, (ofRun threeLevels).forest.get? 0 = some a ∧ a.closed = false ∧ 0 ≤ a.max ∧
        a.max < Word.largest ∧
        ∑ d ∈ (ofRun threeLevels).forest.openBelow 0, (ofRun threeLevels).held d ≤ a.current ∧
        a.current ≤ a.max ∧
        ∀ d ∈ (ofRun threeLevels).forest.openBelow 0, d ∉ (ofRun threeLevels).saturated :=
  ⟨by decide, by decide, _, rfl, by decide, by decide, by decide,
    sum_held_le_current threeLevels (by decide) rfl (by decide) (by decide) (by decide)⟩

end Ledger

end FragmentHost

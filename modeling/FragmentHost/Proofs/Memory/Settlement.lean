import FragmentHost.Proofs.Memory.Ledger

/-!
# Settling a child with its parent

What a parent gets back for a child comes in two parts: returns to the child pass on what exceeds its
reservation, and closing the child gives the rest back together with the reservation. The parts add up
to what the parent held for the child at the start (`settle`), however the returns are cut.
-/

namespace FragmentHost

namespace Forest

/-- Allocator `i` is an open child of the open allocator `m`. -/
structure Rests (f : Forest) (i m : Nat) (a b : Allocator) : Prop where
  child : f.get? i = some a
  parent : f.get? m = some b
  child_open : a.closed = false
  parent_open : b.closed = false
  above : a.above.head? = some m

/-- Nothing is met twice on the way up from a child. -/
theorem Rests.above_eq {f : Forest} (hl : f.Linked) {i m : Nat} {a b : Allocator}
    (h : f.Rests i m a b) : ∃ rest, a.above = m :: rest ∧ i ∉ m :: rest ∧ m ∉ rest := by
  have hclimbs := hl i a h.child
  obtain ⟨rest, hrest⟩ := List.head?_eq_some_iff.mp h.above
  rw [hrest] at hclimbs
  exact ⟨rest, hrest, hclimbs.not_mem, hclimbs.2.2.not_mem⟩

theorem get?_discharge_of_not_mem {i : Nat} : ∀ {path : List Nat} (f : Forest) (bytes : Int),
    i ∉ path → (f.discharge path bytes).get? i = f.get? i := by
  intro path
  induction path with
  | nil => exact fun _ _ _ => rfl
  | cons j rest ih =>
    intro f bytes hi
    rw [List.mem_cons, not_or] at hi
    rw [discharge]
    split
    · rfl
    · split
      · rfl
      · split
        · rfl
        · rw [ih _ _ hi.2, get?_modify_of_ne f (Ne.symm hi.1)]

/-- Closing changes the allocators from which it climbs to the root, and no others. -/
theorem get?_shut_of_not_mem (f : Forest) {i j : Nat} (hj : j ∉ f.path i) :
    (f.shut i).1.get? j = f.get? j := by
  cases ha : f.get? i with
  | none => rw [shut_of_none ha]
  | some a =>
    rw [path_of_get? ha, List.mem_cons, not_or] at hj
    by_cases hclosed : a.closed = true
    · rw [shut_of_closed ha hclosed]
    · rw [shut_of_open ha (by simpa using hclosed)]
      dsimp only
      rw [get?_discharge_of_not_mem _ _ hj.2, get?_modify_of_ne f (Ne.symm hj.1)]

theorem drop_of_none {f : Forest} {i : Nat} (ha : f.get? i = none) : (f.drop i).1 = f := by
  rw [fst_drop, shut_of_none ha, modify_of_none ha]

theorem get?_drop_of_not_mem (f : Forest) {i j : Nat} (hj : j ∉ f.path i) :
    (f.drop i).1.get? j = f.get? j := by
  cases ha : f.get? i with
  | none => rw [drop_of_none ha]
  | some a =>
    have hne : i ≠ j := by
      rintro rfl
      exact hj (path_of_get? ha ▸ List.mem_cons_self ..)
    rw [fst_drop, get?_modify_of_ne _ hne, get?_shut_of_not_mem f hj]

theorem discharge_cons_of_open {f : Forest} {i : Nat} {a : Allocator} (ha : f.get? i = some a)
    (hopen : a.closed = false) (rest : List Nat) {bytes : Int} (hpos : 0 < bytes) :
    f.discharge (i :: rest) bytes =
      (f.modify i (·.giveBack bytes)).discharge rest (a.relief bytes) := by
  rw [discharge, if_neg (by omega), ha]
  simp [hopen]

/-- What a return leaves in use where it arrives. -/
theorem discharge_head {f : Forest} {m : Nat} {b : Allocator} (hb : f.get? m = some b)
    (hopen : b.closed = false) (hsound : b.Sound) {rest : List Nat} (hm : m ∉ rest) (bytes : Int) :
    ∃ b', (f.discharge (m :: rest) bytes).get? m = some b' ∧ b'.closed = false ∧
      b'.current = max (b.current - max bytes 0) 0 := by
  have hnonneg := hsound.current_nonneg
  by_cases hpos : 0 < bytes
  · rw [discharge_cons_of_open hb hopen rest hpos]
    refine ⟨b.giveBack bytes, ?_, hopen, ?_⟩
    · rw [get?_discharge_of_not_mem _ _ hm, get?_modify_self, hb]
      rfl
    · show b.usageWithout bytes = _
      unfold Allocator.usageWithout
      omega
  · refine ⟨b, ?_, hopen, by omega⟩
    rw [discharge, if_pos (by omega), hb]

/-- A return to a child: the parent gets back what the excess of the child went down by. -/
theorem Rests.release {f : Forest} (hl : f.Linked) (hs : f.Sound) {i m : Nat} {a b : Allocator}
    (h : f.Rests i m a b) (bytes : Int) :
    ∃ a' b', (f.release i bytes).Rests i m a' b' ∧ a.Evolves a' ∧
      a'.current = max (a.current - max bytes 0) 0 ∧
      b'.current = max (b.current - (a.excess a.current - a.excess a'.current)) 0 := by
  obtain ⟨rest, habove, hi, hm⟩ := h.above_eq hl
  have hpath : f.path i = i :: m :: rest := by rw [path_of_get? h.child, habove]
  have hev : f.Evolves (f.release i bytes) := evolves_discharge f (f.path i) bytes
  obtain ⟨a', ha', hopen', hcurrent⟩ := discharge_head h.child h.child_open (hs i a h.child) hi bytes
  rw [← hpath] at ha'
  obtain ⟨a'', ha'', haa'⟩ := hev.old i a h.child
  obtain rfl : a' = a'' := Option.some.inj (ha'.symm.trans ha'')
  -- the return goes on to the parent with the relief of the child
  have hparent : ∃ b', (f.release i bytes).get? m = some b' ∧ b'.closed = false ∧
      b'.current = max (b.current - (a.excess a.current - a.excess a'.current)) 0 := by
    by_cases hpos : 0 < bytes
    · have hne : i ≠ m := fun him => hi (him ▸ List.mem_cons_self ..)
      have hb : (f.modify i (·.giveBack bytes)).get? m = some b := by
        rw [get?_modify_of_ne f hne, h.parent]
      have hrelief := a.relief_nonneg (hs i a h.child).current_nonneg (Int.le_of_lt hpos)
      obtain ⟨b', hb', hopenb', hcurrentb'⟩ :=
        discharge_head hb h.parent_open (hs m b h.parent) hm (a.relief bytes)
      refine ⟨b', ?_, hopenb', ?_⟩
      · rw [Forest.release, hpath, discharge_cons_of_open h.child h.child_open _ hpos, hb']
      · have hwithout : a'.current = a.usageWithout bytes := by
          rw [hcurrent]
          unfold Allocator.usageWithout
          omega
        rw [hcurrentb', hwithout]
        unfold Allocator.relief at hrelief ⊢
        omega
    · have hsame : f.release i bytes = f := by
        rw [Forest.release, hpath, discharge, if_pos (by omega)]
      have hnonneg := (hs i a h.child).current_nonneg
      have hnonneg' := (hs m b h.parent).current_nonneg
      have hcurrent' : a'.current = a.current := by omega
      refine ⟨b, by rw [hsame, h.parent], h.parent_open, ?_⟩
      rw [hcurrent']
      omega
  obtain ⟨b', hb', hopenb', hcurrentb'⟩ := hparent
  exact ⟨a', b', ⟨ha', hb', hopen', hopenb', haa'.above_eq ▸ h.above⟩, haa', hcurrent, hcurrentb'⟩

/-- Returns to a child, one after the other. The parent has at least the excess of the child in use, so
that no return finds less than it gives back. -/
theorem Rests.releases {f : Forest} (hl : f.Linked) (hs : f.Sound) {i m : Nat} {a b : Allocator}
    (h : f.Rests i m a b) (hcover : a.excess a.current ≤ b.current) (sizes : List Nat) :
    ∃ a' b', (f.performAll (sizes.map fun (n : Nat) => .release i n)).Rests i m a' b' ∧
      a.Evolves a' ∧
      a'.current = max (a.current - sizes.sum) 0 ∧
      b'.current = b.current - (a.excess a.current - a.excess a'.current) := by
  induction sizes generalizing f a b with
  | nil =>
    have hnonneg := (hs i a h.child).current_nonneg
    refine ⟨a, b, h, .refl, ?_, by omega⟩
    simp only [List.sum_nil]
    omega
  | cons n sizes ih =>
    obtain ⟨a₁, b₁, h₁, ha₁, hcurrent₁, hparent₁⟩ := h.release hl hs n
    obtain ⟨hev, hl₁⟩ := evolves_perform hl (.release i n)
    have hexcess : ∀ u, a₁.excess u = a.excess u := by
      intro u
      rw [Allocator.excess, ha₁.fixed.2.2.1, Allocator.excess]
    have hnonneg := a.excess_nonneg a₁.current
    -- the parent still covers the excess: both went down by the same amount
    have hcover₁ : a₁.excess a₁.current ≤ b₁.current := by
      rw [hexcess]
      omega
    obtain ⟨a', b', h', ha', hcurrent', hparent'⟩ := ih hl₁ (hs.evolves hev) h₁ hcover₁
    refine ⟨a', b', h', ha₁.trans ha', ?_, ?_⟩
    · rw [List.sum_cons, Nat.cast_add]
      omega
    · rw [hexcess, hexcess] at hparent'
      omega

/-- Closing a child gives back what the parent held for it. -/
theorem Rests.shut {f : Forest} (hl : f.Linked) (hs : f.Sound) {i m : Nat} {a b : Allocator}
    (h : f.Rests i m a b) :
    f.close i = ((f.shut i).1, if 0 < a.current then some (.memoryLeak a.label a.current) else none) ∧
      (∃ a', (f.shut i).1.get? i = some a' ∧ a'.closed = true) ∧
      (f.shut i).1.current m = max (b.current - a.covered a.current) 0 := by
  obtain ⟨rest, habove, hi, hm⟩ := h.above_eq hl
  have hshut := shut_of_open h.child h.child_open
  refine ⟨?_, ?_, ?_⟩
  · rw [close, hshut]
    dsimp only
    split
    · rw [h.child]
      rfl
    · rfl
  · obtain ⟨a', ha', -⟩ := (evolves_shut f i).old i a h.child
    exact ⟨a', ha', closed_shut ha'⟩
  · have hne : i ≠ m := fun him => hi (him ▸ List.mem_cons_self ..)
    have hb : (f.modify i (·.shut)).get? m = some b := by
      rw [get?_modify_of_ne f hne, h.parent]
    have hcovered : 0 ≤ a.covered a.current := by
      have := (hs i a h.child).initial_nonneg
      rw [Allocator.covered_eq_max]
      omega
    obtain ⟨b', hb', -, hcurrent⟩ :=
      discharge_head hb h.parent_open (hs m b h.parent) hm (a.covered a.current)
    rw [hshut, habove, current_of_get? hb', hcurrent]
    omega

/-- Returns to a child and its closing together give back what the parent held for the child before. The
leak is what was in use and not returned. -/
theorem Rests.settle {f : Forest} (hl : f.Linked) (hs : f.Sound) {i m : Nat} {a b : Allocator}
    (h : f.Rests i m a b) (hcover : max a.initial a.current ≤ b.current) (sizes : List Nat) {g : Forest}
    (hg : g = f.performAll (sizes.map fun (n : Nat) => .release i n)) :
    g.current i = max (a.current - sizes.sum) 0 ∧
      g.close i = ((g.shut i).1, if 0 < a.current - sizes.sum
        then some (.memoryLeak a.label (a.current - sizes.sum)) else none) ∧
      (∃ a', (g.shut i).1.get? i = some a' ∧ a'.closed = true) ∧
      (g.shut i).1.current m = b.current - max a.initial a.current := by
  have hinitial := (hs i a h.child).initial_nonneg
  have hcovered := a.covered_eq_max a.current
  have hexcess : a.excess a.current ≤ b.current := by
    unfold Allocator.covered at hcovered
    omega
  obtain ⟨a', b', h', ha', hcurrent', hparent'⟩ := h.releases hl hs hexcess sizes
  obtain ⟨hev, hl'⟩ := evolves_performAll hl (sizes.map fun (n : Nat) => .release i n)
  rw [← hg] at h' hev hl'
  obtain ⟨hclose, hclosed, hroot⟩ := h'.shut hl' (hs.evolves hev)
  obtain ⟨hlabel, -, hinitial', -⟩ := ha'.fixed
  refine ⟨(current_of_get? h'.child).trans hcurrent', ?_, hclosed, ?_⟩
  · rw [hclose, hlabel]
    by_cases hleak : 0 < a.current - sizes.sum
    · have hleft : a'.current = a.current - sizes.sum := by omega
      rw [hleft]
    · rw [if_neg hleak, if_neg (by omega)]
  · -- the reservation comes back with what is left of the excess
    have hcovered' : a'.covered a'.current = a.excess a'.current + a.initial := by
      rw [Allocator.covered, Allocator.excess, hinitial', Allocator.excess]
    unfold Allocator.covered at hcovered
    rw [hroot, hcovered', hparent']
    omega

end Forest

end FragmentHost

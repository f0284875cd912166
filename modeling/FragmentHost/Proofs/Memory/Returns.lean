import FragmentHost.Proofs.Memory.Settlement

/-!
# Returns in any order

Bytes that are returned and allocators that are dropped may come in any order, as long as nothing is dropped
before what is below it. Two returns along one path are one return of both, also where they are cut off at
zero (`discharge_add`), and returns along different paths can be exchanged (`discharge_swap`). A drop is
the return of what the parent holds (`drop_eq`), so that it can be exchanged with a return and with another
drop, unless one happens at or below the other (`release_drop`, `drop_drop`). Two orders in which
allocators go before those above them therefore end in the same forest (`dropAll_perm`).
-/

namespace FragmentHost

namespace Allocator

-- ---------------------------------------------------------------------------
-- Two returns to one allocator
-- ---------------------------------------------------------------------------

variable (a : Allocator) (x : Int) {y : Int}

/-- Also where the first return is cut off at zero. -/
theorem usageWithout_giveBack (hy : 0 ≤ y) : (a.giveBack x).usageWithout y = a.usageWithout (x + y) := by
  show Max.max (Max.max (a.current - x) 0 - y) 0 = Max.max (a.current - (x + y)) 0
  omega

/-- What the parent gets back for both is what it gets back for one and then for the other. -/
theorem relief_add (hy : 0 ≤ y) : a.relief (x + y) = a.relief x + (a.giveBack x).relief y := by
  have hboth := a.usageWithout_giveBack x hy
  have hfirst : (a.giveBack x).current = a.usageWithout x := rfl
  have hexcess : ∀ u, (a.giveBack x).excess u = a.excess u := fun _ => rfl
  unfold relief
  rw [hboth, hfirst, hexcess, hexcess]
  omega

theorem giveBack_giveBack (hy : 0 ≤ y) : (a.giveBack x).giveBack y = a.giveBack (x + y) := by
  have hboth := a.usageWithout_giveBack x hy
  have htotal : Word.wrap ((a.giveBack x).deallocated +
      ((a.giveBack x).current - a.usageWithout (x + y))) =
      Word.wrap (a.deallocated + (a.current - a.usageWithout (x + y))) := by
    show Word.wrap (Word.wrap (a.deallocated + (a.current - a.usageWithout x)) +
      (a.usageWithout x - a.usageWithout (x + y))) = _
    rw [Word.wrap_wrap_add]
    congr 1
    omega
  rw [giveBack, hboth, htotal]
  rfl

-- ---------------------------------------------------------------------------
-- Allocators that go
-- ---------------------------------------------------------------------------

/-- The allocator as it is after it was dropped. -/
def gone (a : Allocator) : Allocator := { a with closed := true, current := 0, dropped := true }

/-- What the parent gets back when the allocator is dropped: nothing, if it was closed before. -/
def owed (a : Allocator) : Int := if a.closed then 0 else a.covered a.current

variable {a}

theorem Sound.owed_nonneg (hs : a.Sound) : 0 ≤ a.owed := by
  have hinitial := hs.initial_nonneg
  have hcovered := a.covered_eq_max a.current
  unfold owed
  split <;> omega

theorem Sound.gone (hs : a.Sound) : a.gone.Sound := by
  refine ⟨hs.initial_nonneg, le_rfl, ?_, fun hmax => hmax, fun _ => rfl, fun _ => rfl⟩
  show (0 : Int) ≤ Word.largest
  decide

end Allocator

namespace Forest

variable {f : Forest}

-- ---------------------------------------------------------------------------
-- Two returns
-- ---------------------------------------------------------------------------

theorem discharge_of_nonpos (f : Forest) (path : List Nat) {bytes : Int} (h : bytes ≤ 0) :
    f.discharge path bytes = f := by
  cases path with
  | nil => rfl
  | cons i rest => rw [discharge, if_pos h]

theorem discharge_cons_of_closed {i : Nat} {a : Allocator} (ha : f.get? i = some a)
    (hclosed : a.closed = true) (rest : List Nat) (bytes : Int) :
    f.discharge (i :: rest) bytes = f := by
  rw [discharge, ha]
  simp [hclosed]

theorem sound_modify (hs : f.Sound) (i : Nat) {change : Allocator → Allocator}
    (hchange : ∀ a : Allocator, a.Sound → (change a).Sound) : (f.modify i change).Sound := by
  intro j b hb
  rw [get?_modify] at hb
  split at hb
  · obtain ⟨a, ha, rfl⟩ := Option.map_eq_some_iff.mp hb
    exact hchange a (hs j a ha)
  · exact hs j b hb

/-- A change that leaves everyone's place as it is leaves paths. -/
theorem Climbs.modify (i : Nat) (change : Allocator → Allocator)
    (habove : ∀ a : Allocator, (change a).above = a.above) : ∀ {path : List Nat}, f.Climbs path →
      (f.modify i change).Climbs path := by
  intro path
  induction path with
  | nil => exact fun _ => trivial
  | cons j rest ih =>
    rintro ⟨⟨a, ha, hrest⟩, hlt, hc⟩
    refine ⟨⟨if i = j then change a else a, ?_, ?_⟩, hlt, ih hc⟩
    · rw [get?_modify, ha]
      split <;> rfl
    · split
      · rw [habove, hrest]
      · exact hrest

/-- A return does not notice what becomes of an allocator that is not on its way. -/
theorem discharge_modify {i : Nat} (change : Allocator → Allocator) : ∀ {path : List Nat} (f : Forest)
    (bytes : Int), i ∉ path →
      (f.modify i change).discharge path bytes = (f.discharge path bytes).modify i change := by
  intro path
  induction path with
  | nil => exact fun _ _ _ => rfl
  | cons j rest ih =>
    intro f bytes hi
    rw [List.mem_cons, not_or] at hi
    have hsame := get?_modify_of_ne f hi.1 change
    rw [discharge, discharge, hsame]
    split
    · rfl
    · split
      · rfl
      · split
        · rfl
        · rw [modify_comm f hi.1, ih _ _ hi.2]

/-- Two returns along one path are one return of both together. -/
theorem discharge_add : ∀ {path : List Nat} {f : Forest}, f.Sound → f.Climbs path → ∀ {x y : Int},
    0 ≤ x → 0 ≤ y → (f.discharge path x).discharge path y = f.discharge path (x + y) := by
  intro path
  induction path with
  | nil => exact fun _ _ _ _ _ _ => rfl
  | cons i rest ih =>
    intro f hs hc x y hx hy
    -- a return of nothing adds nothing
    rcases hx.eq_or_lt with rfl | hxpos
    · rw [discharge_of_nonpos f _ le_rfl, Int.zero_add]
    rcases hy.eq_or_lt with rfl | hypos
    · rw [discharge_of_nonpos _ _ le_rfl, Int.add_zero]
    obtain ⟨a, ha, -⟩ := hc.1
    cases hclosed : a.closed with
    | true =>
      rw [discharge_cons_of_closed ha hclosed, discharge_cons_of_closed ha hclosed,
        discharge_cons_of_closed ha hclosed]
    | false =>
      have hsound := hs i a ha
      have hi := hc.not_mem
      have hfirst : ((f.modify i (·.giveBack x)).discharge rest (a.relief x)).get? i =
          some (a.giveBack x) := by
        rw [get?_discharge_of_not_mem _ _ hi, get?_modify_self, ha]
        rfl
      have hev : f.Evolves (f.modify i (·.giveBack (x + y))) :=
        evolves_modify_of_get? ha (.giveBack (by omega) hclosed)
      have hwritten : (f.modify i (·.giveBack x)).modify i (·.giveBack y) =
          f.modify i (·.giveBack (x + y)) :=
        (modify_modify f i _ _).trans (modify_congr ha (a.giveBack_giveBack x hy))
      have hr := a.relief_nonneg hsound.current_nonneg hx
      have hr' : 0 ≤ (a.giveBack x).relief y :=
        (a.giveBack x).relief_nonneg (hsound.becomes (.giveBack hxpos hclosed)).current_nonneg hy
      rw [discharge_cons_of_open ha hclosed rest hxpos, discharge_cons_of_open hfirst hclosed rest hypos,
        discharge_cons_of_open ha hclosed rest (by omega), ← discharge_modify _ _ _ hi, hwritten,
        ih (hs.evolves hev) (Climbs.evolves hev hc.2.2) hr hr', ← a.relief_add x hy]

/-- Returns along two paths can be exchanged if what the first one passes on can. Its head is not on the
other path. -/
theorem discharge_swap_cons {i : Nat} {a : Allocator} (ha : f.get? i = some a) {rest path : List Nat}
    (hpath : i ∉ path) {x y : Int} (hx : 0 < x)
    (hrest : a.closed = false → ((f.modify i (·.giveBack x)).discharge rest (a.relief x)).discharge
      path y = ((f.modify i (·.giveBack x)).discharge path y).discharge rest (a.relief x)) :
    (f.discharge (i :: rest) x).discharge path y =
      (f.discharge path y).discharge (i :: rest) x := by
  have hlater : (f.discharge path y).get? i = some a :=
    (get?_discharge_of_not_mem f y hpath).trans ha
  cases hclosed : a.closed with
  | true => rw [discharge_cons_of_closed ha hclosed, discharge_cons_of_closed hlater hclosed]
  | false =>
    rw [discharge_cons_of_open ha hclosed rest hx, hrest hclosed, discharge_modify _ f y hpath,
      discharge_cons_of_open hlater hclosed rest hx]

/-- Returns can be exchanged. -/
theorem discharge_swap : ∀ {path other : List Nat} {f : Forest}, f.Sound → f.Climbs path →
    f.Climbs other → ∀ {x y : Int}, 0 ≤ x → 0 ≤ y →
      (f.discharge path x).discharge other y = (f.discharge other y).discharge path x := by
  intro path
  induction path with
  | nil => exact fun _ _ _ _ _ _ _ => rfl
  | cons i rest ih =>
    intro other
    induction other with
    | nil => exact fun _ _ _ _ _ _ _ => rfl
    | cons j others ih' =>
      intro f hs hc hc' x y hx hy
      rcases hx.eq_or_lt with rfl | hxpos
      · simp only [discharge_of_nonpos _ (i :: rest) (le_refl (0 : Int))]
      rcases hy.eq_or_lt with rfl | hypos
      · simp only [discharge_of_nonpos _ (j :: others) (le_refl (0 : Int))]
      obtain ⟨a, ha, habove⟩ := hc.1
      obtain ⟨b, hb, habove'⟩ := hc'.1
      -- the later of the two heads is not on the other path
      rcases Nat.lt_trichotomy i j with hij | rfl | hij
      · refine (discharge_swap_cons hb (Climbs.not_mem_of_lt hc hij) hypos fun hopen => ?_).symm
        have hev : f.Evolves (f.modify j (·.giveBack y)) :=
          evolves_modify_of_get? hb (.giveBack hypos hopen)
        exact (ih' (hs.evolves hev) (Climbs.evolves hev hc) (Climbs.evolves hev hc'.2.2) hx
          (b.relief_nonneg (hs j b hb).current_nonneg hy)).symm
      · obtain rfl : a = b := Option.some.inj (ha.symm.trans hb)
        obtain rfl : rest = others := habove.symm.trans habove'
        rw [discharge_add hs hc hx hy, discharge_add hs hc hy hx, Int.add_comm]
      · refine discharge_swap_cons ha (Climbs.not_mem_of_lt hc' hij) hxpos fun hopen => ?_
        have hev : f.Evolves (f.modify i (·.giveBack x)) :=
          evolves_modify_of_get? ha (.giveBack hxpos hopen)
        exact ih (hs.evolves hev) (Climbs.evolves hev hc.2.2) (Climbs.evolves hev hc')
          (a.relief_nonneg (hs i a ha).current_nonneg hx) hy

-- ---------------------------------------------------------------------------
-- Drops
-- ---------------------------------------------------------------------------

/-- Dropping an allocator returns what its parent holds for it. -/
theorem drop_eq (hl : f.Linked) (hs : f.Sound) {i : Nat} {a : Allocator} (ha : f.get? i = some a) :
    (f.drop i).1 = (f.modify i (·.gone)).discharge a.above a.owed := by
  have hi := (hl i a ha).not_mem
  rw [fst_drop, Allocator.owed]
  cases hclosed : a.closed with
  | true =>
    have hunused := (hs i a ha).current_of_closed hclosed
    rw [shut_of_closed ha hclosed, if_pos rfl, discharge_of_nonpos _ _ le_rfl]
    refine modify_congr ha ?_
    rw [Allocator.gone, ← hclosed, ← hunused]
  | false =>
    rw [shut_of_open ha hclosed, if_neg (by simp), ← discharge_modify _ _ _ hi, modify_modify]
    rfl

theorem kept_by_drop (hl : f.Linked) (hs : f.Sound) (i : Nat) :
    (f.drop i).1.Linked ∧ (f.drop i).1.Sound ∧ ∀ j, (f.drop i).1.path j = f.path j := by
  refine kept_of_evolves hl hs (evolves_drop f i) ?_
  rw [fst_drop, length_modify, length_shut]

theorem kept_by_release (hl : f.Linked) (hs : f.Sound) (i : Nat) (bytes : Int) :
    (f.release i bytes).Linked ∧ (f.release i bytes).Sound ∧
      ∀ j, (f.release i bytes).path j = f.path j :=
  kept_of_evolves hl hs (evolves_discharge f _ bytes) (length_discharge f _ bytes)

theorem release_release (hl : f.Linked) (hs : f.Sound) (i j : Nat) {x y : Int} (hx : 0 ≤ x)
    (hy : 0 ≤ y) : (f.release i x).release j y = (f.release j y).release i x := by
  obtain ⟨-, -, hpath⟩ := kept_by_release hl hs i x
  obtain ⟨-, -, hpath'⟩ := kept_by_release hl hs j y
  have hswap := discharge_swap hs (hl.climbs_path i) (hl.climbs_path j) hx hy
  rw [release, hpath, release, hswap, release, hpath', release]

/-- What is dropped is not noticed by returns elsewhere, and they are not noticed by it. -/
theorem release_drop (hl : f.Linked) (hs : f.Sound) {i k : Nat} (hi : i ∉ f.path k) {bytes : Int}
    (hbytes : 0 ≤ bytes) : (f.drop i).1.release k bytes = ((f.release k bytes).drop i).1 := by
  obtain ⟨hl', hs', -⟩ := kept_by_release hl hs k bytes
  have hsame : (f.release k bytes).get? i = f.get? i := get?_discharge_of_not_mem f bytes hi
  cases ha : f.get? i with
  | none => rw [drop_of_none ha, drop_of_none (hsame.trans ha)]
  | some a =>
    have hgone : (f.modify i (·.gone)).Sound := sound_modify hs i fun _ => Allocator.Sound.gone
    have hclimbs : (f.modify i (·.gone)).Climbs (f.path k) :=
      Climbs.modify i (·.gone) (fun _ => rfl) (hl.climbs_path k)
    have hclimbs' : (f.modify i (·.gone)).Climbs a.above :=
      Climbs.modify i (·.gone) (fun _ => rfl) (hl.climbs_above ha)
    rw [release, (kept_by_drop hl hs i).2.2, drop_eq hl hs ha, drop_eq hl' hs' (hsame.trans ha),
      discharge_swap hgone hclimbs' hclimbs (hs i a ha).owed_nonneg hbytes, discharge_modify _ f _ hi]
    rfl

/-- Two allocators of which neither is above the other can be dropped in any order. -/
theorem drop_drop (hl : f.Linked) (hs : f.Sound) {i j : Nat} (hi : i ∉ f.path j) (hj : j ∉ f.path i) :
    ((f.drop i).1.drop j).1 = ((f.drop j).1.drop i).1 := by
  have hsame := get?_drop_of_not_mem f hi
  have hsame' := get?_drop_of_not_mem f hj
  cases ha : f.get? i with
  | none => rw [drop_of_none ha, drop_of_none (hsame.trans ha)]
  | some a =>
    cases hb : f.get? j with
    | none => rw [drop_of_none hb, drop_of_none (hsame'.trans hb)]
    | some b =>
      obtain ⟨hl₁, hs₁, -⟩ := kept_by_drop hl hs i
      obtain ⟨hl₂, hs₂, -⟩ := kept_by_drop hl hs j
      rw [path_of_get? hb, List.mem_cons, not_or] at hi
      rw [path_of_get? ha, List.mem_cons, not_or] at hj
      have hgone : ((f.modify i (·.gone)).modify j (·.gone)).Sound :=
        sound_modify (sound_modify hs i fun _ => Allocator.Sound.gone) j fun _ =>
          Allocator.Sound.gone
      have hclimbs : ∀ {path : List Nat}, f.Climbs path →
          ((f.modify i (·.gone)).modify j (·.gone)).Climbs path := by
        intro path hc
        have hfirst : (f.modify i (·.gone)).Climbs path := Climbs.modify i (·.gone) (fun _ => rfl) hc
        exact Climbs.modify j (·.gone) (fun _ => rfl) hfirst
      rw [drop_eq hl₁ hs₁ (hsame'.trans hb), drop_eq hl hs ha, drop_eq hl₂ hs₂ (hsame.trans ha),
        drop_eq hl hs hb, ← discharge_modify _ _ _ hj.2, ← discharge_modify _ _ _ hi.2,
        modify_comm f (Ne.symm hi.1)]
      exact discharge_swap hgone (hclimbs (hl.climbs_above ha)) (hclimbs (hl.climbs_above hb))
        (hs i a ha).owed_nonneg (hs j b hb).owed_nonneg

-- ---------------------------------------------------------------------------
-- Many drops
-- ---------------------------------------------------------------------------

/-- The forest after allocators were dropped one after the other. -/
def dropAll (f : Forest) (numbers : List Nat) : Forest := f.performAll (numbers.map .drop)

@[simp] theorem dropAll_nil (f : Forest) : f.dropAll [] = f := rfl

@[simp] theorem dropAll_cons (f : Forest) (i : Nat) (numbers : List Nat) :
    f.dropAll (i :: numbers) = (f.drop i).1.dropAll numbers := rfl

theorem dropAll_append (f : Forest) (numbers later : List Nat) :
    f.dropAll (numbers ++ later) = (f.dropAll numbers).dropAll later := by
  rw [dropAll, List.map_append, performAll_append, dropAll, dropAll]

theorem evolves_dropAll (f : Forest) (numbers : List Nat) : f.Evolves (f.dropAll numbers) ∧
    (f.dropAll numbers).nodes.length = f.nodes.length := by
  induction numbers generalizing f with
  | nil => exact ⟨.refl f, rfl⟩
  | cons i numbers ih =>
    obtain ⟨hev, hlen⟩ := ih (f.drop i).1
    refine ⟨(evolves_drop f i).trans hev, hlen.trans ?_⟩
    rw [fst_drop, length_modify, length_shut]

/-- A return goes on as before when none of the allocators on its way is dropped. -/
theorem release_dropAll (hl : f.Linked) (hs : f.Sound) {k : Nat} {numbers : List Nat}
    (hk : ∀ i ∈ numbers, i ∉ f.path k) {bytes : Int} (hbytes : 0 ≤ bytes) :
    (f.dropAll numbers).release k bytes = (f.release k bytes).dropAll numbers := by
  induction numbers generalizing f with
  | nil => rfl
  | cons i numbers ih =>
    obtain ⟨hl', hs', hpath⟩ := kept_by_drop hl hs i
    have hrest : ∀ j ∈ numbers, j ∉ (f.drop i).1.path k := by
      intro j hj
      rw [hpath]
      exact hk j (List.mem_cons_of_mem i hj)
    rw [dropAll_cons, ih hl' hs' hrest, release_drop hl hs (hk i (List.mem_cons_self ..)) hbytes,
      dropAll_cons]

/-- Nobody is dropped before what is below it. -/
def BottomUp (f : Forest) (numbers : List Nat) : Prop := numbers.Pairwise fun i j => i ∉ f.path j

/-- An allocator can be dropped before others of which none is above or below it. -/
theorem dropAll_middle (hl : f.Linked) (hs : f.Sound) {i : Nat} {before : List Nat}
    (hbefore : ∀ j ∈ before, i ∉ f.path j ∧ j ∉ f.path i) (after : List Nat) :
    f.dropAll (before ++ i :: after) = f.dropAll (i :: (before ++ after)) := by
  induction before generalizing f with
  | nil => rfl
  | cons j before ih =>
    obtain ⟨hl', hs', hpath⟩ := kept_by_drop hl hs j
    obtain ⟨hi, hj⟩ := hbefore j (List.mem_cons_self ..)
    have hrest : ∀ k ∈ before, i ∉ (f.drop j).1.path k ∧ k ∉ (f.drop j).1.path i := by
      intro k hk
      rw [hpath, hpath]
      exact hbefore k (List.mem_cons_of_mem j hk)
    calc f.dropAll (j :: before ++ i :: after)
        = (f.drop j).1.dropAll (i :: (before ++ after)) := ih hl' hs' hrest
      _ = ((f.drop j).1.drop i).1.dropAll (before ++ after) := rfl
      _ = ((f.drop i).1.drop j).1.dropAll (before ++ after) := by rw [drop_drop hl hs hi hj]
      _ = f.dropAll (i :: (j :: before ++ after)) := rfl

/-- Allocators can be dropped in any order in which nobody goes before what is below it. -/
theorem dropAll_perm {first second : List Nat} (hperm : first.Perm second) (hl : f.Linked)
    (hs : f.Sound) (hfirst : f.BottomUp first) (hsecond : f.BottomUp second) :
    f.dropAll first = f.dropAll second := by
  induction first generalizing f second with
  | nil => rw [hperm.nil_eq]
  | cons i rest ih =>
    obtain ⟨before, after, rfl⟩ := List.append_of_mem (hperm.mem_iff.mp (List.mem_cons_self ..))
    have hrest : rest.Perm (before ++ after) := (hperm.trans List.perm_middle).cons_inv
    obtain ⟨hi, hrest'⟩ := List.pairwise_cons.mp hfirst
    obtain ⟨-, -, hcross⟩ := List.pairwise_append.mp hsecond
    -- what stands before `i` is neither below it nor above
    have hbefore : ∀ j ∈ before, i ∉ f.path j ∧ j ∉ f.path i := fun j hj =>
      ⟨hi j (hrest.mem_iff.mpr (List.mem_append_left after hj)),
        hcross j hj i (List.mem_cons_self ..)⟩
    obtain ⟨hl', hs', hpath⟩ := kept_by_drop hl hs i
    have hkept : ∀ {numbers : List Nat}, f.BottomUp numbers → (f.drop i).1.BottomUp numbers := by
      intro numbers h
      refine h.imp fun {j k} hjk => ?_
      rwa [hpath]
    have hothers : f.BottomUp (before ++ after) :=
      hsecond.sublist (List.Sublist.append_left (List.sublist_cons_self i after) before)
    rw [dropAll_middle hl hs hbefore, dropAll_cons, dropAll_cons,
      ih hrest hl' hs' (hkept hrest') (hkept hothers)]

end Forest

end FragmentHost

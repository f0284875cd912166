import FragmentHost.Proofs.Memory.Budget

/-!
# How far up a request looks

A request goes on to the parent with what the reservation of an allocator does not cover, and ends where
nothing is left of it. Every allocator that it comes to is open. Those further up are not asked, and one of
them may have been closed: closing gives what the parent held for the subtree back, while the allocators
below stay open and go on granting out of their reservations. In the run of `not_open_above_grant` a root
with a ceiling of 100 bytes ends with 200 in use below it.

What holds of every run is that above the last allocator that was asked nothing changed, nor what is held
there for that allocator (`open_or_absorbed`). If no allocator is closed before its children, those above an
open allocator are open (`OpenAbove`), and a grant is then paid for by open allocators up to the root.
-/

namespace FragmentHost

namespace Forest

-- ---------------------------------------------------------------------------
-- The end of a request
-- ---------------------------------------------------------------------------

/-- Allocator `c` is open and granted what came to it by itself: from `f` to `g`, neither what is held for
it nor anything that was made before it changed. -/
structure Absorbs (f g : Forest) (c : Nat) : Prop where
  open_before : f.isOpen c = true
  claim_eq : g.claim c = f.claim c
  get?_eq : ∀ q < c, g.get? q = f.get? q

theorem claim_of_get? {f : Forest} {i : Nat} {a : Allocator} (ha : f.get? i = some a) :
    f.claim i = Max.max a.initial a.current := by
  simp [claim, ha]

/-- A granted request came to open allocators only. An allocator on the path that it did not come to is
above one that absorbed the request. -/
theorem open_or_absorbed {f g : Forest} (hs : f.Sound) {path : List Nat} {bytes : Int}
    {limited : Bool} (hc : f.Climbs path) (h : f.charge path bytes limited = .ok g) (hpos : 0 < bytes) :
    ∀ p ∈ path, f.isOpen p = true ∨ ∃ c ∈ path, p < c ∧ f.Absorbs g c := by
  refine charge_induction (motive := fun path bytes _ g => 0 < bytes →
    ∀ p ∈ path, f.isOpen p = true ∨ ∃ c ∈ path, p < c ∧ f.Absorbs g c) ?_ ?_ hc h hpos
  · intro path bytes _ hidle hpos p hp
    rcases hidle with hle | rfl
    · omega
    · simp at hp
  · intro i rest bytes limited a g _ hc ha _ hga hr hg ih hpos p hp
    have hopen : f.isOpen i = true := by
      simp [isOpen_of_get? ha, (Allocator.of_refusal?_eq_none hr).1]
    rcases List.mem_cons.mp hp with rfl | hp
    · exact Or.inl hopen
    have hlt : p < i := hc.2.1 p hp
    by_cases hdemand : 0 < a.demand bytes
    · -- the request went on, and what became of it above is not touched by the grant here
      rcases ih hdemand p hp with hopenp | ⟨k, hk, hpk, hopenk, hclaim, hsame⟩
      · exact Or.inl hopenp
      · have hki : k < i := hc.2.1 k hk
        refine Or.inr ⟨k, List.mem_cons_of_mem i hk, hpk, hopenk, ?_, fun q hq => ?_⟩
        · rw [claim, get?_modify_of_ne g (by omega), ← claim, hclaim]
        · rw [get?_modify_of_ne g (by omega), hsame q hq]
    · -- nothing was left for those above
      rw [charge_of_nonpos f rest (by omega), Except.ok.injEq] at hg
      subst hg
      refine Or.inr ⟨i, List.mem_cons_self .., hlt, hopen, ?_, fun q hq => ?_⟩
      · have hheld : a.covered (a.usageAfter bytes) = a.covered a.current := by
          have hnonneg := Allocator.demand_nonneg (hs i a ha) hpos.le
          unfold Allocator.demand at hdemand hnonneg
          unfold Allocator.covered
          omega
        rw [Allocator.covered_eq_max, Allocator.covered_eq_max] at hheld
        have hgrant : (f.modify i (·.grant bytes)).get? i = some (a.grant bytes) := by simp [ha]
        rw [claim_of_get? hgrant, claim_of_get? ha]
        exact hheld
      · rw [get?_modify_of_ne f (by omega)]

-- ---------------------------------------------------------------------------
-- What opens and closes
-- ---------------------------------------------------------------------------

theorem exists_of_isOpen {f : Forest} {i : Nat} (h : f.isOpen i = true) :
    ∃ a, f.get? i = some a ∧ a.closed = false := by
  cases ha : f.get? i with
  | none => simp [isOpen, ha] at h
  | some a => exact ⟨a, rfl, by simpa [isOpen_of_get? ha] using h⟩

theorem isOpen_congr {f g : Forest} {j : Nat}
    (h : (g.get? j).map (·.closed) = (f.get? j).map (·.closed)) : g.isOpen j = f.isOpen j := by
  have hmap : ∀ k : Forest, k.isOpen j = ((k.get? j).map (·.closed)).any (!·) := by
    intro k
    unfold isOpen
    cases k.get? j <;> rfl
  rw [hmap, hmap, h]

theorem isOpen_setLimit (f : Forest) (i : Nat) (limit : Int) (j : Nat) :
    (f.setLimit i limit).isOpen j = f.isOpen j := by
  refine isOpen_congr (map_get?_modify f i ?_ j)
  exact fun _ => rfl

theorem isOpen_enter (f : Forest) (parent child j : Nat) :
    (f.enter parent child).isOpen j = f.isOpen j := by
  refine isOpen_congr (map_get?_modify f parent ?_ j)
  exact fun _ => rfl

theorem isOpen_charge {f g : Forest} {path : List Nat} {bytes : Int} {limited : Bool}
    (hc : f.Climbs path) (h : f.charge path bytes limited = .ok g) (j : Nat) :
    g.isOpen j = f.isOpen j :=
  isOpen_congr (map_get?_charge (fun _ _ => rfl) hc h j)

theorem isOpen_discharge (f : Forest) (path : List Nat) (bytes : Int) (j : Nat) :
    (f.discharge path bytes).isOpen j = f.isOpen j :=
  isOpen_congr (map_get?_discharge (fun _ _ => rfl) f path bytes j)

theorem isOpen_add_of_open {f : Forest} {j : Nat} (h : f.isOpen j = true) (a : Allocator) :
    (f.add a).1.isOpen j = true := by
  obtain ⟨b, hb, -⟩ := exists_of_isOpen h
  have hlt := lt_length_of_get? hb
  rw [isOpen, get?_add, if_neg (by omega), ← isOpen, h]

theorem isOpen_shut_of_ne (f : Forest) {i j : Nat} (h : i ≠ j) :
    (f.shut i).1.isOpen j = f.isOpen j := by
  cases ha : f.get? i with
  | none => rw [shut_of_none ha]
  | some a =>
    by_cases hclosed : a.closed = true
    · rw [shut_of_closed ha hclosed]
    · rw [shut_of_open ha (by simpa using hclosed), isOpen_discharge, isOpen, get?_modify_of_ne f h,
        ← isOpen]

/-- Only closing and dropping close an allocator, and no other one than the one that they are about. -/
theorem isOpen_perform {f : Forest} (hl : f.Linked) {c : AllocatorCall} {j : Nat}
    (h : f.isOpen j = true) : (f.perform c).isOpen j = true ∨ c = .close j ∨ c = .drop j := by
  cases c with
  | root label max => exact Or.inl (isOpen_add_of_open h _)
  | child parent label initial max obeysLimits =>
    refine Or.inl ?_
    rw [perform]
    cases hg : f.newChild parent label initial max obeysLimits with
    | error refusal => exact h
    | ok made =>
      obtain ⟨g, child⟩ := made
      obtain ⟨-, -, f', hf', rfl, rfl⟩ := newChild_ok hg
      have hcharged : f'.isOpen j = true := by rw [isOpen_charge (hl.climbs_path parent) hf', h]
      dsimp only
      rw [isOpen_enter]
      exact isOpen_add_of_open hcharged _
  | consume i bytes =>
    refine Or.inl ?_
    rw [perform]
    cases hg : f.consume i bytes with
    | error refusal => exact h
    | ok g => exact (isOpen_charge (hl.climbs_path i) hg j).trans h
  | release i bytes => exact Or.inl ((isOpen_discharge f (f.path i) bytes j).trans h)
  | limit i limit => exact Or.inl ((isOpen_setLimit f i limit j).trans h)
  | close i =>
    by_cases hij : i = j
    · exact Or.inr (Or.inl (hij ▸ rfl))
    · rw [perform, fst_close, isOpen_shut_of_ne f hij]
      exact Or.inl h
  | drop i =>
    by_cases hij : i = j
    · exact Or.inr (Or.inr (hij ▸ rfl))
    · rw [perform, fst_drop, isOpen, get?_modify_of_ne _ hij, ← isOpen, isOpen_shut_of_ne f hij]
      exact Or.inl h

-- ---------------------------------------------------------------------------
-- Children first
-- ---------------------------------------------------------------------------

/-- A call closes or drops no allocator that has live children. -/
def Orderly (f : Forest) : AllocatorCall → Prop
  | .close i | .drop i => f.liveChildren i = ∅
  | .root _ _ | .child _ _ _ _ _ | .consume _ _ | .release _ _ | .limit _ _ => True

instance (f : Forest) : (c : AllocatorCall) → Decidable (f.Orderly c)
  | .close i | .drop i => decEq (f.liveChildren i) ∅
  | .root _ _ | .child _ _ _ _ _ | .consume _ _ | .release _ _ | .limit _ _ => isTrue trivial

/-- No call of a run closes or drops an allocator that has live children at that time. -/
def RunsOrderly (f : Forest) : List AllocatorCall → Prop
  | [] => True
  | c :: calls => f.Orderly c ∧ (f.perform c).RunsOrderly calls

instance decidableRunsOrderly :
    (f : Forest) → (calls : List AllocatorCall) → Decidable (f.RunsOrderly calls)
  | _, [] => isTrue trivial
  | f, c :: calls =>
    @instDecidableAnd _ _ (inferInstanceAs (Decidable (f.Orderly c)))
      (decidableRunsOrderly (f.perform c) calls)

/-- Everything above an open allocator is open. -/
def OpenAbove (f : Forest) : Prop :=
  ∀ j a, f.get? j = some a → a.closed = false → ∀ p ∈ a.above, f.isOpen p = true

/-- A path that goes through `p` comes to it from a child of `p`. -/
theorem Climbs.exists_child {f : Forest} {p : Nat} : ∀ {rest : List Nat} {j : Nat},
    f.Climbs (j :: rest) → p ∈ rest →
      ∃ k ∈ j :: rest, ∃ a, f.get? k = some a ∧ a.above.head? = some p := by
  intro rest
  induction rest with
  | nil => simp
  | cons m rest ih =>
    intro j hc hp
    by_cases hpm : p = m
    · obtain ⟨a, ha, habove⟩ := hc.1
      exact ⟨j, List.mem_cons_self .., a, ha, by rw [habove, hpm]; rfl⟩
    · have hp' : p ∈ rest := (List.mem_cons.mp hp).resolve_left hpm
      obtain ⟨k, hk, hchild⟩ := ih hc.2.2 hp'
      exact ⟨k, List.mem_cons_of_mem j hk, hchild⟩

/-- While those above an open allocator are open, each of them has a live child. -/
theorem OpenAbove.liveChildren_ne {f : Forest} (hl : f.Linked) (hs : f.Sound) (h : f.OpenAbove)
    {j p : Nat} {a : Allocator} (ha : f.get? j = some a) (hopen : a.closed = false)
    (hp : p ∈ a.above) : f.liveChildren p ≠ ∅ := by
  obtain ⟨k, hk, b, hb, hchild⟩ := (hl j a ha).exists_child hp
  have hopenk : b.closed = false := by
    rcases List.mem_cons.mp hk with rfl | hk
    · rw [ha, Option.some.injEq] at hb
      exact hb ▸ hopen
    · have := h j a ha hopen k hk
      simpa [isOpen_of_get? hb] using this
  exact Finset.ne_empty_of_mem (mem_liveChildren hs hb hopenk hchild)

/-- A new allocator is a root, or a child of an allocator that was open. -/
theorem above_new {f : Forest} (hl : f.Linked) {c : AllocatorCall} {j : Nat} {b : Allocator}
    (hb : (f.perform c).get? j = some b) (hnew : f.get? j = none) :
    b.above = [] ∨ ∃ parent p label initial max obeysLimits,
      c = .child parent label initial max obeysLimits ∧ f.get? parent = some p ∧ p.closed = false ∧
        b.above = parent :: p.above := by
  rcases made_of_perform hl hb hnew with
    ⟨label, max, -, rfl⟩ | ⟨parent, label, initial, max, obeysLimits, g, rfl, hg, rfl⟩
  · exact Or.inl rfl
  · obtain ⟨-, ⟨p, hp, hopen⟩, -⟩ := newChild_ok hg
    exact Or.inr ⟨parent, p, label, initial, max, obeysLimits, rfl, hp, hopen, path_of_get? hp⟩

/-- What is above a new allocator is open. -/
theorem OpenAbove.new {f : Forest} (hl : f.Linked) (h : f.OpenAbove) {c : AllocatorCall} {j : Nat}
    {b : Allocator} (hb : (f.perform c).get? j = some b) (hnew : f.get? j = none) :
    ∀ q ∈ b.above, (f.perform c).isOpen q = true := by
  intro q hq
  rcases above_new hl hb hnew with hroot | ⟨parent, p, label, initial, max, obeys, rfl, hp, hopen, habove⟩
  · simp [hroot] at hq
  · have hbefore : f.isOpen q = true := by
      rw [habove] at hq
      rcases List.mem_cons.mp hq with rfl | hq
      · simp [isOpen_of_get? hp, hopen]
      · exact h parent p hp hopen q hq
    simpa using isOpen_perform hl (c := .child parent label initial max obeys) hbefore

/-- A call that closes nothing before its children keeps open what is above open allocators. -/
theorem OpenAbove.perform {f : Forest} (hl : f.Linked) (hs : f.Sound) (h : f.OpenAbove)
    {c : AllocatorCall} (hc : f.Orderly c) : (f.perform c).OpenAbove := by
  intro j b hb hopen p hp
  cases ha : f.get? j with
  | none => exact h.new hl hb ha p hp
  | some a =>
    obtain ⟨b', hb', hab⟩ := (evolves_perform hl c).1.old j a ha
    rw [hb, Option.some.injEq] at hb'
    subst hb'
    have hopena := hab.open_before hopen
    rw [hab.above_eq] at hp
    -- an allocator above an open one has a live child, so that the call is not about it
    have hchildren := h.liveChildren_ne hl hs ha hopena hp
    rcases isOpen_perform hl (c := c) (h j a ha hopena p hp) with hafter | rfl | rfl
    · exact hafter
    · exact absurd hc hchildren
    · exact absurd hc hchildren

/-- While those above an open allocator are open, a grant comes from an open path. -/
theorem OpenAbove.open_of_granted {f g : Forest} (habove : f.OpenAbove) {path : List Nat} {bytes : Int}
    {limited : Bool} (hc : f.Climbs path) (h : f.charge path bytes limited = .ok g)
    (hpos : 0 < bytes) : ∀ p ∈ path, f.isOpen p = true := by
  cases path with
  | nil => simp
  | cons i rest =>
    obtain ⟨a, ha, hrest⟩ := hc.1
    obtain ⟨hr, -⟩ := charge_cons_ok hpos ha h
    have hopen := (Allocator.of_refusal?_eq_none hr).1
    intro p hp
    rcases List.mem_cons.mp hp with rfl | hp
    · simp [isOpen_of_get? ha, hopen]
    · exact habove i a ha hopen p (hrest ▸ hp)

theorem OpenAbove.performAll {f : Forest} (hl : f.Linked) (hs : f.Sound) (h : f.OpenAbove)
    {calls : List AllocatorCall} (hc : f.RunsOrderly calls) : (f.performAll calls).OpenAbove := by
  induction calls generalizing f with
  | nil => exact h
  | cons c calls ih =>
    obtain ⟨hev, hl'⟩ := evolves_perform hl c
    exact ih hl' (hs.evolves hev) (h.perform hl hs hc.1) hc.2

theorem openAbove_performAll {calls : List AllocatorCall} (h : RunsOrderly {} calls) :
    (performAll {} calls).OpenAbove := by
  refine OpenAbove.performAll linked_empty sound_empty ?_ h
  intro j a ha
  simp [get?] at ha

end Forest

namespace Ledger

-- ---------------------------------------------------------------------------
-- What a grant rests on
-- ---------------------------------------------------------------------------

/-- A run in which an allocator is closed above an open one, and what it held is granted a second time. -/
def closedInBetween : List AllocatorCall :=
  [.root "query" 100, .child 0 "fragment" 100 (-1) true, .child 1 "scan" 100 (-1) true, .close 1,
    .child 0 "join" 100 (-1) true, .consume 3 100]

/-- The scan below the closed fragment is still granted its reservation, which the root has given away. -/
theorem not_open_above_grant :
    ¬ ∀ (calls : List AllocatorCall) (i : Nat) (bytes : Int) (g : Forest), 0 < bytes →
      (ofRun calls).forest.consume i bytes = .ok g →
      ∀ p ∈ (ofRun calls).forest.path i, (ofRun calls).forest.isOpen p = true := by
  intro h
  have hfragment := h closedInBetween 2 100 _ (by decide) rfl 1 (by decide)
  exact absurd hfragment (by decide)

/-- After any run, a grant comes to open allocators only. If one further up is closed, an open allocator
below it granted what came to it out of what is held for it, and nothing above that one changed. In a run
that closes children first everything up to the root is open, and what is held for an allocator on the way
is in use at its parent, if the parent was never given back more than it held and no addition stopped
there. -/
theorem granted_by_open (calls : List AllocatorCall) (i : Nat) {bytes : Int} {g : Forest}
    (hpos : 0 < bytes) (h : (ofRun calls).forest.consume i bytes = .ok g) :
    (∀ p ∈ (ofRun calls).forest.path i, (ofRun calls).forest.isOpen p = true ∨
        ∃ c ∈ (ofRun calls).forest.path i, p < c ∧ (ofRun calls).forest.Absorbs g c) ∧
      (Forest.RunsOrderly {} calls →
        (∀ p ∈ (ofRun calls).forest.path i, (ofRun calls).forest.isOpen p = true) ∧
        ∀ c ∈ (ofRun calls).forest.path i, ∀ a m, g.get? c = some a → a.above.head? = some m →
          Respects {} m calls → m ∉ ((ofRun calls).post (.consume i bytes)).saturated →
          g.claim c ≤ g.current m) := by
  have hl := linked_ofRun calls
  have hs := sound_ofRun calls
  have hclimbs := hl.climbs_path i
  refine ⟨Forest.open_or_absorbed hs hclimbs h hpos, fun horderly => ?_⟩
  have habove : (ofRun calls).forest.OpenAbove := by
    rw [forest_ofRun]
    exact Forest.openAbove_performAll horderly
  have hpath := habove.open_of_granted hclimbs h hpos
  refine ⟨hpath, fun c hc a m ha hm hrespects hsat => ?_⟩
  have hev := Forest.evolves_charge hclimbs h
  have hsame := Forest.isOpen_charge hclimbs h
  -- the parent is open as well, before and after the grant
  obtain ⟨b, hb⟩ := Forest.exists_get?_of_lt (hclimbs.lt_length hc)
  obtain ⟨a', ha', hba⟩ := hev.old c b hb
  rw [ha, Option.some.injEq] at ha'
  subst ha'
  have hopenb : b.closed = false := by simpa [Forest.isOpen_of_get? hb] using hpath c hc
  have hopena : a.closed = false := by
    simpa [Forest.isOpen_of_get? ha] using (hsame c).trans (hpath c hc)
  have hparent : g.isOpen m = true := by
    rw [hsame]
    exact habove c b hb hopenb m (List.mem_of_head? (hba.above_eq ▸ hm))
  obtain ⟨e, he, hopene⟩ := Forest.exists_of_isOpen hparent
  have hforest : ((ofRun calls).post (.consume i bytes)).forest = g := by
    rw [forest_post, Forest.perform, h]
  have hbalanced := (balanced_ofRun hrespects).post hl hs (c := .consume i bytes) trivial
  have hclaim := hbalanced.claim_le (by rw [hforest]; exact he) hopene hsat
    (by rw [hforest]; exact hs.evolves hev) (c := c)
    (by rw [hforest]; exact Forest.mem_liveChildren (hs.evolves hev) ha hopena hm)
  rw [hforest] at hclaim
  rw [Forest.current_of_get? he]
  exact hclaim

/-- A run in which a scan and its fragment have part of their reservations in use, after a child of the
fragment was closed and the fragment then gave bytes back. -/
def childrenFirst : List AllocatorCall :=
  [.root "query" 500, .child 0 "fragment" 200 (-1) true, .child 1 "scan" 50 (-1) true,
    .child 1 "join" 30 (-1) true, .consume 3 40, .close 3, .consume 1 20, .release 1 5, .consume 2 30]

/-- The fragment absorbs what the scan asks for beyond its reservation. -/
theorem granted_by_open_childrenFirst :
    ∃ g, (ofRun childrenFirst).forest.consume 2 60 = .ok g ∧ Forest.RunsOrderly {} childrenFirst ∧
      ((∀ p ∈ (ofRun childrenFirst).forest.path 2, (ofRun childrenFirst).forest.isOpen p = true ∨
          ∃ c ∈ (ofRun childrenFirst).forest.path 2, p < c ∧
            (ofRun childrenFirst).forest.Absorbs g c) ∧
        (Forest.RunsOrderly {} childrenFirst →
          (∀ p ∈ (ofRun childrenFirst).forest.path 2, (ofRun childrenFirst).forest.isOpen p = true) ∧
          ∀ c ∈ (ofRun childrenFirst).forest.path 2, ∀ a m, g.get? c = some a →
            a.above.head? = some m → Respects {} m childrenFirst →
            m ∉ ((ofRun childrenFirst).post (.consume 2 60)).saturated →
            g.claim c ≤ g.current m)) :=
  ⟨_, rfl, by decide, granted_by_open childrenFirst 2 (by decide) rfl⟩

end Ledger

end FragmentHost

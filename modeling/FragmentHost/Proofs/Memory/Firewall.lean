import FragmentHost.Proofs.Memory.Reach

/-!
# What a closed allocator keeps apart

Closing an allocator gives back what its parent held for it, while the allocators below it stay as they are
and go on granting, taking back and closing. Whatever they do, nothing of it may reach the parent a second
time. Everything that climbs stops at a closed allocator: a request is refused there, and a return ends
there (`get?_charge_of_closed`, `get?_discharge_of_closed`). Numbers fall along a path, so that what is met
before a closed allocator `n` has a number above `n`, and everything up to `n` is left alone
(`get?_perform_of_closed`).

A closed allocator itself is final (`Allocator.Evolves.figures_of_closed`), and no allocator is made under
it (`exists_of_head?_above`).
-/

namespace FragmentHost

/-- A closed allocator stays closed, and its figures stay as they are. -/
theorem Allocator.Evolves.figures_of_closed {a b : Allocator} (h : a.Evolves b)
    (ha : a.closed = true) : b.closed = true ∧ b.current = a.current ∧ b.peak = a.peak ∧
      b.allocated = a.allocated ∧ b.deallocated = a.deallocated := by
  refine h.keeps (I := fun b => b.closed = true ∧ b.current = a.current ∧ b.peak = a.peak ∧
    b.allocated = a.allocated ∧ b.deallocated = a.deallocated) ?_ ⟨ha, rfl, rfl, rfl, rfl⟩
  rintro b c hbc ⟨hclosed, hsame⟩
  cases hbc with
  | grant _ hok =>
    have hopen := (of_refusal?_eq_none hok).1
    exact absurd (hopen.symm.trans hclosed) (by simp)
  | giveBack _ hopen => exact absurd (hopen.symm.trans hclosed) (by simp)
  | shut hopen => exact absurd (hopen.symm.trans hclosed) (by simp)
  | drop | limit | record => exact ⟨hclosed, hsame⟩

/-- The allocator that a call is about; a new root is about none. -/
def AllocatorCall.target? : AllocatorCall → Option Nat
  | .root _ _ => none
  | .child parent _ _ _ _ => some parent
  | .consume i _ | .release i _ | .limit i _ | .close i | .drop i => some i

namespace Forest

/-- The allocators above allocator `i`, the nearest first. -/
def above (f : Forest) (i : Nat) : List Nat := (f.get? i).elim [] (·.above)

/-- A call is about nothing but allocators below `n`. -/
def Below (f : Forest) (n : Nat) (c : AllocatorCall) : Prop := ∀ i ∈ c.target?, n ∈ f.above i

variable {f g : Forest} {n : Nat} {a : Allocator}

theorem exists_of_mem_above {i : Nat} (h : n ∈ f.above i) :
    ∃ b, f.get? i = some b ∧ n ∈ b.above := by
  unfold above at h
  cases hb : f.get? i with
  | none => simp [hb] at h
  | some b => exact ⟨b, rfl, by simpa [hb] using h⟩

theorem above_of_get? {i : Nat} {b : Allocator} (hb : f.get? i = some b) : f.above i = b.above := by
  rw [above, hb]
  rfl

theorem Linked.lt_of_mem_above (hl : f.Linked) {i : Nat} (h : n ∈ f.above i) : n < i := by
  obtain ⟨b, hb, hn⟩ := exists_of_mem_above h
  exact (hl i b hb).2.1 n hn

theorem Below.evolves (h : f.Evolves g) {c : AllocatorCall} (hc : f.Below n c) : g.Below n c := by
  intro i hi
  obtain ⟨b, hb, hn⟩ := exists_of_mem_above (hc i hi)
  obtain ⟨b', hb', hbb'⟩ := h.old i b hb
  rw [above_of_get? hb', hbb'.above_eq]
  exact hn

-- ---------------------------------------------------------------------------
-- Climbing up to a closed allocator
-- ---------------------------------------------------------------------------

/-- A return that comes to a closed allocator leaves it alone, and everything that was made before it. -/
theorem get?_discharge_of_closed : ∀ {path : List Nat} {f : Forest}, f.Climbs path → n ∈ path →
    f.get? n = some a → a.closed = true → ∀ (bytes : Int), ∀ q ≤ n,
      (f.discharge path bytes).get? q = f.get? q := by
  intro path
  induction path with
  | nil => simp
  | cons i rest ih =>
    intro f hc hn ha hclosed bytes q hq
    rw [discharge]
    split
    · rfl
    · cases hb : f.get? i with
      | none => rfl
      | some b =>
        dsimp only
        split
        · rfl
        · next hopen =>
          -- an open allocator is not the closed one, which comes further up
          have hne : n ≠ i := by
            rintro rfl
            rw [ha, Option.some.injEq] at hb
            exact hopen (hb ▸ hclosed)
          have hrest : n ∈ rest := (List.mem_cons.mp hn).resolve_left hne
          have hlt : n < i := hc.2.1 n hrest
          by_cases hpos : 0 < bytes
          · have hev : f.Evolves (f.modify i (·.giveBack bytes)) :=
              evolves_modify_of_get? hb (.giveBack hpos (by simpa using hopen))
            have hsame : ∀ r < i, (f.modify i (·.giveBack bytes)).get? r = f.get? r :=
              fun r hr => get?_modify_of_ne f (by omega) _
            rw [ih (Climbs.evolves hev hc.2.2) hrest (by rw [hsame n hlt, ha]) hclosed _ q hq,
              hsame q (by omega)]
          · omega

/-- A granted request that would come to a closed allocator ends before it does. -/
theorem get?_charge_of_closed {path : List Nat} {bytes : Int} {limited : Bool} (hc : f.Climbs path)
    (hn : n ∈ path) (ha : f.get? n = some a) (hclosed : a.closed = true)
    (h : f.charge path bytes limited = .ok g) : ∀ q ≤ n, g.get? q = f.get? q := by
  refine charge_induction (motive := fun path _ _ g => n ∈ path → ∀ q ≤ n, g.get? q = f.get? q)
    ?_ ?_ hc h hn
  · exact fun _ _ _ _ _ _ _ => rfl
  · intro i rest bytes limited b g _ hc hb _ _ hr _ ih hn q hq
    have hne : n ≠ i := by
      rintro rfl
      rw [ha, Option.some.injEq] at hb
      have hopen := (Allocator.of_refusal?_eq_none hr).1
      exact absurd ((hb ▸ hopen).symm.trans hclosed) (by simp)
    have hrest : n ∈ rest := (List.mem_cons.mp hn).resolve_left hne
    have hlt : n < i := hc.2.1 n hrest
    rw [get?_modify_of_ne g (by omega), ih hrest q hq]

theorem get?_shut_of_closed (hl : f.Linked) (ha : f.get? n = some a) (hclosed : a.closed = true)
    {i : Nat} (hi : n ∈ f.above i) : ∀ q ≤ n, (f.shut i).1.get? q = f.get? q := by
  intro q hq
  have hlt := hl.lt_of_mem_above hi
  obtain ⟨b, hb, hn⟩ := exists_of_mem_above hi
  by_cases hshut : b.closed = true
  · rw [shut_of_closed hb hshut]
  · have hopen : b.closed = false := by simpa using hshut
    have hsame : ∀ r < i, (f.modify i (·.shut)).get? r = f.get? r :=
      fun r hr => get?_modify_of_ne f (by omega) _
    have hev : f.Evolves (f.modify i (·.shut)) := evolves_modify_of_get? hb (.shut hopen)
    have hclimbs : (f.modify i (·.shut)).Climbs b.above := Climbs.evolves hev (hl.climbs_above hb)
    rw [shut_of_open hb hopen]
    dsimp only
    rw [get?_discharge_of_closed hclimbs hn (by rw [hsame n hlt, ha]) hclosed _ q hq,
      hsame q (by omega)]

-- ---------------------------------------------------------------------------
-- Calls below a closed allocator
-- ---------------------------------------------------------------------------

/-- A call about allocators below a closed one leaves the closed one alone, and everything that was made
before it. -/
theorem get?_perform_of_closed (hl : f.Linked) (ha : f.get? n = some a) (hclosed : a.closed = true)
    {c : AllocatorCall} (hc : f.Below n c) : ∀ q ≤ n, (f.perform c).get? q = f.get? q := by
  intro q hq
  have hpath : ∀ i, n ∈ f.above i → n ∈ f.path i := by
    intro i hi
    obtain ⟨b, hb, hn⟩ := exists_of_mem_above hi
    rw [path_of_get? hb]
    exact List.mem_cons_of_mem i hn
  have hlength := lt_length_of_get? ha
  cases c with
  | root label max =>
    rw [perform, newRoot, get?_add, if_neg (by omega)]
  | child parent label initial max obeysLimits =>
    have hi := hc parent rfl
    have hlt := hl.lt_of_mem_above hi
    rw [perform]
    cases hg : f.newChild parent label initial max obeysLimits with
    | error refusal => rfl
    | ok made =>
      obtain ⟨g, child⟩ := made
      obtain ⟨-, -, f', hf', rfl, rfl⟩ := newChild_ok hg
      have hlen := length_charge (hl.climbs_path parent) hf'
      dsimp only
      rw [enter, get?_modify_of_ne _ (by omega), get?_add, if_neg (by omega),
        get?_charge_of_closed (hl.climbs_path parent) (hpath parent hi) ha hclosed hf' q hq]
  | consume i bytes =>
    rw [perform]
    cases hg : f.consume i bytes with
    | error refusal => rfl
    | ok g =>
      exact get?_charge_of_closed (hl.climbs_path i) (hpath i (hc i rfl)) ha hclosed hg q hq
  | release i bytes =>
    exact get?_discharge_of_closed (hl.climbs_path i) (hpath i (hc i rfl)) ha hclosed bytes q hq
  | limit i limit =>
    have hlt := hl.lt_of_mem_above (hc i rfl)
    rw [perform, setLimit, get?_modify_of_ne f (by omega)]
  | close i =>
    rw [perform, fst_close, get?_shut_of_closed hl ha hclosed (hc i rfl) q hq]
  | drop i =>
    have hlt := hl.lt_of_mem_above (hc i rfl)
    rw [perform, fst_drop, get?_modify_of_ne _ (by omega),
      get?_shut_of_closed hl ha hclosed (hc i rfl) q hq]

/-- So do any number of such calls, one after the other. -/
theorem get?_performAll_of_closed (hl : f.Linked) (ha : f.get? n = some a) (hclosed : a.closed = true)
    {calls : List AllocatorCall} (hc : ∀ c ∈ calls, f.Below n c) :
    ∀ q ≤ n, (f.performAll calls).get? q = f.get? q := by
  intro q hq
  induction calls generalizing f with
  | nil => rfl
  | cons c calls ih =>
    obtain ⟨hev, hl'⟩ := evolves_perform hl c
    have hfirst := get?_perform_of_closed hl ha hclosed (hc c (List.mem_cons_self ..))
    have hrest : ∀ d ∈ calls, (f.perform c).Below n d :=
      fun d hd => (hc d (List.mem_cons_of_mem c hd)).evolves hev
    rw [performAll_cons, ih hl' (by rw [hfirst n le_rfl, ha]) hrest, hfirst q hq]

-- ---------------------------------------------------------------------------
-- Children of a closed allocator
-- ---------------------------------------------------------------------------

/-- A closed allocator refuses every child. -/
theorem newChild_of_closed (ha : f.get? n = some a) (hclosed : a.closed = true) (label : String)
    (initial max : Int) (obeysLimits : Bool) :
    ∃ refusal, f.newChild n label initial max obeysLimits = .error refusal := by
  cases hg : f.newChild n label initial max obeysLimits with
  | error refusal => exact ⟨refusal, rfl⟩
  | ok made =>
    obtain ⟨-, ⟨p, hp, hopen⟩, -⟩ := newChild_ok hg
    rw [ha, Option.some.injEq] at hp
    exact absurd ((hp ▸ hopen).symm.trans hclosed) (by simp)

/-- The children of a closed allocator were made before it was closed. -/
theorem exists_of_head?_above (hl : f.Linked) (ha : f.get? n = some a) (hclosed : a.closed = true)
    (calls : List AllocatorCall) {i : Nat} {b : Allocator} (hb : (f.performAll calls).get? i = some b)
    (hn : b.above.head? = some n) : ∃ b', f.get? i = some b' := by
  induction calls generalizing f a with
  | nil => exact ⟨b, hb⟩
  | cons c calls ih =>
    obtain ⟨hev, hl'⟩ := evolves_perform hl c
    obtain ⟨a', ha', haa'⟩ := hev.old n a ha
    obtain ⟨b', hb'⟩ := ih hl' ha' (haa'.figures_of_closed hclosed).1 hb
    cases hold : f.get? i with
    | some b₀ => exact ⟨b₀, rfl⟩
    | none =>
      -- made by this very call, under a parent that was open
      obtain ⟨b'', hb'', habove⟩ : ∃ b'', (f.performAll (c :: calls)).get? i = some b'' ∧
          b''.above = b'.above := by
        obtain ⟨b'', hb'', hbb''⟩ := (evolves_performAll hl' calls).1.old i b' hb'
        exact ⟨b'', hb'', hbb''.above_eq⟩
      rw [hb, Option.some.injEq] at hb''
      subst hb''
      rcases above_new hl hb' hold with hroot | ⟨p, x, _, _, _, _, -, hp, hopen, hnew⟩
      · rw [habove, hroot] at hn
        simp at hn
      · rw [habove, hnew, List.head?_cons, Option.some.injEq] at hn
        subst hn
        rw [ha, Option.some.injEq] at hp
        exact absurd ((hp ▸ hopen).symm.trans hclosed) (by simp)

end Forest

end FragmentHost

import FragmentHost.Proofs.Memory.Evolution

/-!
# Runs of a forest

What can be asked of the allocators of a forest is an `AllocatorCall`. A forest carries calls out in any
order and any number; a refused call changes nothing. `performAll` is a whole run. Every forest that a
run leads to is linked and sound (`linked_performAll`, `sound_performAll`), and it came from the forest
before by the changes of `Forest.Evolves`.
-/

namespace FragmentHost

/-- What can be asked of the allocators of a forest. -/
inductive AllocatorCall where
  | root (label : String) (max : Int)
  | child (parent : Nat) (label : String) (initial max : Int) (obeysLimits : Bool)
  | consume (i : Nat) (bytes : Int)
  | release (i : Nat) (bytes : Int)
  | limit (i : Nat) (limit : Int)
  | close (i : Nat)
  | drop (i : Nat)
  deriving DecidableEq, Repr

namespace Forest

/-- The forest after a call; a refused call leaves it as it is. -/
def perform (f : Forest) : AllocatorCall → Forest
  | .root label max => (f.newRoot label max).1
  | .child parent label initial max obeysLimits =>
    match f.newChild parent label initial max obeysLimits with
    | .ok (g, _) => g
    | .error _ => f
  | .consume i bytes =>
    match f.consume i bytes with
    | .ok g => g
    | .error _ => f
  | .release i bytes => f.release i bytes
  | .limit i limit => f.setLimit i limit
  | .close i => (f.close i).1
  | .drop i => (f.drop i).1

/-- The forest after calls, one after the other. -/
def performAll (f : Forest) (calls : List AllocatorCall) : Forest := calls.foldl perform f

@[simp] theorem performAll_nil (f : Forest) : f.performAll [] = f := rfl

@[simp] theorem performAll_cons (f : Forest) (c : AllocatorCall) (calls : List AllocatorCall) :
    f.performAll (c :: calls) = (f.perform c).performAll calls := rfl

theorem performAll_append (f : Forest) (calls later : List AllocatorCall) :
    f.performAll (calls ++ later) = (f.performAll calls).performAll later := by
  simp [performAll]

-- ---------------------------------------------------------------------------
-- The number of allocators
-- ---------------------------------------------------------------------------

theorem length_charge {f g : Forest} {path : List Nat} {bytes : Int} {limited : Bool}
    (hc : f.Climbs path) (h : f.charge path bytes limited = .ok g) :
    g.nodes.length = f.nodes.length := by
  refine charge_induction (motive := fun _ _ _ g => g.nodes.length = f.nodes.length) ?_ ?_ hc h
  · exact fun _ _ _ _ => rfl
  · intro i rest bytes limited a g _ _ _ _ _ _ _ ih
    rw [length_modify, ih]

theorem length_discharge (f : Forest) (path : List Nat) (bytes : Int) :
    (f.discharge path bytes).nodes.length = f.nodes.length := by
  refine discharge_induction (motive := fun f _ _ g => g.nodes.length = f.nodes.length) ?_ ?_
    path f bytes
  · exact fun _ _ _ _ => rfl
  · intro f i rest bytes a _ _ _ ih
    rw [ih, length_modify]

theorem length_shut (f : Forest) (i : Nat) : (f.shut i).1.nodes.length = f.nodes.length := by
  unfold shut
  cases ha : f.get? i with
  | none => rfl
  | some a =>
    dsimp only
    split
    · rfl
    · rw [length_discharge, length_modify]

theorem length_add (f : Forest) (a : Allocator) :
    (f.add a).1.nodes.length = f.nodes.length + 1 := by
  simp [add]

-- ---------------------------------------------------------------------------
-- Closing and creation
-- ---------------------------------------------------------------------------

theorem fst_close (f : Forest) (i : Nat) : (f.close i).1 = (f.shut i).1 := by
  unfold close
  split
  · next g outstanding h =>
    split <;> simp [h]
  · next g h => simp [h]

theorem fst_drop (f : Forest) (i : Nat) :
    (f.drop i).1 = (f.shut i).1.modify i fun a => { a with dropped := true } := rfl

/-- Closing spares what neither the closed allocator nor those that get bytes back write. -/
theorem map_get?_shut {α : Type} {part : Allocator → α} (hshut : ∀ a, part (Allocator.shut a) = part a)
    (hback : ∀ a bytes, part (Allocator.giveBack a bytes) = part a) (f : Forest) (i j : Nat) :
    ((f.shut i).1.get? j).map part = (f.get? j).map part := by
  unfold shut
  split
  · rfl
  · split
    · rfl
    · rw [map_get?_discharge hback, map_get?_modify f i hshut]

/-- A closed allocator is not closed again. -/
theorem shut_of_closed {f : Forest} {i : Nat} {a : Allocator} (ha : f.get? i = some a)
    (hclosed : a.closed = true) : f.shut i = (f, none) := by
  rw [shut, ha]
  simp [hclosed]

theorem shut_of_open {f : Forest} {i : Nat} {a : Allocator} (ha : f.get? i = some a)
    (hopen : a.closed = false) :
    f.shut i = ((f.modify i (·.shut)).discharge a.above (a.covered a.current), some a.current) := by
  rw [shut, ha]
  simp [hopen]

theorem shut_of_none {f : Forest} {i : Nat} (ha : f.get? i = none) : f.shut i = (f, none) := by
  rw [shut, ha]

/-- The allocator that a granted reservation makes. -/
def newborn (f : Forest) (parent : Nat) (label : String) (initial max : Int) (obeysLimits : Bool) :
    Allocator :=
  { label := label, above := f.path parent, initial := initial, max := max,
    obeysLimits := obeysLimits }

/-- What a granted reservation does: the open parent was charged like for any other request, and the
child was then added and recorded. -/
theorem newChild_ok {f g : Forest} {parent child : Nat} {label : String} {initial max : Int}
    {obeysLimits : Bool} (h : f.newChild parent label initial max obeysLimits = .ok (g, child)) :
    0 ≤ initial ∧ (∃ p, f.get? parent = some p ∧ p.closed = false) ∧
      ∃ f', f.charge (f.path parent) initial obeysLimits = .ok f' ∧ child = f'.nodes.length ∧
        g = (f'.add (f.newborn parent label initial max obeysLimits)).1.enter parent child := by
  unfold newChild at h
  -- the checks in their order: the numbers, the parent, and the request to it
  cases hfault : reservationFault? label initial max with
  | some fault => simp [hfault] at h
  | none =>
    have hinitial : 0 ≤ initial := by
      unfold reservationFault? at hfault
      split at hfault
      · simp at hfault
      · omega
    cases hp : f.get? parent with
    | none => simp [hfault, hp] at h
    | some p =>
      have hpath : f.path parent = parent :: p.above := by simp [path, hp]
      by_cases hclosed : p.closed = true
      · simp [hfault, hp, hclosed] at h
      · cases hf' : f.charge (parent :: p.above) initial obeysLimits with
        | error refusal => simp [hfault, hp, hclosed, hf'] at h
        | ok f' =>
          simp only [hfault, hp, hclosed, hf', add, Bool.false_eq_true, if_false, Except.ok.injEq,
            Prod.mk.injEq] at h
          obtain ⟨rfl, rfl⟩ := h
          refine ⟨hinitial, ⟨p, rfl, by simpa using hclosed⟩, f', by rw [hpath, hf'], rfl, ?_⟩
          rw [newborn, hpath, add]

theorem isNew_newborn (f : Forest) (parent : Nat) (label : String) {initial : Int} (max : Int)
    (obeysLimits : Bool) (h : 0 ≤ initial) :
    (f.newborn parent label initial max obeysLimits).IsNew :=
  ⟨h, ⟨rfl, rfl, rfl, rfl⟩, ⟨rfl, rfl⟩, rfl, rfl⟩

-- ---------------------------------------------------------------------------
-- What a call does to the forest
-- ---------------------------------------------------------------------------

theorem Climbs.evolves {f g : Forest} (h : f.Evolves g) : ∀ {path : List Nat}, f.Climbs path →
    g.Climbs path := by
  intro path
  induction path with
  | nil => exact fun _ => trivial
  | cons i rest ih =>
    rintro ⟨⟨a, ha, habove⟩, hlt, hrest⟩
    obtain ⟨b, hb, hab⟩ := h.old i a ha
    exact ⟨⟨b, hb, hab.above_eq.trans habove⟩, hlt, ih hrest⟩

/-- Links stay, so that only new allocators have to be looked at. -/
theorem Linked.evolves {f g : Forest} (hf : f.Linked) (h : f.Evolves g)
    (hnew : ∀ i a, f.nodes.length ≤ i → g.get? i = some a → g.Climbs (i :: a.above)) : g.Linked := by
  intro i b hb
  by_cases hi : i < f.nodes.length
  · obtain ⟨a, ha⟩ := exists_get?_of_lt hi
    obtain ⟨b', hb', hab⟩ := h.old i a ha
    rw [hb, Option.some.injEq] at hb'
    subst hb'
    rw [hab.above_eq]
    exact Climbs.evolves h (hf i a ha)
  · exact hnew i b (by omega) hb

theorem Linked.evolves_of_length {f g : Forest} (hf : f.Linked) (h : f.Evolves g)
    (hlen : g.nodes.length = f.nodes.length) : g.Linked := by
  refine hf.evolves h fun i a hi ha => ?_
  -- there are no new ones
  have := lt_length_of_get? ha
  omega

theorem Sound.evolves {f g : Forest} (hf : f.Sound) (h : f.Evolves g) : g.Sound := by
  intro i b hb
  cases ha : f.get? i with
  | some a =>
    obtain ⟨b', hb', hab⟩ := h.old i a ha
    rw [hb, Option.some.injEq] at hb'
    exact hb' ▸ (hf i a ha).evolves hab
  | none =>
    obtain ⟨a, hnew, hab⟩ := h.new i b hb ha
    exact hnew.sound.evolves hab

/-- Where none are added, everyone has the same allocators above as before. -/
theorem path_of_evolves {f g : Forest} (h : f.Evolves g) (hlen : g.nodes.length = f.nodes.length)
    (i : Nat) : g.path i = f.path i := by
  cases ha : f.get? i with
  | none =>
    have hg : g.get? i = none := by
      rw [get?_eq_none_iff] at ha ⊢
      omega
    rw [path, hg, path, ha]
  | some a =>
    obtain ⟨b, hb, hab⟩ := h.old i a ha
    rw [path_of_get? hb, path_of_get? ha, hab.above_eq]

theorem kept_of_evolves {f g : Forest} (hl : f.Linked) (hs : f.Sound) (hev : f.Evolves g)
    (hlen : g.nodes.length = f.nodes.length) :
    g.Linked ∧ g.Sound ∧ ∀ i, g.path i = f.path i :=
  ⟨hl.evolves_of_length hev hlen, hs.evolves hev, path_of_evolves hev hlen⟩

/-- A linked forest with one more allocator at the end, below allocators that it has. -/
theorem Linked.add {f : Forest} (hf : f.Linked) {a : Allocator} (hnew : a.IsNew)
    (habove : f.Climbs a.above) : (f.add a).1.Linked := by
  have hev := evolves_add f hnew
  refine hf.evolves hev fun i b hi hb => ?_
  rw [get?_add] at hb
  split at hb
  · next hlast =>
    -- the path of the new allocator is one of the old forest
    obtain rfl := Option.some.inj hb
    refine ⟨⟨a, by rw [get?_add, if_pos hlast], rfl⟩, fun j hj => ?_, Climbs.evolves hev habove⟩
    have := habove.lt_length hj
    omega
  · rw [get?_eq_none_iff.mpr hi] at hb
    simp at hb

theorem evolves_enter (f : Forest) (parent child : Nat) : f.Evolves (f.enter parent child) :=
  evolves_modify fun a _ => .record a _

theorem evolves_close (f : Forest) (i : Nat) : f.Evolves (f.close i).1 := by
  rw [fst_close]
  exact evolves_shut f i

/-- After closing, an allocator of the forest is closed. -/
theorem closed_shut {f : Forest} {i : Nat} {b : Allocator} (hb : (f.shut i).1.get? i = some b) :
    b.closed = true := by
  cases ha : f.get? i with
  | none =>
    rw [shut_of_none ha, ha] at hb
    simp at hb
  | some a =>
    by_cases hclosed : a.closed = true
    · rw [shut_of_closed ha hclosed, ha, Option.some.injEq] at hb
      exact hb ▸ hclosed
    · rw [shut_of_open ha (by simpa using hclosed)] at hb
      obtain ⟨b', hb', hab⟩ := (evolves_discharge (f.modify i (·.shut)) a.above
        (a.covered a.current)).old i a.shut (by simp [ha])
      rw [hb, Option.some.injEq] at hb'
      exact hb' ▸ hab.closed rfl

theorem evolves_drop (f : Forest) (i : Nat) : f.Evolves (f.drop i).1 := by
  refine (evolves_shut f i).trans (evolves_modify fun b hb => .drop (closed_shut hb))

/-- A granted reservation in steps: the charge, the new allocator and the record of it. -/
theorem evolves_newChild {f g : Forest} (hf : f.Linked) {parent child : Nat} {label : String}
    {initial max : Int} {obeysLimits : Bool}
    (h : f.newChild parent label initial max obeysLimits = .ok (g, child)) :
    f.Evolves g ∧ g.Linked := by
  obtain ⟨hinitial, -, f', hf', -, rfl⟩ := newChild_ok h
  have hpath := hf.climbs_path parent
  -- charged, added, recorded
  have hcharge := evolves_charge hpath hf'
  have hlinked := hf.evolves_of_length hcharge (length_charge hpath hf')
  have hnew := isNew_newborn f parent label max obeysLimits hinitial
  have hadd := evolves_add f' hnew
  have henter := evolves_enter (f'.add (f.newborn parent label initial max obeysLimits)).1 parent child
  refine ⟨(hcharge.trans hadd).trans henter, ?_⟩
  refine (hlinked.add hnew (Climbs.evolves hcharge hpath)).evolves_of_length henter ?_
  rw [enter, length_modify]

/-- Whatever is asked of a linked forest, it changes only in the listed ways and stays linked. -/
theorem evolves_perform {f : Forest} (hf : f.Linked) (c : AllocatorCall) :
    f.Evolves (f.perform c) ∧ (f.perform c).Linked := by
  cases c with
  | root label max =>
    have hnew : Allocator.IsNew
        { label := label, above := [], initial := 0, max := max, obeysLimits := false } :=
      ⟨le_rfl, ⟨rfl, rfl, rfl, rfl⟩, ⟨rfl, rfl⟩, rfl, rfl⟩
    exact ⟨evolves_add f hnew, hf.add hnew trivial⟩
  | child parent label initial max obeysLimits =>
    simp only [perform]
    split
    · next g child h => exact evolves_newChild hf h
    · exact ⟨.refl f, hf⟩
  | consume i bytes =>
    simp only [perform]
    split
    · next g h =>
      have hpath := hf.climbs_path i
      have hev := evolves_charge hpath h
      exact ⟨hev, hf.evolves_of_length hev (length_charge hpath h)⟩
    · exact ⟨.refl f, hf⟩
  | release i bytes =>
    have hev := evolves_discharge f (f.path i) bytes
    exact ⟨hev, hf.evolves_of_length hev (length_discharge f _ bytes)⟩
  | limit i limit =>
    have hev : f.Evolves (f.setLimit i limit) := evolves_modify fun a _ => .limit a limit
    exact ⟨hev, hf.evolves_of_length hev (length_modify f i _)⟩
  | close i =>
    refine ⟨evolves_close f i, hf.evolves_of_length (evolves_close f i) ?_⟩
    simp only [perform]
    rw [fst_close, length_shut]
  | drop i =>
    refine ⟨evolves_drop f i, hf.evolves_of_length (evolves_drop f i) ?_⟩
    simp only [perform, drop]
    rw [length_modify, length_shut]

/-- A run of calls changes a linked forest only in the listed ways and keeps it linked. -/
theorem evolves_performAll {f : Forest} (hf : f.Linked) (calls : List AllocatorCall) :
    f.Evolves (f.performAll calls) ∧ (f.performAll calls).Linked := by
  induction calls generalizing f with
  | nil => exact ⟨.refl f, hf⟩
  | cons c calls ih =>
    obtain ⟨hev, hlinked⟩ := evolves_perform hf c
    obtain ⟨hev', hlinked'⟩ := ih hlinked
    exact ⟨hev.trans hev', hlinked'⟩

/-- What a granted reservation makes, and where. -/
theorem made_of_newChild {f g : Forest} (hf : f.Linked) {parent child : Nat} {label : String}
    {initial max : Int} {obeysLimits : Bool}
    (h : f.newChild parent label initial max obeysLimits = .ok (g, child)) :
    child = f.nodes.length ∧ g.nodes.length = f.nodes.length + 1 ∧
      g.get? child = some (f.newborn parent label initial max obeysLimits) := by
  obtain ⟨-, ⟨p, hp, -⟩, f', hf', rfl, rfl⟩ := newChild_ok h
  have hlen := length_charge (hf.climbs_path parent) hf'
  have hlt := lt_length_of_get? hp
  refine ⟨hlen, by rw [enter, length_modify, length_add, hlen], ?_⟩
  rw [enter, get?_modify_of_ne _ (by omega), get?_add, if_pos rfl]

/-- An allocator that was not there before a call is the root or the child that the call makes. -/
theorem made_of_perform {f : Forest} (hf : f.Linked) {c : AllocatorCall} {j : Nat} {b : Allocator}
    (hb : (f.perform c).get? j = some b) (hnew : f.get? j = none) :
    (∃ label max, c = .root label max ∧
        b = { label := label, above := [], initial := 0, max := max, obeysLimits := false }) ∨
      ∃ parent label initial max obeysLimits g, c = .child parent label initial max obeysLimits ∧
        f.newChild parent label initial max obeysLimits = .ok (g, j) ∧
        b = f.newborn parent label initial max obeysLimits := by
  have hlen := get?_eq_none_iff.mp hnew
  have hlt := lt_length_of_get? hb
  cases c with
  | root label max =>
    rw [perform, newRoot, get?_add] at hb
    split at hb
    · exact Or.inl ⟨label, max, rfl, (Option.some.inj hb).symm⟩
    · simp [hnew] at hb
  | child parent label initial max obeysLimits =>
    rw [perform] at hb hlt
    cases hg : f.newChild parent label initial max obeysLimits with
    | error refusal => simp [hg, hnew] at hb
    | ok made =>
      obtain ⟨g, child⟩ := made
      obtain ⟨hchild, hlength, hmade⟩ := made_of_newChild hf hg
      rw [hg] at hb hlt
      -- there is one new place
      obtain rfl : j = child := by
        dsimp only at hlt
        omega
      dsimp only at hb
      rw [hmade, Option.some.injEq] at hb
      exact Or.inr ⟨parent, label, initial, max, obeysLimits, g, rfl, hg, hb.symm⟩
  | consume i bytes =>
    rw [perform] at hlt
    split at hlt
    · next g hg =>
      rw [length_charge (hf.climbs_path i) hg] at hlt
      omega
    · omega
  | release i bytes =>
    rw [perform, release, length_discharge] at hlt
    omega
  | limit i limit =>
    rw [perform, setLimit, length_modify] at hlt
    omega
  | close i =>
    rw [perform, fst_close, length_shut] at hlt
    omega
  | drop i =>
    rw [perform, fst_drop, length_modify, length_shut] at hlt
    omega

theorem linked_empty : Linked {} := by
  intro i a ha
  simp [get?] at ha

theorem sound_empty : Sound {} := by
  intro i a ha
  simp [get?] at ha

/-- Every forest that a run leads to is linked. -/
theorem linked_performAll (calls : List AllocatorCall) : (performAll {} calls).Linked :=
  (evolves_performAll linked_empty calls).2

/-- Every allocator has sound numbers at any point of any run. -/
theorem sound_performAll (calls : List AllocatorCall) : (performAll {} calls).Sound :=
  sound_empty.evolves (evolves_performAll linked_empty calls).1

end Forest

end FragmentHost

import FragmentHost.Proofs.Memory.Calls

/-!
# The accounting in words

Byte counts are integers here, and sums of them are exact. A machine adds and subtracts words of sixty-four
bits, and a plain sum that leaves their range has no right answer there. In this module the accounting is
carried out with such sums: `Word.plain?` answers nothing for a sum out of range, and every operation that
comes upon one answers nothing as a whole. Only two kinds of sums are not plain: use grows by an addition
that stops at the largest word, and the two totals wrap around.

Whatever is called with words as amounts, the operations in words answer what the exact ones do
(`performInWords?_eq`). What keeps every sum in range is that reservations and use are words that are not
negative: a difference of two such words is a word, and what a parent holds is the larger of the two. New
allocators have such a reservation since no other is granted, and use only ever stops at the largest word
(`Allocator.InWords`, `inWords_perform`).
-/

namespace FragmentHost

/-- A plain sum of words, or nothing if it is not a word. -/
def Word.plain? (n : Int) : Option Int := if Word.Fits n then some n else none

theorem Word.plain?_of_fits {n : Int} (h : Word.Fits n) : Word.plain? n = some n := if_pos h

theorem Word.fits_zero : Word.Fits 0 := by decide

theorem Word.fits_of_nonneg {n : Int} (h₀ : 0 ≤ n) (h₁ : n ≤ Word.largest) : Word.Fits n :=
  ⟨Word.fits_zero.1.trans h₀, h₁⟩

/-- The difference of two words that are not negative is a word. -/
theorem Word.fits_sub {m n : Int} (hm : 0 ≤ m ∧ m ≤ Word.largest) (hn : 0 ≤ n ∧ n ≤ Word.largest) :
    Word.Fits (m - n) := by
  simp only [Word.Fits, Word.smallest, Word.largest] at *
  omega

namespace Allocator

-- ---------------------------------------------------------------------------
-- One allocator
-- ---------------------------------------------------------------------------

/-- The part of `usage` that the reservation does not cover. -/
def excessInWords? (a : Allocator) (usage : Int) : Option Int := do
  let beyond ← Word.plain? (usage - a.initial)
  return Max.max beyond 0

/-- What the parent has to grant before `bytes` can be granted here. -/
def demandInWords? (a : Allocator) (bytes : Int) : Option Int := do
  let after ← a.excessInWords? (a.usageAfter bytes)
  let before ← a.excessInWords? a.current
  Word.plain? (after - before)

/-- The allocator with `bytes` returned, and what the parent gets back. -/
def giveBackInWords? (a : Allocator) (bytes : Int) : Option (Allocator × Int) := do
  let left ← Word.plain? (a.current - bytes)
  let usage := Max.max left 0
  let before ← a.excessInWords? a.current
  let after ← a.excessInWords? usage
  let relief ← Word.plain? (before - after)
  let returned ← Word.plain? (a.current - usage)
  return ({ a with current := usage, deallocated := Word.wrap (a.deallocated + returned) }, relief)

/-- The bytes that the parent holds while `usage` bytes are in use. -/
def coveredInWords? (a : Allocator) (usage : Int) : Option Int := do
  let excess ← a.excessInWords? usage
  Word.plain? (excess + a.initial)

/-- The figures of the allocator are words. -/
structure InWords (a : Allocator) : Prop where
  initial : Word.Fits a.initial
  current : Word.Fits a.current
  peak : Word.Fits a.peak
  allocated : Word.Fits a.allocated
  deallocated : Word.Fits a.deallocated

variable {a : Allocator} {bytes usage : Int}

theorem current_range (hs : a.Sound) : 0 ≤ a.current ∧ a.current ≤ Word.largest :=
  ⟨hs.current_nonneg, hs.current_le⟩

theorem usageAfter_range (hs : a.Sound) (hpos : 0 ≤ bytes) :
    0 ≤ a.usageAfter bytes ∧ a.usageAfter bytes ≤ Word.largest :=
  ⟨hs.current_nonneg.trans (le_usageAfter hs hpos), (Word.fits_saturatingAdd a.current bytes).2⟩

theorem usageWithout_range (hs : a.Sound) (hpos : 0 ≤ bytes) :
    0 ≤ a.usageWithout bytes ∧ a.usageWithout bytes ≤ Word.largest := by
  have hc := current_range hs
  unfold usageWithout
  omega

/-- What is beyond the reservation is at most the use. -/
theorem excess_range (hs : a.Sound) (husage : 0 ≤ usage ∧ usage ≤ Word.largest) :
    0 ≤ a.excess usage ∧ a.excess usage ≤ Word.largest := by
  have hi := hs.initial_nonneg
  have hnonneg := a.excess_nonneg usage
  unfold excess at *
  omega

theorem excessInWords?_eq (hs : a.Sound) (hw : a.InWords) (husage : 0 ≤ usage ∧ usage ≤ Word.largest) :
    a.excessInWords? usage = some (a.excess usage) := by
  rw [excessInWords?, Word.plain?_of_fits (Word.fits_sub husage ⟨hs.initial_nonneg, hw.initial.2⟩)]
  rfl

theorem demandInWords?_eq (hs : a.Sound) (hw : a.InWords) (hpos : 0 ≤ bytes) :
    a.demandInWords? bytes = some (a.demand bytes) := by
  have hafter := usageAfter_range hs hpos
  have hbefore := current_range hs
  rw [demandInWords?, excessInWords?_eq hs hw hafter, excessInWords?_eq hs hw hbefore]
  exact Word.plain?_of_fits (Word.fits_sub (excess_range hs hafter) (excess_range hs hbefore))

/-- What goes back to the parent is a word again. -/
theorem fits_relief (hs : a.Sound) (hpos : 0 ≤ bytes) : Word.Fits (a.relief bytes) :=
  Word.fits_sub (excess_range hs (current_range hs)) (excess_range hs (usageWithout_range hs hpos))

theorem giveBackInWords?_eq (hs : a.Sound) (hw : a.InWords) (hpos : 0 ≤ bytes)
    (hbytes : Word.Fits bytes) : a.giveBackInWords? bytes = some (a.giveBack bytes, a.relief bytes) := by
  have hbefore := current_range hs
  have hafter := usageWithout_range hs hpos
  have hleft := Word.plain?_of_fits (Word.fits_sub hbefore ⟨hpos, hbytes.2⟩)
  have hreturned := Word.plain?_of_fits (Word.fits_sub hbefore hafter)
  have hrelief := Word.plain?_of_fits (fits_relief hs hpos)
  have husage : Max.max (a.current - bytes) 0 = a.usageWithout bytes := rfl
  unfold relief at hrelief
  simp only [giveBackInWords?, hleft, Option.bind_eq_bind, Option.bind_some, husage,
    excessInWords?_eq hs hw hbefore, excessInWords?_eq hs hw hafter, hrelief, hreturned]
  rfl

/-- The parent holds the larger of reservation and use, which is a word. -/
theorem fits_covered (hw : a.InWords) : Word.Fits (a.covered a.current) := by
  rw [covered_eq_max]
  exact ⟨hw.initial.1.trans (le_max_left _ _), max_le hw.initial.2 hw.current.2⟩

theorem coveredInWords?_eq (hs : a.Sound) (hw : a.InWords) :
    a.coveredInWords? a.current = some (a.covered a.current) := by
  rw [coveredInWords?, excessInWords?_eq hs hw (current_range hs)]
  exact Word.plain?_of_fits (fits_covered hw)

theorem InWords.becomes {b : Allocator} (hs : a.Sound) (hw : a.InWords) (h : Becomes a b) : b.InWords := by
  cases h with
  | @grant bytes limited _ _ =>
    have husage : Word.Fits (a.usageAfter bytes) := Word.fits_saturatingAdd a.current bytes
    refine ⟨hw.initial, husage, ?_, Word.fits_wrap _, hw.deallocated⟩
    exact ⟨hw.peak.1.trans (le_max_left _ _), max_le hw.peak.2 husage.2⟩
  | @giveBack bytes hpos _ =>
    have husage := usageWithout_range hs hpos.le
    exact ⟨hw.initial, Word.fits_of_nonneg husage.1 husage.2, hw.peak, hw.allocated, Word.fits_wrap _⟩
  | shut => exact ⟨hw.initial, Word.fits_zero, hw.peak, hw.allocated, hw.deallocated⟩
  | drop | limit | record =>
    exact ⟨hw.initial, hw.current, hw.peak, hw.allocated, hw.deallocated⟩

theorem InWords.evolves {b : Allocator} (hs : a.Sound) (hw : a.InWords) (h : a.Evolves b) : b.InWords :=
  (h.keeps (I := fun b => b.Sound ∧ b.InWords)
    (fun _ _ hbc hb => ⟨hb.1.becomes hbc, hb.2.becomes hb.1 hbc⟩) ⟨hs, hw⟩).2

/-- A new allocator has nothing in use and granted nothing. -/
theorem IsNew.inWords (h : a.IsNew) (hinitial : Word.Fits a.initial) : a.InWords := by
  obtain ⟨-, ⟨hc, hp, ha, hd⟩, -, -⟩ := h
  exact ⟨hinitial, hc ▸ Word.fits_zero, hp ▸ Word.fits_zero, ha ▸ Word.fits_zero, hd ▸ Word.fits_zero⟩

end Allocator

/-- The amounts of a call are words. What only ever is compared, ceilings and limits, may be any number. -/
def AllocatorCall.InWords : AllocatorCall → Prop
  | .child _ _ initial _ _ => Word.Fits initial
  | .consume _ bytes | .release _ bytes => Word.Fits bytes
  | .root _ _ | .limit _ _ | .close _ | .drop _ => True

instance : (c : AllocatorCall) → Decidable c.InWords
  | .child _ _ initial _ _ => inferInstanceAs (Decidable (Word.Fits initial))
  | .consume _ bytes | .release _ bytes => inferInstanceAs (Decidable (Word.Fits bytes))
  | .root _ _ | .limit _ _ | .close _ | .drop _ => isTrue trivial

namespace Forest

-- ---------------------------------------------------------------------------
-- Operations in words
-- ---------------------------------------------------------------------------

/-- Asks for `bytes` at the first allocator of a path. -/
def chargeInWords? (f : Forest) : (path : List Nat) → (bytes : Int) → (limited : Bool) →
    Option (Except Failure Forest)
  | [], _, _ => some (.ok f)
  | i :: rest, bytes, limited =>
    if bytes ≤ 0 then some (.ok f)
    else match f.get? i with
      | none => some (.ok f)
      | some a =>
        match a.refusal? bytes limited with
        | some refusal => some (.error refusal)
        | none => do
          let demand ← a.demandInWords? bytes
          match ← chargeInWords? f rest demand (limited && a.obeysLimits) with
          | .error refusal => return .error refusal
          | .ok g => return .ok (g.modify i (·.grant bytes))

/-- Returns `bytes` at the first allocator of a path. -/
def dischargeInWords? (f : Forest) : (path : List Nat) → (bytes : Int) → Option Forest
  | [], _ => some f
  | i :: rest, bytes =>
    if bytes ≤ 0 then some f
    else match f.get? i with
      | none => some f
      | some a =>
        if a.closed then some f
        else do
          let (b, relief) ← a.giveBackInWords? bytes
          dischargeInWords? (f.modify i fun _ => b) rest relief

/-- Closes allocator `i` and gives what its parent held for it back. -/
def shutInWords? (f : Forest) (i : Nat) : Option Forest :=
  match f.get? i with
  | none => some f
  | some a =>
    if a.closed then some f
    else do
      let covered ← a.coveredInWords? a.current
      (f.modify i (·.shut)).dischargeInWords? a.above covered

/-- The forest after a call; a refused call leaves it as it is. -/
def performInWords? (f : Forest) : AllocatorCall → Option Forest
  | .root label max => some (f.newRoot label max).1
  | .child parent label initial max obeysLimits =>
    match reservationFault? label initial max, f.get? parent with
    | none, some p =>
      if p.closed then some f
      else do
        match ← f.chargeInWords? (f.path parent) initial obeysLimits with
        | .error _ => return f
        | .ok g =>
          return (g.add (f.newborn parent label initial max obeysLimits)).1.enter parent g.nodes.length
    | _, _ => some f
  | .consume i bytes => do
    match ← f.chargeInWords? (f.path i) bytes true with
    | .error _ => return f
    | .ok g => return g
  | .release i bytes => f.dischargeInWords? (f.path i) bytes
  | .limit i limit => some (f.setLimit i limit)
  | .close i => f.shutInWords? i
  | .drop i => do
    let g ← f.shutInWords? i
    return g.modify i fun a => { a with dropped := true }

/-- The forest after calls, one after the other. -/
def performAllInWords? (f : Forest) (calls : List AllocatorCall) : Option Forest :=
  calls.foldlM performInWords? f

/-- The figures of every allocator are words. -/
def InWords (f : Forest) : Prop := ∀ i a, f.get? i = some a → a.InWords

-- ---------------------------------------------------------------------------
-- Words are enough
-- ---------------------------------------------------------------------------

variable {f : Forest}

theorem chargeInWords?_eq (hs : f.Sound) (hw : f.InWords) : ∀ (path : List Nat) (bytes : Int)
    (limited : Bool), f.chargeInWords? path bytes limited = some (f.charge path bytes limited) := by
  intro path
  induction path with
  | nil => exact fun _ _ => rfl
  | cons i rest ih =>
    intro bytes limited
    rw [chargeInWords?, charge]
    split
    · rfl
    · next hpos =>
      cases ha : f.get? i with
      | none => rfl
      | some a =>
        dsimp only
        cases a.refusal? bytes limited with
        | some refusal => rfl
        | none =>
          dsimp only
          rw [Allocator.demandInWords?_eq (hs i a ha) (hw i a ha) (by omega)]
          simp only [Option.bind_eq_bind, Option.bind_some, ih]
          cases f.charge rest (a.demand bytes) (limited && a.obeysLimits) <;> rfl

theorem InWords.evolves {g : Forest} (hs : f.Sound) (hw : f.InWords) (hev : f.Evolves g)
    (hlen : g.nodes.length = f.nodes.length) : g.InWords := by
  intro i b hb
  have hlt := lt_length_of_get? hb
  obtain ⟨a, ha⟩ := exists_get?_of_lt (f := f) (i := i) (by omega)
  obtain ⟨b', hb', hab⟩ := hev.old i a ha
  obtain rfl := Option.some.inj (hb.symm.trans hb')
  exact (hw i a ha).evolves (hs i a ha) hab

theorem dischargeInWords?_eq : ∀ (path : List Nat) (f : Forest) (bytes : Int), f.Sound → f.InWords →
    Word.Fits bytes → f.dischargeInWords? path bytes = some (f.discharge path bytes) := by
  intro path
  induction path with
  | nil => exact fun _ _ _ _ _ => rfl
  | cons i rest ih =>
    intro f bytes hs hw hbytes
    rw [dischargeInWords?, discharge]
    split
    · rfl
    · next hpos =>
      cases ha : f.get? i with
      | none => rfl
      | some a =>
        dsimp only
        split
        · rfl
        · next hopen =>
          have hsa := hs i a ha
          have hev : f.Evolves (f.modify i (·.giveBack bytes)) :=
            evolves_modify_of_get? ha (.giveBack (by omega) (by simpa using hopen))
          have hwritten : f.modify i (fun _ => a.giveBack bytes) = f.modify i (·.giveBack bytes) :=
            modify_congr ha rfl
          rw [Allocator.giveBackInWords?_eq hsa (hw i a ha) (by omega) hbytes]
          simp only [Option.bind_eq_bind, Option.bind_some, hwritten]
          exact ih _ _ (hs.evolves hev) (hw.evolves hs hev (length_modify f i _))
            (Allocator.fits_relief hsa (by omega))

theorem shutInWords?_eq (hs : f.Sound) (hw : f.InWords) (i : Nat) :
    f.shutInWords? i = some (f.shut i).1 := by
  rw [shutInWords?, shut]
  cases ha : f.get? i with
  | none => rfl
  | some a =>
    dsimp only
    split
    · rfl
    · next hopen =>
      have hev : f.Evolves (f.modify i (·.shut)) :=
        evolves_modify_of_get? ha (.shut (by simpa using hopen))
      rw [Allocator.coveredInWords?_eq (hs i a ha) (hw i a ha)]
      exact dischargeInWords?_eq a.above _ _ (hs.evolves hev) (hw.evolves hs hev (length_modify f i _))
        (Allocator.fits_covered (hw i a ha))

/-- Whatever is called with words as amounts, a call in words does what the exact one does. -/
theorem performInWords?_eq (hs : f.Sound) (hw : f.InWords) {c : AllocatorCall} (hc : c.InWords) :
    f.performInWords? c = some (f.perform c) := by
  cases c with
  | root label max => rfl
  | child parent label initial max obeysLimits =>
    rw [performInWords?, perform, newChild]
    cases reservationFault? label initial max with
    | some fault => rfl
    | none =>
      cases hp : f.get? parent with
      | none => rfl
      | some p =>
        dsimp only
        split
        · rfl
        · rw [chargeInWords?_eq hs hw, newborn, path_of_get? hp]
          cases f.charge (parent :: p.above) initial obeysLimits <;> rfl
  | consume i bytes =>
    rw [performInWords?, chargeInWords?_eq hs hw, perform, consume]
    cases f.charge (f.path i) bytes true <;> rfl
  | release i bytes => exact dischargeInWords?_eq _ f bytes hs hw hc
  | limit i limit => rfl
  | close i =>
    rw [performInWords?, shutInWords?_eq hs hw, perform, fst_close]
  | drop i =>
    rw [performInWords?, shutInWords?_eq hs hw]
    rfl

/-- A call with words as amounts leaves words. -/
theorem inWords_perform (hl : f.Linked) (hs : f.Sound) (hw : f.InWords) {c : AllocatorCall}
    (hc : c.InWords) : (f.perform c).InWords := by
  intro j b hb
  cases ha : f.get? j with
  | some a =>
    obtain ⟨b', hb', hab⟩ := (evolves_perform hl c).1.old j a ha
    obtain rfl := Option.some.inj (hb.symm.trans hb')
    exact (hw j a ha).evolves (hs j a ha) hab
  | none =>
    -- a new root has no reservation, and that of a new child was granted
    rcases made_of_perform hl hb ha with
      ⟨label, max, -, rfl⟩ | ⟨parent, label, initial, max, obeysLimits, g, rfl, hg, rfl⟩
    · exact Allocator.IsNew.inWords ⟨le_rfl, ⟨rfl, rfl, rfl, rfl⟩, ⟨rfl, rfl⟩, rfl, rfl⟩ Word.fits_zero
    · exact (isNew_newborn f parent label max obeysLimits (newChild_ok hg).1).inWords hc

/-- A run with words as amounts goes through in words, and ends in the forest of the exact run. -/
theorem performAllInWords?_eq (hl : f.Linked) (hs : f.Sound) (hw : f.InWords)
    {calls : List AllocatorCall} (hc : ∀ c ∈ calls, c.InWords) :
    f.performAllInWords? calls = some (f.performAll calls) ∧ (f.performAll calls).InWords := by
  induction calls generalizing f with
  | nil => exact ⟨rfl, hw⟩
  | cons c calls ih =>
    obtain ⟨hfirst, hrest⟩ := List.forall_mem_cons.mp hc
    obtain ⟨hev, hlinked⟩ := evolves_perform hl c
    have hlater := ih hlinked (hs.evolves hev) (inWords_perform hl hs hw hfirst) hrest
    rw [performAllInWords?, List.foldlM_cons, performInWords?_eq hs hw hfirst]
    exact hlater

theorem inWords_empty : InWords {} := by
  intro i a ha
  simp [get?] at ha

end Forest

end FragmentHost

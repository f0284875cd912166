import FragmentHost.Proofs.Memory.Calls

/-!
# Requests that limits do not reach

Limits can be compared away: `Forest.unlimited` is the forest without them. A request that no limit can
refuse does the same in both (`unlimited_consume`), whether it is granted or refused and with the same
words. Such are the requests at an allocator that does not pass them on under the limits above and whose
own limit is never the first to refuse (`Allocator.Unbound`): it is not set, or not below the ceiling.

Requests and returns leave limits as they are, so that an allocator that no limit binds stays one until
its own limit is set below its ceiling (`Unbound.setLimit`).
-/

namespace FragmentHost

namespace Allocator

/-- The allocator without its limit. -/
def unlimited (a : Allocator) : Allocator := { a with limit := -1 }

/-- A limit that refuses nothing that a ceiling of `max` lets pass. -/
def IdleLimit (max limit : Int) : Prop := limit < 0 ∨ (0 ≤ max ∧ max ≤ limit)

instance (max limit : Int) : Decidable (IdleLimit max limit) :=
  inferInstanceAs (Decidable (limit < 0 ∨ (0 ≤ max ∧ max ≤ limit)))

/-- No limit refuses a request at this allocator with a ceiling of `max`: not its own, and those above
do not apply. -/
structure Unbound (max : Int) (a : Allocator) : Prop where
  passes_freely : a.obeysLimits = false
  max_eq : a.max = max
  idle : IdleLimit max a.limit

/-- A request that is not subject to limits is answered as if there were none. -/
theorem refusal?_unlimited_free (a : Allocator) (bytes : Int) :
    a.unlimited.refusal? bytes false = a.refusal? bytes false := by
  simp only [refusal?, Bool.false_eq_true, false_and, if_false]
  rfl

theorem refusal?_of_idle {a : Allocator} (h : IdleLimit a.max a.limit) (bytes : Int) (limited : Bool) :
    a.refusal? bytes limited = a.refusal? bytes false := by
  unfold refusal?
  by_cases hclosed : a.closed = true
  · rw [if_pos hclosed, if_pos hclosed]
  · rw [if_neg hclosed, if_neg hclosed]
    by_cases hmax : 0 ≤ a.max ∧ a.max < a.usageAfter bytes
    · rw [if_pos hmax, if_pos hmax]
    · -- what the ceiling lets pass is within the limit
      have hlimit : ¬ (limited = true ∧ 0 ≤ a.limit ∧ a.limit < a.usageAfter bytes) := by
        rintro ⟨-, hset, hover⟩
        rcases h with hunset | ⟨hceiling, hle⟩
        · omega
        · exact hmax ⟨hceiling, by omega⟩
      rw [if_neg hmax, if_neg hmax, if_neg hlimit, if_neg (by simp)]

end Allocator

namespace Forest

/-- The forest without limits. -/
def unlimited (f : Forest) : Forest := ⟨f.nodes.map (·.unlimited)⟩

theorem get?_unlimited (f : Forest) (i : Nat) : f.unlimited.get? i = (f.get? i).map (·.unlimited) :=
  List.getElem?_map ..

theorem current_unlimited (f : Forest) (i : Nat) : f.unlimited.current i = f.current i := by
  rw [current, get?_unlimited, current]
  cases f.get? i <;> rfl

theorem path_unlimited (f : Forest) (i : Nat) : f.unlimited.path i = f.path i := by
  rw [path, get?_unlimited, path]
  cases f.get? i <;> rfl

/-- A change that does not look at limits does the same without them. -/
theorem unlimited_modify (f : Forest) (i : Nat) (change : Allocator → Allocator)
    (h : ∀ a, (change a).unlimited = change a.unlimited) :
    (f.modify i change).unlimited = f.unlimited.modify i change := by
  have hnodes : (f.nodes.modify i change).map (·.unlimited) =
      (f.nodes.map (·.unlimited)).modify i change := by
    refine List.ext_getElem? fun j => ?_
    rw [List.getElem?_map, List.getElem?_modify, List.getElem?_modify, List.getElem?_map]
    by_cases hij : i = j
    · cases f.nodes[j]? with
      | none => simp
      | some a => simp [hij, h]
    · cases f.nodes[j]? <;> simp [hij]
  rw [unlimited, modify, hnodes, modify, unlimited]

theorem unlimited_setLimit (f : Forest) (i : Nat) (limit : Int) :
    (f.setLimit i limit).unlimited = f.unlimited := by
  have hnodes : (f.nodes.modify i fun a => { a with limit := limit }).map (·.unlimited) =
      f.nodes.map (·.unlimited) := by
    refine List.ext_getElem? fun j => ?_
    rw [List.getElem?_map, List.getElem?_modify, List.getElem?_map]
    cases f.nodes[j]? with
    | none => rfl
    | some a => by_cases hij : i = j <;> simp [hij, Allocator.unlimited]
  rw [unlimited, setLimit, modify, hnodes, unlimited]

/-- A request that is not subject to limits finds the same on its way without them. -/
theorem unlimited_charge_free (f : Forest) : ∀ (path : List Nat) (bytes : Int),
    f.unlimited.charge path bytes false = (f.charge path bytes false).map (·.unlimited) := by
  intro path
  induction path with
  | nil => exact fun _ => rfl
  | cons i rest ih =>
    intro bytes
    rw [charge, charge]
    by_cases hpos : bytes ≤ 0
    · rw [if_pos hpos, if_pos hpos]
      rfl
    · rw [if_neg hpos, if_neg hpos, get?_unlimited]
      cases f.get? i with
      | none => rfl
      | some a =>
        simp only [Option.map_some, Allocator.refusal?_unlimited_free, Bool.false_and]
        cases a.refusal? bytes false with
        | some refusal => rfl
        | none =>
          have hdemand : a.unlimited.demand bytes = a.demand bytes := rfl
          dsimp only
          rw [hdemand, ih]
          cases f.charge rest (a.demand bytes) false with
          | error refusal => rfl
          | ok g => exact congrArg Except.ok (unlimited_modify g i (·.grant bytes) fun _ => rfl).symm

/-- No limit refuses a request at allocator `i`, if there is one; its ceiling is `max`. -/
def Unbound (f : Forest) (max : Int) (i : Nat) : Prop := ∀ a, f.get? i = some a → a.Unbound max

variable {f g : Forest} {max : Int} {i : Nat}

/-- At an allocator that no limit binds, a request is not subject to limits. -/
theorem charge_of_unbound (h : f.Unbound max i) (rest : List Nat) (bytes : Int) (limited : Bool) :
    f.charge (i :: rest) bytes limited = f.charge (i :: rest) bytes false := by
  rw [charge, charge]
  cases ha : f.get? i with
  | none => rfl
  | some a =>
    obtain ⟨hpasses, rfl, hidle⟩ := h a ha
    simp only [Allocator.refusal?_of_idle hidle bytes limited, hpasses, Bool.and_false]

theorem consume_of_unbound (h : f.Unbound max i) (bytes : Int) :
    f.consume i bytes = f.charge (f.path i) bytes false := by
  rw [consume]
  cases ha : f.get? i with
  | none =>
    rw [path, ha]
    rfl
  | some a =>
    rw [path_of_get? ha]
    exact charge_of_unbound h a.above bytes true

theorem unbound_unlimited (h : f.Unbound max i) : f.unlimited.Unbound max i := by
  intro b hb
  rw [get?_unlimited, Option.map_eq_some_iff] at hb
  obtain ⟨a, ha, rfl⟩ := hb
  have hnone : a.unlimited.limit = -1 := rfl
  exact ⟨(h a ha).passes_freely, (h a ha).max_eq, Or.inl (by omega)⟩

/-- A request at an allocator that no limit binds ends as it does without limits. -/
theorem unlimited_consume (h : f.Unbound max i) (bytes : Int) :
    f.unlimited.consume i bytes = (f.consume i bytes).map (·.unlimited) := by
  rw [consume_of_unbound (unbound_unlimited h), consume_of_unbound h, path_unlimited]
  exact unlimited_charge_free f (f.path i) bytes

theorem unlimited_discharge : ∀ (path : List Nat) (f : Forest) (bytes : Int),
    (f.discharge path bytes).unlimited = f.unlimited.discharge path bytes := by
  intro path
  induction path with
  | nil => exact fun _ _ => rfl
  | cons i rest ih =>
    intro f bytes
    rw [discharge, discharge]
    by_cases hpos : bytes ≤ 0
    · rw [if_pos hpos, if_pos hpos]
    · rw [if_neg hpos, if_neg hpos, get?_unlimited]
      cases f.get? i with
      | none => rfl
      | some a =>
        have hrelief : a.unlimited.relief bytes = a.relief bytes := rfl
        have hclosed : a.unlimited.closed = a.closed := rfl
        simp only [Option.map_some, hclosed, hrelief]
        split
        · rfl
        · rw [ih, unlimited_modify f i (·.giveBack bytes) fun _ => rfl]

theorem unlimited_release (f : Forest) (i : Nat) (bytes : Int) :
    (f.release i bytes).unlimited = f.unlimited.release i bytes := by
  rw [release, unlimited_discharge, release, path_unlimited]

/-- Closing gives back what it gives back without limits. -/
theorem unlimited_shut (f : Forest) (i : Nat) : (f.shut i).1.unlimited = (f.unlimited.shut i).1 := by
  unfold shut
  rw [get?_unlimited]
  cases f.get? i with
  | none => rfl
  | some a =>
    have hclosed : a.unlimited.closed = a.closed := rfl
    simp only [Option.map_some, hclosed]
    split
    · rfl
    · rw [unlimited_discharge, unlimited_modify f i (·.shut) fun _ => rfl]
      rfl

theorem unlimited_drop (f : Forest) (i : Nat) : (f.drop i).1.unlimited = (f.unlimited.drop i).1 := by
  rw [fst_drop, unlimited_modify _ i (fun a => { a with dropped := true }) fun _ => rfl, unlimited_shut,
    fst_drop]

theorem isDropped_unlimited (f : Forest) (i : Nat) : f.unlimited.isDropped i = f.isDropped i := by
  rw [isDropped, get?_unlimited, isDropped]
  cases f.get? i <;> rfl

-- ---------------------------------------------------------------------------
-- What keeps an allocator unbound
-- ---------------------------------------------------------------------------

/-- What decides whether limits bind an allocator. -/
def bounds (a : Allocator) : Bool × Int × Int := (a.obeysLimits, a.max, a.limit)

theorem Unbound.of_bounds (h : f.Unbound max i)
    (hsame : (g.get? i).map bounds = (f.get? i).map bounds) : g.Unbound max i := by
  intro b hb
  rw [hb, Option.map_some, eq_comm, Option.map_eq_some_iff] at hsame
  obtain ⟨a, ha, hab⟩ := hsame
  obtain ⟨hobeys, hmax, hlimit⟩ : a.obeysLimits = b.obeysLimits ∧ a.max = b.max ∧ a.limit = b.limit := by
    simpa [bounds] using hab
  obtain ⟨hpasses, hceiling, hidle⟩ := h a ha
  exact ⟨hobeys ▸ hpasses, hmax ▸ hceiling, hlimit ▸ hidle⟩

theorem Unbound.consume (hl : f.Linked) (h : f.Unbound max i) {j : Nat} {bytes : Int}
    (hg : f.consume j bytes = .ok g) : g.Unbound max i :=
  h.of_bounds (map_get?_charge (fun _ _ => rfl) (hl.climbs_path j) hg i)

theorem Unbound.release (h : f.Unbound max i) (j : Nat) (bytes : Int) :
    (f.release j bytes).Unbound max i :=
  h.of_bounds (map_get?_discharge (fun _ _ => rfl) f (f.path j) bytes i)

theorem Unbound.drop (h : f.Unbound max i) (j : Nat) : (f.drop j).1.Unbound max i := by
  have hshut : ((f.shut j).1.get? i).map bounds = (f.get? i).map bounds :=
    map_get?_shut (fun _ => rfl) (fun _ _ => rfl) f j i
  refine h.of_bounds (Eq.trans ?_ hshut)
  rw [fst_drop]
  refine map_get?_modify _ j ?_ i
  exact fun _ => rfl

/-- Another limit binds no more than the one before, unless it is one below the ceiling of the allocator
itself. -/
theorem Unbound.setLimit (h : f.Unbound max i) {j : Nat} {limit : Int}
    (hidle : j = i → Allocator.IdleLimit max limit) : (f.setLimit j limit).Unbound max i := by
  intro b hb
  rw [Forest.setLimit, get?_modify] at hb
  split at hb
  · next hji =>
    obtain ⟨a, ha, rfl⟩ := Option.map_eq_some_iff.mp hb
    exact ⟨(h a ha).passes_freely, (h a ha).max_eq, hidle hji⟩
  · exact h b hb

end Forest

end FragmentHost

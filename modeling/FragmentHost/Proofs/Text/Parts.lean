import Mathlib.Data.List.Basic

/-!
# Texts made of parts

A text that was put together from two parts with a separator between them is taken apart again if the separator
is in neither of the first parts (`eq_of_append_cons`) or in neither of the last ones (`eq_of_append_cons_last`).
An integer is written with digits and a minus sign alone (`mem_toString`), and different integers are written
differently (`toString_injective`), so that integers are parts of this sort.
-/

namespace FragmentHost.Parts

variable {α : Type}

/-- The first separator tells where the first part ends. -/
theorem eq_of_append_cons {sep : α} {xs ys zs ws : List α} (hxs : sep ∉ xs) (hys : sep ∉ ys)
    (h : xs ++ sep :: zs = ys ++ sep :: ws) : xs = ys ∧ zs = ws := by
  induction xs generalizing ys with
  | nil =>
    cases ys with
    | nil => exact ⟨rfl, (List.cons.inj h).2⟩
    | cons y ys => exact absurd (List.cons.inj h).1 fun hy => hys (hy ▸ List.mem_cons_self ..)
  | cons x xs ih =>
    cases ys with
    | nil => exact absurd (List.cons.inj h).1 fun hx => hxs (hx ▸ List.mem_cons_self ..)
    | cons y ys =>
      obtain ⟨rfl, hrest⟩ := List.cons.inj h
      obtain ⟨rfl, rfl⟩ := ih (fun hx => hxs (List.mem_cons_of_mem _ hx))
        (fun hy => hys (List.mem_cons_of_mem _ hy)) hrest
      exact ⟨rfl, rfl⟩

/-- The last separator tells where the last part begins. -/
theorem eq_of_append_cons_last {sep : α} {xs ys zs ws : List α} (hzs : sep ∉ zs) (hws : sep ∉ ws)
    (h : xs ++ sep :: zs = ys ++ sep :: ws) : xs = ys ∧ zs = ws := by
  have hreverse : zs.reverse ++ sep :: xs.reverse = ws.reverse ++ sep :: ys.reverse := by
    simpa using congrArg List.reverse h
  obtain ⟨hlast, hfirst⟩ := eq_of_append_cons (by simpa using hzs) (by simpa using hws) hreverse
  exact ⟨List.reverse_injective hfirst, List.reverse_injective hlast⟩

-- ---------------------------------------------------------------------------
-- Integers
-- ---------------------------------------------------------------------------

/-- The minus sign comes before the digits of the amount. -/
theorem toList_toString (n : Int) : (toString n).toList =
    if 0 ≤ n then Nat.toDigits 10 n.toNat else '-' :: Nat.toDigits 10 (-n).toNat := by
  rw [show toString n = n.repr from rfl, Int.repr_eq_if]
  split
  · exact Nat.toList_repr
  · rw [String.toList_append, Nat.toList_repr]
    rfl

theorem mem_toString {n : Int} {c : Char} (h : c ∈ (toString n).toList) : c = '-' ∨ c.isDigit = true := by
  have hdigit (m : Nat) (hc : c ∈ Nat.toDigits 10 m) : c.isDigit = true :=
    Nat.isDigit_of_mem_toDigits (by decide) (Nat.le_refl 10) hc
  rw [toList_toString] at h
  split at h
  · exact Or.inr (hdigit _ h)
  · exact (List.mem_cons.mp h).imp_right (hdigit _)

/-- A character that is neither a digit nor the minus sign is in no integer. -/
theorem notMem_toString {c : Char} (hminus : c ≠ '-') (hdigit : c.isDigit = false) (n : Int) :
    c ∉ (toString n).toList := by
  intro h
  rcases mem_toString h with h | h
  · exact hminus h
  · simp [hdigit] at h

theorem toDigits_injective : Function.Injective (Nat.toDigits 10) := by
  intro m n h
  calc
    m = Nat.ofDigitChars 10 (Nat.toDigits 10 m) 0 := Nat.ofDigitChars_ten_toDigits.symm
    _ = Nat.ofDigitChars 10 (Nat.toDigits 10 n) 0 := by rw [h]
    _ = n := Nat.ofDigitChars_ten_toDigits

theorem minus_notMem_toDigits (n : Nat) : '-' ∉ Nat.toDigits 10 n :=
  fun h => absurd (Nat.isDigit_of_mem_toDigits (by decide) (Nat.le_refl 10) h) (by decide)

/-- Different integers are written differently. -/
theorem toString_injective : Function.Injective (toString : Int → String) := by
  intro m n h
  have hlist : (toString m).toList = (toString n).toList := congrArg String.toList h
  rw [toList_toString, toList_toString] at hlist
  split at hlist <;> split at hlist
  · have := toDigits_injective hlist
    omega
  · -- the digits of `m` do not begin with a minus sign
    exact absurd (hlist ▸ List.mem_cons_self ..) (minus_notMem_toDigits m.toNat)
  · exact absurd (hlist ▸ List.mem_cons_self ..) (minus_notMem_toDigits n.toNat)
  · have := toDigits_injective (List.cons.inj hlist).2
    omega

end FragmentHost.Parts

/-!
# Sixty-four bit arithmetic

Amounts of bytes, limits and counters are integers of sixty-four bits. They are kept as `Int`, and the
two ways in which a sum may leave the range have a function each: byte counts in use stop at the largest
word, running totals wrap around.
-/

namespace FragmentHost.Word

/-- The largest signed word. -/
def largest : Int := 9223372036854775807

/-- The smallest signed word. -/
def smallest : Int := -9223372036854775808

/-- `n` is a signed word. -/
def Fits (n : Int) : Prop := smallest ≤ n ∧ n ≤ largest

instance (n : Int) : Decidable (Fits n) := inferInstanceAs (Decidable (_ ∧ _))

/-- Addition that stops at the ends of the range. -/
def saturatingAdd (a b : Int) : Int := max smallest (min largest (a + b))

/-- The signed word that agrees with `n` modulo two to the sixty-fourth. -/
def wrap (n : Int) : Int := n.bmod 18446744073709551616

/-- The unsigned word that agrees with `n` modulo two to the sixty-fourth. -/
def bits (n : Int) : Nat := (n % 18446744073709551616).toNat

theorem fits_wrap (n : Int) : Fits (wrap n) := by
  have h₁ := Int.le_bmod (x := n) (m := 18446744073709551616) (by decide)
  have h₂ := Int.bmod_lt (x := n) (m := 18446744073709551616) (by decide)
  constructor <;> simp only [wrap, smallest, largest] <;> omega

theorem wrap_of_fits {n : Int} (h : Fits n) : wrap n = n := by
  obtain ⟨h₁, h₂⟩ := h
  simp only [smallest, largest] at h₁ h₂
  exact Int.bmod_eq_of_le_mul_two (by omega) (by omega)

theorem wrap_wrap_add (a b : Int) : wrap (wrap a + b) = wrap (a + b) := by
  simp [wrap]

theorem fits_saturatingAdd (a b : Int) : Fits (saturatingAdd a b) := by
  simp only [Fits, saturatingAdd, smallest, largest]
  omega

theorem bits_lt (n : Int) : bits n < 18446744073709551616 := by
  simp only [bits]
  omega

end FragmentHost.Word

import Mathlib.Order.Basic
import Mathlib.Tactic.ByContra
import Mathlib.Tactic.SplitIfs

/-!
# The order of bytes

Texts compare character by character, by the numbers of the characters. Written in UTF-8 they compare byte by
byte, and the two orders are the same (`bytes_lt_iff`): the first byte of a character tells how many bytes it
has, more for larger numbers, and the other bytes are the digits of the number to the base of sixty-four.
-/

namespace FragmentHost.ByteOrder

/-- The bytes of a text in UTF-8. -/
def bytes (s : String) : List UInt8 := s.toUTF8.data.toList

theorem bytes_eq (s : String) : bytes s = s.toList.flatMap String.utf8EncodeChar := by
  rw [bytes, String.toUTF8, ← String.utf8Encode_toList, List.utf8Encode, List.data_toByteArray]

/-- A smaller number has a smaller quotient, or the same one and a smaller remainder. -/
theorem div_lt_or_mod_lt {m n : Nat} (h : m < n) (k : Nat) :
    m / k < n / k ∨ m / k = n / k ∧ m % k < n % k := by
  rcases Nat.lt_or_eq_of_le (Nat.div_le_div_right (c := k) (Nat.le_of_lt h)) with hdiv | hdiv
  · exact Or.inl hdiv
  · have hm := Nat.div_add_mod m k
    have hn := Nat.div_add_mod n k
    rw [hdiv] at hm
    exact Or.inr ⟨hdiv, by omega⟩

/-- The next digit to the base of sixty-four decides if the ones before it do not. -/
theorem digit_lt {m n k : Nat} (h : m / k < n / k) :
    m / (k * 64) < n / (k * 64) ∨ m / (k * 64) = n / (k * 64) ∧ m / k % 64 < n / k % 64 := by
  have hnext := div_lt_or_mod_lt h 64
  rwa [Nat.div_div_eq_div_mul, Nat.div_div_eq_div_mul] at hnext

/-- The bytes of a character come before those of a later one, whatever follows either. -/
theorem utf8EncodeChar_lt {c d : Char} (h : c < d) (xs ys : List UInt8) :
    String.utf8EncodeChar c ++ xs < String.utf8EncodeChar d ++ ys := by
  have hlt : c.val.toNat < d.val.toNat := h
  have hd : d.val.toNat < 0x110000 := by
    have hvalid := d.valid
    simp only [UInt32.isValidChar, Nat.isValidChar] at hvalid
    omega
  unfold String.utf8EncodeChar
  generalize c.val.toNat = m at *
  generalize d.val.toNat = n at *
  have hlast := div_lt_or_mod_lt hlt 64
  have hthird := digit_lt (m := m) (n := n) (k := 64)
  have hsecond := digit_lt (m := m) (n := n) (k := 4096)
  dsimp only
  -- one case for each pair of lengths; the later character does not have the fewer bytes
  split_ifs <;> try omega
  all_goals
    simp only [List.cons_append, List.nil_append, List.cons_lt_cons_iff, UInt8.lt_iff_toNat_lt,
      ← UInt8.toNat_inj, UInt8.toNat_ofNat']
    simp (disch := omega) only [Nat.mod_eq_of_lt]
    omega

theorem flatMap_utf8EncodeChar_lt {cs ds : List Char} (h : cs < ds) :
    cs.flatMap String.utf8EncodeChar < ds.flatMap String.utf8EncodeChar := by
  induction cs generalizing ds with
  | nil =>
    cases ds with
    | nil => exact absurd h (List.lt_irrefl _)
    | cons d ds =>
      obtain ⟨b, bs, hb⟩ := List.exists_cons_of_ne_nil (String.utf8EncodeChar_ne_nil (c := d))
      rw [List.flatMap_cons, hb]
      exact List.nil_lt_cons b _
  | cons c cs ih =>
    cases ds with
    | nil => exact absurd h (List.not_lt_nil _)
    | cons d ds =>
      rw [List.flatMap_cons, List.flatMap_cons]
      rcases List.cons_lt_cons_iff.mp h with hcd | ⟨rfl, hrest⟩
      · exact utf8EncodeChar_lt hcd _ _
      · exact List.append_left_lt (ih hrest)

theorem bytes_lt_of_lt {s t : String} (h : s < t) : bytes s < bytes t := by
  rw [bytes_eq, bytes_eq]
  exact flatMap_utf8EncodeChar_lt (String.lt_iff.mp h)

/-- Texts are in the order of their bytes. -/
theorem bytes_lt_iff {s t : String} : bytes s < bytes t ↔ s < t := by
  refine ⟨fun h => ?_, bytes_lt_of_lt⟩
  by_contra hst
  by_cases heq : t = s
  · exact List.lt_irrefl _ (heq ▸ h)
  · have hts : t < s := Std.lt_of_le_of_ne (String.not_lt.mp hst) heq
    exact List.lt_asymm h (bytes_lt_of_lt hts)

end FragmentHost.ByteOrder

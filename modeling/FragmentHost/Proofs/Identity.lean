import FragmentHost.Identity
import FragmentHost.Proofs.Text.Parts
import Mathlib.Algebra.Order.Ring.Int

/-!
# Texts of identities

The text of a query has five groups of hexadecimal digits, each with the zeros in front that its width asks for:
the two words of the query are cut so that each of their bits is in one group, and none is in two (`digits_eq`).
So the digits without the dashes are the number of the query, and queries and fragments are told apart by their
texts (`spelled_and_told_apart`).
-/

namespace FragmentHost

-- ---------------------------------------------------------------------------
-- Digits of a fixed width
-- ---------------------------------------------------------------------------

namespace Hex

theorem digit_eq_digitChar {d : Nat} (h : d < 16) : digit d = d.digitChar := by
  have hdigit : ∀ d, d < 16 → digit d = d.digitChar := by decide
  exact hdigit d h

theorem digit_mod (n : Nat) : digit (n % 16) = digit n := by
  rw [digit, Nat.mod_mod, digit]

theorem digit_mem_alphabet (n : Nat) : digit n ∈ alphabet := by
  have hdigit : ∀ d, d < 16 → alphabet.getD d '0' ∈ alphabet := by decide
  exact hdigit (n % 16) (Nat.mod_lt _ (by decide))

theorem mem_digits {width n : Nat} {c : Char} (h : c ∈ digits width n) : c ∈ alphabet := by
  induction width generalizing n with
  | zero => simp [digits] at h
  | succ width ih =>
    rcases List.mem_append.mp h with h | h
    · exact ih h
    · exact List.mem_singleton.mp h ▸ digit_mem_alphabet n

theorem digits_zero (width : Nat) : digits width 0 = List.replicate width '0' := by
  induction width with
  | zero => rfl
  | succ width ih => rw [digits, Nat.zero_div, ih, List.replicate_succ']; rfl

/-- The lower digits are those of the number, the upper ones those of what is left of it without them. -/
theorem digits_add (upper lower n : Nat) :
    digits (upper + lower) n = digits upper (n / 16 ^ lower) ++ digits lower n := by
  induction lower generalizing n with
  | zero => simp [digits]
  | succ lower ih =>
    rw [← Nat.add_assoc, digits, ih, digits, List.append_assoc, Nat.div_div_eq_div_mul, Nat.pow_succ']

/-- What is above the width does not show. -/
theorem digits_mod (width n : Nat) : digits width (n % 16 ^ width) = digits width n := by
  induction width generalizing n with
  | zero => rfl
  | succ width ih =>
    have hupper : n % 16 ^ (width + 1) / 16 = n / 16 % 16 ^ width := by
      rw [Nat.pow_succ', Nat.mod_mul_right_div_self]
    have hlast : n % 16 ^ (width + 1) % 16 = n % 16 :=
      Nat.mod_mod_of_dvd n ⟨16 ^ width, Nat.pow_succ'⟩
    rw [digits, digits, hupper, ih, ← digit_mod, hlast, digit_mod]

/-- A number that has room is written in base sixteen, with zeros in front. -/
theorem digits_eq_leftpad {width n : Nat} (hwidth : 0 < width) (h : n < 16 ^ width) :
    digits width n = (Nat.toDigits 16 n).leftpad width '0' := by
  induction width generalizing n with
  | zero => simp at hwidth
  | succ width ih =>
    rcases Nat.lt_or_ge n 16 with hn | hn
    · rw [digits, Nat.div_eq_of_lt hn, digits_zero, digit_eq_digitChar hn, Nat.toDigits_of_lt_base hn]
      rfl
    · have hrest : n / 16 < 16 ^ width := by
        rw [Nat.pow_succ'] at h
        exact Nat.div_lt_of_lt_mul h
      have hpos : 0 < width := by
        rcases Nat.eq_zero_or_pos width with rfl | hpos
        · simp at hrest
          omega
        · exact hpos
      have hlast : digit n = (n % 16).digitChar := by
        rw [← digit_mod, digit_eq_digitChar (Nat.mod_lt n (by decide))]
      rw [digits, ih hpos hrest, hlast, Nat.toDigits_of_base_le (by decide) hn]
      simp [List.leftpad]

end Hex

-- ---------------------------------------------------------------------------
-- Queries
-- ---------------------------------------------------------------------------

namespace QueryId

/-- Both words are words of sixty-four bits. -/
def InWords (q : QueryId) : Prop := Word.Fits q.hi ∧ Word.Fits q.lo

instance (q : QueryId) : Decidable q.InWords := inferInstanceAs (Decidable (_ ∧ _))

/-- A number of at least `width` hexadecimal digits, with zeros in front where it has fewer. -/
def padded (width n : Nat) : List Char := (Nat.toDigits 16 n).leftpad width '0'

/-- The text of a query: what it looks like and what it says. -/
structure Spelled (q : QueryId) : Prop where
  length : q.text.length = 36
  layout : ∀ i c, q.text.toList[i]? = some c →
    if i ∈ [8, 13, 18, 23] then c = '-' else c ∈ "0123456789abcdef".toList
  /-- The upper word in three groups and the lower one in two. -/
  groups : q.text = String.ofList (['-'].intercalate
    [padded 8 (Word.bits q.hi / 2 ^ 32), padded 4 (Word.bits q.hi / 2 ^ 16 % 2 ^ 16),
      padded 4 (Word.bits q.hi % 2 ^ 16), padded 4 (Word.bits q.lo / 2 ^ 48),
      padded 12 (Word.bits q.lo % 2 ^ 48)])
  /-- Without the dashes there are thirty-two digits, and in base sixteen they are both words. -/
  number : ∃ ds n, q.text.toList.filter (· ≠ '-') = ds ∧ ds.length = 32 ∧ Hex.value? ds = some n ∧
    (n : Int) = q.hi % 2 ^ 64 * 2 ^ 64 + q.lo % 2 ^ 64

variable {q r : QueryId}

theorem number_lt (q : QueryId) : q.number < 16 ^ 32 := by
  have hhi := Word.bits_lt q.hi
  have hlo := Word.bits_lt q.lo
  rw [number]
  omega

/-- Digits of a fixed width are those of the number as far as there is room. -/
theorem digits_eq_padded {width : Nat} (hwidth : 0 < width) (n : Nat) :
    Hex.digits width n = padded width (n % 16 ^ width) := by
  rw [← Hex.digits_mod, Hex.digits_eq_leftpad hwidth (Nat.mod_lt _ (Nat.pow_pos (by decide))), padded]

/-- Each bit of the words is in one of the groups. -/
theorem digits_eq (q : QueryId) : q.digits =
    padded 8 (Word.bits q.hi / 2 ^ 32) ++ (padded 4 (Word.bits q.hi / 2 ^ 16 % 2 ^ 16) ++
      (padded 4 (Word.bits q.hi % 2 ^ 16) ++ (padded 4 (Word.bits q.lo / 2 ^ 48) ++
        padded 12 (Word.bits q.lo % 2 ^ 48)))) := by
  have hhi := Word.bits_lt q.hi
  have hlo := Word.bits_lt q.lo
  have hupper : q.number / 16 ^ 16 = Word.bits q.hi := by
    rw [number]
    omega
  have hlower : q.number % 16 ^ 16 = Word.bits q.lo := by
    rw [number]
    omega
  have hfirst : Word.bits q.hi / 16 ^ 8 % 16 ^ 8 = Word.bits q.hi / 2 ^ 32 := by omega
  have hfourth : Word.bits q.lo / 16 ^ 12 % 16 ^ 4 = Word.bits q.lo / 2 ^ 48 := by omega
  have hshort : 16 ^ 4 = 2 ^ 16 := by decide
  have hlong : 16 ^ 12 = 2 ^ 48 := by decide
  calc q.digits
      = Hex.digits 16 (Word.bits q.hi) ++ Hex.digits 16 (Word.bits q.lo) := by
        rw [digits, Hex.digits_add 16 16, hupper, ← Hex.digits_mod 16 q.number, hlower]
    _ = Hex.digits 8 (Word.bits q.hi / 16 ^ 8) ++ (Hex.digits 4 (Word.bits q.hi / 16 ^ 4) ++
          (Hex.digits 4 (Word.bits q.hi) ++
            (Hex.digits 4 (Word.bits q.lo / 16 ^ 12) ++ Hex.digits 12 (Word.bits q.lo)))) := by
        rw [Hex.digits_add 8 8 (Word.bits q.hi), Hex.digits_add 4 4 (Word.bits q.hi),
          Hex.digits_add 4 12 (Word.bits q.lo), List.append_assoc, List.append_assoc]
    _ = _ := by
        rw [digits_eq_padded (by decide), digits_eq_padded (by decide), digits_eq_padded (by decide),
          digits_eq_padded (by decide), digits_eq_padded (by decide), hfirst, hfourth, hshort, hlong]

theorem length_padded {width n : Nat} (hwidth : 0 < width) (h : n < 16 ^ width) :
    (padded width n).length = width := by
  rw [padded, ← Hex.digits_eq_leftpad hwidth h, Hex.length_digits]

theorem dash_notMem_digits (q : QueryId) : '-' ∉ q.digits :=
  fun h => absurd (Hex.mem_digits h) (by decide)

/-- Dashes stand at the places `ds`, and hexadecimal digits at the others. -/
def Layout (ds : List Nat) (text : List Char) : Prop :=
  ∀ i x, text[i]? = some x → if i ∈ ds then x = '-' else x ∈ Hex.alphabet

theorem layout_digits {xs : List Char} (h : ∀ x ∈ xs, x ∈ Hex.alphabet) : Layout [] xs := by
  intro i x hx
  rw [if_neg List.not_mem_nil]
  exact h x (List.mem_of_getElem? hx)

/-- One more group of digits in front, with a dash behind it. -/
theorem Layout.group {ds : List Nat} {xs rest : List Char} {width : Nat} (h : Layout ds rest)
    (hwidth : xs.length = width) (hxs : ∀ x ∈ xs, x ∈ Hex.alphabet) :
    Layout (width :: ds.map (width + 1 + ·)) (xs ++ '-' :: rest) := by
  subst hwidth
  intro i x hx
  rcases Nat.lt_trichotomy i xs.length with hi | hi | hi
  · have hbefore : i ∉ xs.length :: ds.map (xs.length + 1 + ·) := by
      simp only [List.mem_cons, List.mem_map, not_or, not_exists, not_and]
      exact ⟨by omega, fun j _ => by omega⟩
    rw [List.getElem?_append_left hi] at hx
    rw [if_neg hbefore]
    exact hxs x (List.mem_of_getElem? hx)
  · rw [List.getElem?_append_right (Nat.le_of_eq hi.symm), hi, Nat.sub_self] at hx
    rw [if_pos (hi ▸ List.mem_cons_self ..)]
    exact (Option.some.inj hx).symm
  · obtain ⟨j, rfl⟩ : ∃ j, i = xs.length + 1 + j := ⟨i - (xs.length + 1), by omega⟩
    have hne : xs.length + 1 + j ≠ xs.length := by omega
    have hplace : xs.length + 1 + j ∈ xs.length :: ds.map (xs.length + 1 + ·) ↔ j ∈ ds := by simp [hne]
    have hbehind : xs.length + 1 + j - xs.length = j + 1 := by omega
    rw [List.getElem?_append_right (Nat.le_of_lt hi), hbehind, List.getElem?_cons_succ] at hx
    rw [if_congr hplace rfl rfl]
    exact h j x hx

section

variable {a b c d e : List Char} (ha : a.length = 8) (hb : b.length = 4) (hc : c.length = 4)
  (hd : d.length = 4)

include ha hb hc hd

/-- The digits are cut into groups of these lengths. -/
theorem groups_of_digits (h : q.digits = a ++ (b ++ (c ++ (d ++ e)))) :
    q.groups = a ++ '-' :: (b ++ '-' :: (c ++ '-' :: (d ++ '-' :: e))) := by
  have h8 : q.digits.drop 8 = b ++ (c ++ (d ++ e)) := by rw [h, List.drop_left' ha]
  have h12 : q.digits.drop 12 = c ++ (d ++ e) := by
    rw [← List.drop_drop (j := 8) (i := 4), h8, List.drop_left' hb]
  have h16 : q.digits.drop 16 = d ++ e := by
    rw [← List.drop_drop (j := 12) (i := 4), h12, List.drop_left' hc]
  have h20 : q.digits.drop 20 = e := by
    rw [← List.drop_drop (j := 16) (i := 4), h16, List.drop_left' hd]
  have h0 : q.digits.take 8 = a := by rw [h, List.take_left' ha]
  rw [groups, h0, h8, h12, h16, h20, List.take_left' hb, List.take_left' hc, List.take_left' hd]
  simp

/-- Without the dashes the digits are left. -/
theorem filter_groups (h : q.digits = a ++ (b ++ (c ++ (d ++ e)))) :
    q.groups.filter (· ≠ '-') = q.digits := by
  have hdigits : q.digits.filter (· ≠ '-') = q.digits := by
    rw [List.filter_eq_self]
    intro x hx
    have hne : x ≠ '-' := fun hdash => q.dash_notMem_digits (hdash ▸ hx)
    simpa using hne
  have hdash (rest : List Char) : ('-' :: rest).filter (· ≠ '-') = rest.filter (· ≠ '-') :=
    List.filter_cons_of_neg (by simp)
  calc q.groups.filter (· ≠ '-')
      = (a ++ (b ++ (c ++ (d ++ e)))).filter (· ≠ '-') := by
        rw [groups_of_digits ha hb hc hd h]
        simp only [List.filter_append, hdash]
    _ = q.digits := by rw [← h, hdigits]

/-- Dashes stand between the groups and nowhere else. -/
theorem layout_of_groups (hdigits : ∀ x ∈ a ++ (b ++ (c ++ (d ++ e))), x ∈ Hex.alphabet) :
    Layout [8, 13, 18, 23] (a ++ '-' :: (b ++ '-' :: (c ++ '-' :: (d ++ '-' :: e)))) := by
  have hlast : Layout [] e := layout_digits fun x hx => hdigits x (by simp [hx])
  have hfourth : Layout [4] (d ++ '-' :: e) := hlast.group hd fun x hx => hdigits x (by simp [hx])
  have hthird : Layout [4, 9] (c ++ '-' :: (d ++ '-' :: e)) :=
    hfourth.group hc fun x hx => hdigits x (by simp [hx])
  have hsecond : Layout [4, 9, 14] (b ++ '-' :: (c ++ '-' :: (d ++ '-' :: e))) :=
    hthird.group hb fun x hx => hdigits x (by simp [hx])
  exact hsecond.group ha fun x hx => hdigits x (by simp [hx])

end

theorem value_digits (q : QueryId) : Hex.value? q.digits = some q.number := by
  have hlt : q.number < Nat.pow 16 32 := q.number_lt
  rw [digits, Hex.value_digits, Nat.mod_eq_of_lt hlt]

theorem number_eq (q : QueryId) : (q.number : Int) = q.hi % 2 ^ 64 * 2 ^ 64 + q.lo % 2 ^ 64 := by
  simp only [number, Word.bits]
  omega

/-- Both words can be read off the text. -/
theorem spelled (q : QueryId) : q.Spelled := by
  have hhi := Word.bits_lt q.hi
  have hlo := Word.bits_lt q.lo
  have hfirst : (padded 8 (Word.bits q.hi / 2 ^ 32)).length = 8 := length_padded (by decide) (by omega)
  have hsecond : (padded 4 (Word.bits q.hi / 2 ^ 16 % 2 ^ 16)).length = 4 :=
    length_padded (by decide) (by omega)
  have hthird : (padded 4 (Word.bits q.hi % 2 ^ 16)).length = 4 := length_padded (by decide) (by omega)
  have hfourth : (padded 4 (Word.bits q.lo / 2 ^ 48)).length = 4 := length_padded (by decide) (by omega)
  have hdigits := digits_eq q
  have hgroups := groups_of_digits hfirst hsecond hthird hfourth hdigits
  have htext : q.text.toList = q.groups := String.toList_ofList
  constructor
  case length =>
    rw [← String.length_toList, htext, groups]
    simp [digits]
  case layout =>
    rw [htext, hgroups]
    exact layout_of_groups hfirst hsecond hthird hfourth fun x hx => Hex.mem_digits (hdigits ▸ hx)
  case groups =>
    rw [text, hgroups]
    simp [List.intercalate]
  case number =>
    rw [htext, filter_groups hfirst hsecond hthird hfourth hdigits]
    exact ⟨q.digits, q.number, rfl, Hex.length_digits .., q.value_digits, q.number_eq⟩

example : (QueryId.mk 116135542886790518 (-7531368976812794106)).text =
    "019c98a9-3390-7576-977b-33d188ad1f06" := by decide

/-- Words that agree modulo two to the sixty-fourth are the same. -/
theorem eq_of_emod_eq {m n : Int} (hm : Word.Fits m) (hn : Word.Fits n)
    (h : m % 2 ^ 64 = n % 2 ^ 64) : m = n := by
  simp only [Word.Fits, Word.smallest, Word.largest] at hm hn
  omega

/-- Queries with the same text have the same words. -/
theorem text_injective (hq : q.InWords) (hr : r.InWords) (h : q.text = r.text) : q = r := by
  obtain ⟨ds, n, hds, -, hn, hnumber⟩ := q.spelled.number
  obtain ⟨ds', n', hds', -, hn', hnumber'⟩ := r.spelled.number
  obtain rfl : ds = ds' := by rw [← hds, ← hds', h]
  obtain rfl : n = n' := Option.some.inj (hn.symm.trans hn')
  have hwords : q.hi % 2 ^ 64 = r.hi % 2 ^ 64 ∧ q.lo % 2 ^ 64 = r.lo % 2 ^ 64 := by omega
  obtain ⟨hi, lo⟩ := q
  obtain ⟨hi', lo'⟩ := r
  obtain rfl : hi = hi' := eq_of_emod_eq hq.1 hr.1 hwords.1
  obtain rfl : lo = lo' := eq_of_emod_eq hq.2 hr.2 hwords.2
  rfl

theorem colon_notMem_text (q : QueryId) : ':' ∉ q.text.toList := by
  intro h
  obtain ⟨i, hi⟩ := List.mem_iff_getElem?.mp h
  have hlayout := q.spelled.layout i ':' hi
  split at hlayout
  · exact absurd hlayout (by decide)
  · exact absurd hlayout (by decide)

end QueryId

-- ---------------------------------------------------------------------------
-- Fragments
-- ---------------------------------------------------------------------------

namespace FragmentHandle

variable {g h : FragmentHandle}

theorem toList_text (h : FragmentHandle) : h.text.toList = h.query.text.toList ++
    ':' :: ((toString h.major).toList ++ ':' :: (toString h.minor).toList) := by
  simp [text, shortText]

/-- A handle is taken apart at its colons: there is none in a query and none in an integer. -/
theorem text_injective (hg : g.query.InWords) (hh : h.query.InWords) (htext : g.text = h.text) : g = h := by
  have hinteger : ∀ n : Int, ':' ∉ (toString n).toList := Parts.notMem_toString (by decide) (by decide)
  have hlist : g.text.toList = h.text.toList := congrArg String.toList htext
  rw [toList_text, toList_text] at hlist
  obtain ⟨hfirst, hrest⟩ := Parts.eq_of_append_cons g.query.colon_notMem_text h.query.colon_notMem_text hlist
  obtain ⟨hmajor, hminor⟩ := Parts.eq_of_append_cons (hinteger _) (hinteger _) hrest
  obtain ⟨query, major, minor⟩ := g
  obtain ⟨query', major', minor'⟩ := h
  obtain rfl := QueryId.text_injective hg hh (String.toList_injective hfirst)
  obtain rfl := Parts.toString_injective (String.toList_injective hmajor)
  obtain rfl := Parts.toString_injective (String.toList_injective hminor)
  rfl

/-- The text of a query is its number in groups of hexadecimal digits, and neither two queries nor two fragments
have the same text. -/
theorem spelled_and_told_apart (hg : g.query.InWords) (hh : h.query.InWords) :
    g.query.Spelled ∧ (g.query.text = h.query.text ↔ g.query = h.query) ∧ (g.text = h.text ↔ g = h) :=
  ⟨g.query.spelled, ⟨QueryId.text_injective hg hh, congrArg QueryId.text⟩,
    ⟨text_injective hg hh, congrArg text⟩⟩

/-- Negative words, and fragments that differ in the sign of a number. -/
theorem spelled_and_told_apart_negative :
    let g : FragmentHandle := ⟨⟨Word.smallest, -1⟩, -1, 11⟩
    let h : FragmentHandle := ⟨⟨Word.smallest, -1⟩, 1, -11⟩
    g.query.InWords ∧ h.query.InWords ∧ g.query.Spelled ∧
      (g.query.text = h.query.text ↔ g.query = h.query) ∧ (g.text = h.text ↔ g = h) := by
  intro g h
  have hg : g.query.InWords := by decide
  have hh : h.query.InWords := by decide
  exact ⟨hg, hh, spelled_and_told_apart hg hh⟩

end FragmentHandle

end FragmentHost

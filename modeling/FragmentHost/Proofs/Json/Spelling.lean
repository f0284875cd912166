import FragmentHost.Json.Token
import Mathlib.Tactic.IntervalCases

/-!
# Words read back

What is written between quotes or as an integer is one word, and that word says what was written. For a
string it does not matter which characters there are: each one is written as a single piece
(`pieces_escape`), and the pieces join to the characters again (`join?_pieces`). An integer ends where
nothing follows that could go on with it (`number?_integer`).

`Spells` puts words together to a text without blanks. Each word takes a character at least, so that the
search for words goes on long enough to find them all (`Spells.tokens_eq`).
-/

namespace FragmentHost

namespace Json

-- ---------------------------------------------------------------------------
-- Strings
-- ---------------------------------------------------------------------------

/-- What a written character is read as: a unit if it is a control character without a name. -/
def pieceOf (c : Char) : Piece :=
  if c.toNat < 0x20 ∧ c ∉ ['\x08', '\t', '\n', '\x0c', '\r'] then .unit c.toNat else .char c

/-- A character is written by a name after a backslash, by its number, or as itself. -/
theorem escape_cases (c : Char) :
    (∃ s, escape c = ['\\', s] ∧ shortEscape? s = some c ∧ pieceOf c = .char c) ∨
    (escape c = '\\' :: 'u' :: Hex.digits 4 c.toNat ∧ c.toNat < 0x20 ∧ pieceOf c = .unit c.toNat) ∨
    (escape c = [c] ∧ c ≠ '"' ∧ c ≠ '\\' ∧ 0x20 ≤ c.toNat ∧ pieceOf c = .char c) := by
  by_cases hnamed : c ∈ ['"', '\\', '\x08', '\t', '\n', '\x0c', '\r']
  · left
    simp only [List.mem_cons, List.not_mem_nil, or_false] at hnamed
    rcases hnamed with rfl | rfl | rfl | rfl | rfl | rfl | rfl
    all_goals exact ⟨_, rfl, rfl, rfl⟩
  · right
    simp only [List.mem_cons, List.not_mem_nil, or_false, not_or] at hnamed
    obtain ⟨hquote, hslash, hb, ht, hn, hf, hr⟩ := hnamed
    by_cases hcontrol : c.toNat < 0x20
    · simp [escape, pieceOf, hquote, hslash, hb, ht, hn, hf, hr, hcontrol]
    · have hvisible : 0x20 ≤ c.toNat := by omega
      simp [escape, pieceOf, hquote, hslash, hb, ht, hn, hf, hr, hcontrol, hvisible]

theorem value?_digits_four {n : Nat} (h : n < 65536) :
    Hex.value? [Hex.digit (n / 16 / 16 / 16), Hex.digit (n / 16 / 16), Hex.digit (n / 16),
      Hex.digit n] = some n := by
  have hread := Hex.value_digits 4 n
  rw [show Nat.pow 16 4 = 65536 from rfl, Nat.mod_eq_of_lt h] at hread
  exact hread

theorem pieces_named {s c : Char} (hs : shortEscape? s = some c) (rest : List Char) :
    pieces ('\\' :: s :: rest) = (pieces rest).map fun p => (.char c :: p.1, p.2) := by
  have hu : s ≠ 'u' := by
    rintro rfl
    simp [shortEscape?] at hs
  rw [pieces, hs]
  · cases pieces rest <;> rfl
  · simp [hu]

theorem pieces_unit {n : Nat} (h : n < 65536) (rest : List Char) :
    pieces ('\\' :: 'u' :: Hex.digits 4 n ++ rest) =
      (pieces rest).map fun p => (.unit n :: p.1, p.2) := by
  show pieces ('\\' :: 'u' :: Hex.digit (n / 16 / 16 / 16) :: Hex.digit (n / 16 / 16) ::
    Hex.digit (n / 16) :: Hex.digit n :: rest) = _
  rw [pieces, value?_digits_four h]
  cases pieces rest <;> rfl

theorem pieces_plain {c : Char} (hquote : c ≠ '"') (hslash : c ≠ '\\') (hc : 0x20 ≤ c.toNat)
    (rest : List Char) :
    pieces (c :: rest) = (pieces rest).map fun p => (.char c :: p.1, p.2) := by
  rw [pieces, if_neg (by omega)]
  · cases pieces rest <;> rfl
  · exact hquote
  · intro _ _ _ _ _ hc'
    exact absurd hc' hslash
  · intro _ _ hc'
    exact absurd hc' hslash

/-- Each written character is read as one piece. -/
theorem pieces_escape (c : Char) (rest : List Char) :
    pieces (escape c ++ rest) = (pieces rest).map fun p => (pieceOf c :: p.1, p.2) := by
  obtain ⟨s, hescape, hs, hpiece⟩ | ⟨hescape, hc, hpiece⟩ | ⟨hescape, hquote, hslash, hc, hpiece⟩ :=
    escape_cases c
  · rw [hescape, hpiece]
    exact pieces_named hs rest
  · rw [hescape, hpiece]
    exact pieces_unit (by omega) rest
  · rw [hescape, hpiece]
    exact pieces_plain hquote hslash hc rest

theorem pieces_written (s rest : List Char) :
    pieces (s.flatMap escape ++ '"' :: rest) = some (s.map pieceOf, rest) := by
  induction s with
  | nil => rw [List.flatMap_nil, List.nil_append, pieces, List.map_nil]
  | cons c s ih =>
    rw [List.flatMap_cons, List.append_assoc, pieces_escape, ih]
    rfl

/-- A piece joins to its character, whatever comes after it. -/
theorem join?_cons (c : Char) (ps : List Piece) :
    join? (pieceOf c :: ps) = (join? ps).map (c :: ·) := by
  unfold pieceOf
  split
  · next hcontrol =>
    -- a control character is neither half of a pair
    have hleading : isLeading c.toNat = false := by simp [isLeading]; omega
    have htrailing : isTrailing c.toNat = false := by simp [isTrailing]; omega
    have hsame : Char.ofNat c.toNat = c := Char.ofNat_toNat c
    cases ps with
    | nil => simp [join?, hleading, htrailing, hsame]
    | cons p ps => cases p <;> simp [join?, hleading, htrailing, hsame]
  · rfl

theorem join?_pieces (s : List Char) : join? (s.map pieceOf) = some s := by
  induction s with
  | nil => rfl
  | cons c s ih => rw [List.map_cons, join?_cons, ih, Option.map_some]

/-- A quoted text is one word. -/
theorem word?_quote (s : String) (rest : List Char) :
    word? (quote s.toList ++ rest) = some (.string (some s), rest) := by
  have hquote : quote s.toList ++ rest = '"' :: (s.toList.flatMap escape ++ '"' :: rest) := by
    simp [quote]
  rw [hquote, word?, pieces_written]
  simp [join?_pieces]

end Json

-- ---------------------------------------------------------------------------
-- Integers
-- ---------------------------------------------------------------------------

namespace Decimal

/-- The digits with which a number is written. -/
def digitsOf (n : Nat) : List Nat := (Nat.toDigits 10 n).map fun c => c.toNat - '0'.toNat

theorem ofDigits_digitsOf (n : Nat) : ofDigits (digitsOf n) = n := by
  have hread : Nat.ofDigitChars 10 (Nat.toDigits 10 n) 0 = n := Nat.ofDigitChars_ten_toDigits
  rw [Nat.ofDigitChars_eq_foldl] at hread
  rw [ofDigits, digitsOf, List.foldl_map]
  exact hread

/-- An integer as it is written. -/
def Literal.ofInt (n : Int) : Literal where
  negative := n < 0
  whole := digitsOf n.natAbs
  fraction := []
  exponent := none
  hasFraction := false

theorem integer?_ofInt (n : Int) : integer? (.ofInt n) = some n := by
  simp only [integer?, Literal.ofInt, ofDigits_digitsOf, Bool.false_eq_true, if_false,
    decide_eq_true_eq, Option.some.injEq]
  split <;> omega

theorem exists_toDigits_eq_cons (n : Nat) :
    ∃ c cs, Nat.toDigits 10 n = c :: cs ∧ c.isDigit = true := by
  obtain ⟨c, cs, hdigits⟩ := List.exists_cons_of_ne_nil (Nat.toDigits_ne_nil (n := n) (b := 10))
  have hmem : c ∈ Nat.toDigits 10 n := hdigits ▸ List.mem_cons_self ..
  exact ⟨c, cs, hdigits, Nat.isDigit_of_mem_toDigits (by decide) (by decide) hmem⟩

/-- Only zero is written with a zero in front. -/
theorem head_toDigits {n : Nat} (hn : 0 < n) {c : Char} {cs : List Char}
    (h : Nat.toDigits 10 n = c :: cs) : c ≠ '0' := by
  induction n using Nat.strong_induction_on generalizing c cs with
  | _ n ih =>
    rw [Nat.toDigits_eq_if (by decide)] at h
    split at h
    · obtain ⟨rfl, -⟩ := List.cons.inj h
      interval_cases n <;> decide
    · -- the digits of a tenth come first
      obtain ⟨d, ds, hd, -⟩ := exists_toDigits_eq_cons (n / 10)
      rw [hd, List.cons_append] at h
      obtain ⟨rfl, -⟩ := List.cons.inj h
      exact ih (n / 10) (by omega) (by omega) hd

end Decimal

namespace Json

/-- Nothing follows, or something that comes after a value in a list or an object. -/
def Ends (rest : List Char) : Prop := ∀ c, rest.head? = some c → c = ',' ∨ c = ']' ∨ c = '}'

theorem ends_cons {c : Char} (hc : c = ',' ∨ c = ']' ∨ c = '}') (rest : List Char) :
    Ends (c :: rest) := by
  intro d hd
  rw [← Option.some.inj hd]
  exact hc

section

variable {rest : List Char}

theorem digitRun_of_ends (hr : Ends rest) : digitRun rest = ([], rest) := by
  cases rest with
  | nil => rfl
  | cons c rest =>
    obtain rfl | rfl | rfl := hr c rfl <;> rfl

theorem digitRun_append {cs : List Char} (hcs : ∀ c ∈ cs, c.isDigit = true) (hr : Ends rest) :
    digitRun (cs ++ rest) = (cs.map fun c => c.toNat - '0'.toNat, rest) := by
  induction cs with
  | nil => exact digitRun_of_ends hr
  | cons c cs ih =>
    obtain ⟨hc, hcs⟩ := List.forall_mem_cons.mp hcs
    have hvalue : decimalDigit? c = some (c.toNat - '0'.toNat) := by
      rw [Char.isDigit, Bool.and_eq_true, decide_eq_true_eq, decide_eq_true_eq] at hc
      exact if_pos hc
    rw [List.cons_append, digitRun, hvalue, ih hcs]
    rfl

theorem wholePart?_toDigits (n : Nat) (hr : Ends rest) :
    wholePart? (Nat.toDigits 10 n ++ rest) = some (Decimal.digitsOf n, rest) := by
  have hrun : digitRun (Nat.toDigits 10 n ++ rest) = (Decimal.digitsOf n, rest) :=
    digitRun_append (fun c hc => Nat.isDigit_of_mem_toDigits (by decide) (by decide) hc) hr
  rcases Nat.eq_zero_or_pos n with rfl | hn
  · show wholePart? ('0' :: rest) = _
    rw [wholePart?, digitRun_of_ends hr]
    rfl
  · obtain ⟨c, cs, hdigits, -⟩ := Decimal.exists_toDigits_eq_cons n
    rw [hdigits] at hrun ⊢
    rw [wholePart?, hrun, Decimal.digitsOf, hdigits, List.map_cons]
    intro more hmore
    exact Decimal.head_toDigits hn hdigits (List.cons.inj hmore).1

theorem unsigned?_toDigits (negative : Bool) (n : Nat) (hr : Ends rest) :
    unsigned? negative (Nat.toDigits 10 n ++ rest) =
      some (⟨negative, Decimal.digitsOf n, [], none, false⟩, rest) := by
  have hfraction : fractionPart? rest = some ([], rest) := by
    unfold fractionPart?
    split
    · simpa using hr '.' rfl
    · rfl
  have hexponent : exponentPart? rest = some (none, rest) := by
    unfold exponentPart?
    split
    · simpa using hr 'e' rfl
    · simpa using hr 'E' rfl
    · rfl
  rw [unsigned?, wholePart?_toDigits n hr]
  simp [hfraction, hexponent]

theorem number?_toDigits (n : Nat) (hr : Ends rest) :
    number? (Nat.toDigits 10 n ++ rest) =
      some (⟨false, Decimal.digitsOf n, [], none, false⟩, rest) := by
  have hread := unsigned?_toDigits false n hr
  obtain ⟨c, cs, hdigits, hc⟩ := Decimal.exists_toDigits_eq_cons n
  rw [hdigits] at hread ⊢
  rw [number?, hread]
  intro more hminus
  rw [(List.cons.inj hminus).1] at hc
  exact absurd hc (by decide)

/-- An integer is read back in front of what does not go on with it. -/
theorem number?_integer (n : Int) (hr : Ends rest) :
    number? ((toString n).toList ++ rest) = some (.ofInt n, rest) := by
  rw [show toString n = n.repr from rfl, Int.repr_eq_if, Decimal.Literal.ofInt]
  split
  · next hn =>
    rw [Nat.toList_repr, number?_toDigits n.toNat hr, show n.toNat = n.natAbs by omega]
    simp [hn]
  · next hn =>
    have hneg : n < 0 := by omega
    rw [String.toList_append, Nat.toList_repr, show (-n).toNat = n.natAbs by omega]
    show number? ('-' :: (Nat.toDigits 10 n.natAbs ++ rest)) = _
    rw [number?, unsigned?_toDigits true n.natAbs hr]
    simp [hneg]

theorem exists_integer_eq_cons (n : Int) :
    ∃ c cs, (toString n).toList = c :: cs ∧ (c = '-' ∨ c.isDigit = true) := by
  rw [show toString n = n.repr from rfl, Int.repr_eq_if]
  split
  · obtain ⟨c, cs, hdigits, hc⟩ := Decimal.exists_toDigits_eq_cons n.toNat
    exact ⟨c, cs, by rw [Nat.toList_repr, hdigits], .inr hc⟩
  · refine ⟨'-', Nat.toDigits 10 (-n).toNat, ?_, .inl rfl⟩
    rw [String.toList_append, Nat.toList_repr]
    rfl

/-- A word that starts like a number is one. -/
theorem word?_of_numeric {c : Char} (hc : c = '-' ∨ c.isDigit = true) (cs : List Char) :
    word? (c :: cs) = (number? (c :: cs)).map fun p => (.number p.1, p.2) := by
  rw [word?]
  -- none of the other words starts like this
  all_goals
    intro more hmore
    rw [(List.cons.inj hmore).1] at hc
    exact absurd hc (by decide)

end

-- ---------------------------------------------------------------------------
-- Texts
-- ---------------------------------------------------------------------------

/-- The text `cs` has the words `ts`, without a blank in front of any of them. -/
inductive Spells : List Char → List Token → Prop where
  | nil : Spells [] []
  | cons {c : Char} {cs rest : List Char} {t : Token} {ts : List Token} (hc : isSpace c = false)
      (hword : word? (c :: cs) = some (t, rest)) (hless : rest.length ≤ cs.length)
      (hrest : Spells rest ts) : Spells (c :: cs) (t :: ts)

namespace Spells

variable {cs rest : List Char} {ts : List Token}

theorem length_le (h : Spells cs ts) : ts.length ≤ cs.length := by
  induction h with
  | nil => exact le_rfl
  | cons _ _ hless _ ih =>
    rw [List.length_cons, List.length_cons]
    omega

theorem tokensWithin_eq (h : Spells cs ts) {fuel : Nat} (hfuel : ts.length < fuel) :
    tokensWithin fuel cs = some ts := by
  induction h generalizing fuel with
  | nil =>
    obtain ⟨k, rfl⟩ : ∃ k, fuel = k + 1 := ⟨fuel - 1, by rw [List.length_nil] at hfuel; omega⟩
    rfl
  | cons hc hword _ _ ih =>
    rw [List.length_cons] at hfuel
    obtain ⟨k, rfl⟩ : ∃ k, fuel = k + 1 := ⟨fuel - 1, by omega⟩
    rw [tokensWithin, List.dropWhile_cons_of_neg (by simp [hc])]
    dsimp only
    rw [hword]
    dsimp only
    rw [ih (by omega), Option.map_some]

/-- The words of a text are found. -/
theorem tokens_eq (h : Spells cs ts) : tokens cs = some ts :=
  h.tokensWithin_eq (Nat.lt_succ_of_le h.length_le)

theorem comma (h : Spells rest ts) : Spells (',' :: rest) (.comma :: ts) :=
  .cons rfl rfl le_rfl h

theorem quote (s : String) (h : Spells rest ts) :
    Spells (Json.quote s.toList ++ rest) (.string (some s) :: ts) :=
  .cons rfl (word?_quote s rest) (by simp; omega) h

theorem bool (b : Bool) (h : Spells rest ts) :
    Spells ((toString b).toList ++ rest) (.bool b :: ts) := by
  cases b
  · show Spells ('f' :: 'a' :: 'l' :: 's' :: 'e' :: rest) _
    exact .cons rfl rfl (by simp; omega) h
  · show Spells ('t' :: 'r' :: 'u' :: 'e' :: rest) _
    exact .cons rfl rfl (by simp; omega) h

theorem integer (n : Int) (hr : Ends rest) (h : Spells rest ts) :
    Spells ((toString n).toList ++ rest) (.number (.ofInt n) :: ts) := by
  have hread := number?_integer n hr
  obtain ⟨c, cs, hn, hc⟩ := exists_integer_eq_cons n
  rw [hn] at hread ⊢
  have hspace : isSpace c = false := by
    rw [isSpace]
    rcases hc with rfl | hc
    · rfl
    · by_contra hblank
      simp only [Bool.not_eq_false, Bool.or_eq_true, decide_eq_true_eq] at hblank
      rcases hblank with ((rfl | rfl) | rfl) | rfl <;> exact absurd hc (by decide)
  refine .cons hspace ((word?_of_numeric hc (cs ++ rest)).trans ?_) (by simp) h
  rw [← List.cons_append, hread]
  rfl

end Spells

end Json

end FragmentHost

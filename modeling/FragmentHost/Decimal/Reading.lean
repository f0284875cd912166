import FragmentHost.Decimal.Binary64

/-!
# Reading decimals

A decimal literal is read into a double precision number in three steps. The digits are gathered into
one unsigned word; digits for which the word has no room count as zeros before the point and are
ignored after it. The word is rounded to a number. That number is then multiplied or divided by the
power of ten that belongs to it, rounded once more. A result that is too large is refused, one that is
too small is zero.
-/

namespace FragmentHost.Decimal

/-- A decimal literal as its digits. -/
structure Literal where
  negative : Bool
  whole : List Nat
  fraction : List Nat
  /-- The exponent, if one is written: whether it is negative, and its digits. -/
  exponent : Option (Bool × List Nat)
  /-- A point or an exponent is written. -/
  hasFraction : Bool
  deriving DecidableEq, Repr, Inhabited

/-- The number that a list of digits denotes. -/
def ofDigits (ds : List Nat) : Nat := ds.foldl (fun n d => 10 * n + d) 0

/-- The largest unsigned word. -/
def largestWord : Nat := 18446744073709551615

/-- The largest exponent that is taken at its value. -/
def largestExponent : Nat := 2147483647

/-- Gathers digits before the point. The second part counts those for which there was no room. -/
def gatherWhole (word : Nat) : List Nat → Nat × Nat
  | [] => (word, 0)
  | d :: ds =>
    if 10 * word + d ≤ largestWord then gatherWhole (10 * word + d) ds
    else (word, ds.length + 1)

/-- Gathers digits after the point. The second part counts those that were taken. -/
def gatherFraction (word : Nat) : List Nat → Nat × Nat
  | [] => (word, 0)
  | d :: ds =>
    if 10 * word + d ≤ largestWord then
      let (w, n) := gatherFraction (10 * word + d) ds
      (w, n + 1)
    else (word, 0)

/-- The magnitude of a power of ten. -/
def powerOfTen (n : Nat) : Nat := Binary64.nearest (Nat.pow 10 n) 1

/-- The largest power of ten that is a number. -/
def topPower : Nat := 308

/-- `x * 10 ^ e`, with one rounding if `e` is at most `topPower` in size. Smaller powers are reached in
several steps. -/
def scaleByTen : (fuel : Nat) → (x : Nat) → (e : Int) → Option Nat
  | 0, x, _ => some x
  | fuel + 1, x, e =>
    if e.natAbs ≤ topPower then
      if 0 ≤ e then
        let y := Binary64.times x (powerOfTen e.natAbs)
        if y = Binary64.infinity then none else some y
      else some (Binary64.dividedBy x (powerOfTen e.natAbs))
    else if x = 0 then some 0
    -- even one unit times this power is no number
    else if 0 ≤ e then none
    else scaleByTen fuel (Binary64.dividedBy x (powerOfTen topPower)) (e + topPower)

/-- The magnitude of a literal. -/
def magnitude? (l : Literal) : Option Nat :=
  let (whole, surplus) := gatherWhole 0 l.whole
  let (word, taken) := gatherFraction whole l.fraction
  let start : Int := (surplus : Int) - taken
  let x := Binary64.nearest word 1
  match l.exponent with
  | none => if l.hasFraction ∨ 0 < surplus then scaleByTen 8 x start else some x
  | some (down, ds) =>
    let e := ofDigits ds
    -- an exponent of this size outweighs any number of digits
    if largestExponent < e then
      if word ≠ 0 ∧ !down then none else some 0
    else scaleByTen 8 x (if down then start - e else start + e)

/-- The number that a literal denotes, if there is one. -/
def read? (l : Literal) : Option Binary64 :=
  (magnitude? l).map (⟨l.negative, ·⟩)

/-- The integer that a literal denotes, if it is written as one. -/
def integer? (l : Literal) : Option Int :=
  if l.hasFraction then none
  else
    let n : Int := ofDigits l.whole
    some (if l.negative then -n else n)

end FragmentHost.Decimal

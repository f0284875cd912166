import FragmentHost.Decimal.Binary64

/-!
# Shortest decimals

The shortest decimal that reads back as a given double precision number. All decimals between the two
midpoints to the neighbouring numbers read back as the number; a midpoint itself does if the number is
even. For one digit, two digits, and so on up to seventeen, the two decimals around the number are
tried, and the first that reads back wins: of two the closer, of two equally close the even one.
-/

namespace FragmentHost.Decimal

/-- The decimal `digits * 10 ^ exponent`. -/
structure Scientific where
  digits : Nat
  exponent : Int
  deriving DecidableEq, Repr

/-- A quotient of integers, compared by cross multiplication. -/
structure Ratio where
  num : Nat
  den : Nat

namespace Ratio

/-- Strictly less. -/
def lt (a b : Ratio) : Bool := a.num * b.den < b.num * a.den

/-- The quotient `num / den * 2 ^ power`. -/
def scaled (num : Nat) (power : Int) : Ratio :=
  if power < 0 then ⟨num, Nat.pow 2 (-power).toNat⟩ else ⟨num * Nat.pow 2 power.toNat, 1⟩

/-- The quotient times a power of ten. -/
def shift (a : Ratio) (power : Int) : Ratio :=
  if power < 0 then ⟨a.num, a.den * Nat.pow 10 (-power).toNat⟩ else ⟨a.num * Nat.pow 10 power.toNat, a.den⟩

end Ratio

/-- The decimals that read back as one number: from `low` to `high`, both included or neither. -/
structure Interval where
  value : Ratio
  low : Ratio
  high : Ratio
  ends : Bool

namespace Interval

/-- The interval of a positive finite magnitude. Below a power of two the gap is half as wide. -/
def ofMagnitude (magnitude : Nat) : Interval :=
  let m := Binary64.significand magnitude
  let e := Binary64.exponent magnitude
  let narrow := m = 0x10000000000000 ∧ -1074 < e
  { value := .scaled (4 * m) (e - 2)
    low := .scaled (if narrow then 4 * m - 1 else 4 * m - 2) (e - 2)
    high := .scaled (4 * m + 2) (e - 2)
    ends := m % 2 = 0 }

/-- The decimal reads back. -/
def holds (i : Interval) (r : Ratio) : Bool :=
  if i.ends then !r.lt i.low && !i.high.lt r else i.low.lt r && r.lt i.high

end Interval

/-- The decimal exponent of the first digit of a quotient, searched from `guess` upwards. -/
def leadingExponent (value : Ratio) (fuel : Nat) (guess : Int) : Int :=
  match fuel with
  | 0 => guess
  | fuel + 1 =>
    if value.lt (Ratio.shift ⟨1, 1⟩ (guess + 1)) then guess
    else leadingExponent value fuel (guess + 1)

/-- Of the decimals with exponent `e` the one around `i.value` that reads back. -/
def candidate (i : Interval) (e : Int) : Option Nat :=
  let v := i.value.shift (-e)
  let below := v.num / v.den
  let above := below + 1
  let rest := v.num % v.den
  let fits (d : Nat) : Bool := 0 < d && i.holds (Ratio.shift ⟨d, 1⟩ e)
  -- the decimal is the number itself
  if rest = 0 then some below
  else match fits below, fits above with
    | true, true =>
      if 2 * rest < v.den then some below
      else if v.den < 2 * rest then some above
      else if below % 2 = 0 then some below else some above
    | true, false => some below
    | false, true => some above
    | false, false => none

/-- The first number of digits, from `first` on, at which a decimal reads back. -/
def search (i : Interval) (leading : Int) : (fuel : Nat) → (first : Nat) → Scientific
  | 0, first => ⟨0, leading - first⟩
  | fuel + 1, first =>
    let e := leading + 1 - first
    match candidate i e with
    | some d => ⟨d, e⟩
    | none => search i leading fuel (first + 1)

/-- The decimal without the zeros at its end. -/
def trimZeros : (fuel : Nat) → Scientific → Scientific
  | 0, s => s
  | fuel + 1, s =>
    if s.digits ≠ 0 ∧ s.digits % 10 = 0 then trimZeros fuel ⟨s.digits / 10, s.exponent + 1⟩ else s

/-- The shortest decimal of a positive finite magnitude. -/
def shortest (magnitude : Nat) : Scientific :=
  let i := Interval.ofMagnitude magnitude
  trimZeros 20 (search i (leadingExponent i.value 700 (-330)) 17 1)

example : shortest 0x3fb999999999999a = ⟨1, -1⟩ := by decide +kernel
example : shortest 1 = ⟨5, -324⟩ := by decide +kernel
example : shortest 0x3fd3333333333334 = ⟨30000000000000004, -17⟩ := by decide +kernel
example : shortest 0x7fefffffffffffff = ⟨17976931348623157, 292⟩ := by decide +kernel
example : shortest 0x4415af1d78b58c40 = ⟨1, 20⟩ := by decide +kernel

end FragmentHost.Decimal

/-!
# Double precision numbers

Numbers of sixty-four bits: a sign, eleven bits of exponent and fifty-two bits of fraction. The last two
together are the magnitude, whose order is the order of the values. A finite magnitude stands for
`significand * 2 ^ exponent` exactly, and `nearest` is the magnitude closest to a quotient, the even one
of two that are equally close.
-/

namespace FragmentHost

/-- A double precision number: its sign and the sixty-three bits below the sign. -/
structure Binary64 where
  negative : Bool
  magnitude : Nat
  deriving DecidableEq, Repr, Inhabited

namespace Binary64

/-- The first magnitude that is no number: infinity. Larger ones stand for undefined results. -/
def infinity : Nat := 0x7ff0000000000000

/-- The number with these sixty-four bits. -/
def ofBits (bits : Nat) : Binary64 :=
  ⟨bits / 0x8000000000000000 % 2 == 1, bits % 0x8000000000000000⟩

/-- All sixty-four bits. -/
def bits (x : Binary64) : Nat :=
  (if x.negative then 0x8000000000000000 else 0) + x.magnitude

/-- The number is neither infinite nor undefined. -/
def isFinite (x : Binary64) : Bool := x.magnitude < infinity

/-- The integer factor of a finite magnitude. -/
def significand (magnitude : Nat) : Nat :=
  if magnitude / 0x10000000000000 = 0 then magnitude
  else 0x10000000000000 + magnitude % 0x10000000000000

/-- The power of two that goes with the integer factor. -/
def exponent (magnitude : Nat) : Int :=
  if magnitude / 0x10000000000000 = 0 then -1074
  else (magnitude / 0x10000000000000 : Nat) - 1075

/-- The integer nearest to `num / den`; of two that are equally near, the even one. -/
def roundHalfEven (num den : Nat) : Nat :=
  let q := num / den
  let r := num % den
  if den < 2 * r ∨ (2 * r = den ∧ q % 2 = 1) then q + 1 else q

/-- The quotient of `num * 2 ^ -shift` and `den`, as numerator and denominator. -/
def scaled (num den : Nat) (shift : Int) : Nat × Nat :=
  if shift < 0 then (num * Nat.pow 2 (-shift).toNat, den) else (num, den * Nat.pow 2 shift.toNat)

/-- The power of two at which `num / den` has fifty-three digits, but never less than the smallest
power there is. -/
def scale (num den : Nat) : Int :=
  let guess : Int := (Nat.log2 num : Int) - Nat.log2 den - 52
  let (n, d) := scaled num den guess
  max (-1074) (if n / d < 0x10000000000000 then guess - 1 else guess)

/-- The magnitude nearest to `num / den`, infinity if the quotient is too large. -/
def nearest (num den : Nat) : Nat :=
  if num = 0 then 0
  else
    let e := scale num den
    let (n, d) := scaled num den e
    min infinity ((e + 1074).toNat * 0x10000000000000 + roundHalfEven n d)

/-- The magnitude nearest to `num / den * 2 ^ power`. -/
def nearestScaled (num den : Nat) (power : Int) : Nat :=
  let (n, d) := scaled num den (-power)
  nearest n d

/-- The rounded product of two finite magnitudes. -/
def times (a b : Nat) : Nat :=
  nearestScaled (significand a * significand b) 1 (exponent a + exponent b)

/-- The rounded quotient of two finite magnitudes, the second not zero. -/
def dividedBy (a b : Nat) : Nat :=
  nearestScaled (significand a) (significand b) (exponent a - exponent b)

example : nearest 1 1 = 0x3ff0000000000000 := by decide +kernel
example : nearest 1 10 = 0x3fb999999999999a := by decide +kernel
example : nearest 9007199254740993 1 = 0x4340000000000000 := by decide +kernel
example : nearest 1 (Nat.pow 2 1075) = 0 := by decide +kernel
example : nearest 3 (Nat.pow 2 1075) = 2 := by decide +kernel
example : nearest (Nat.pow 2 1024) 1 = infinity := by decide +kernel

end Binary64

end FragmentHost

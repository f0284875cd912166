/-!
# Hexadecimal text

Lower-case digits of a fixed width, most significant first, and the reading of digits back into a
number. `value_digits` ties the two: the digits of `n` at width `w` read back as `n` modulo `16 ^ w`.
-/

namespace FragmentHost.Hex

/-- The sixteen digits in order of value. -/
def alphabet : List Char :=
  ['0', '1', '2', '3', '4', '5', '6', '7', '8', '9', 'a', 'b', 'c', 'd', 'e', 'f']

/-- The digit of the lowest four bits of `n`. -/
def digit (n : Nat) : Char := alphabet.getD (n % 16) '0'

/-- The value of a digit of either case. -/
def digitValue? (c : Char) : Option Nat :=
  if '0' ≤ c ∧ c ≤ '9' then some (c.toNat - '0'.toNat)
  else if 'a' ≤ c ∧ c ≤ 'f' then some (c.toNat - 'a'.toNat + 10)
  else if 'A' ≤ c ∧ c ≤ 'F' then some (c.toNat - 'A'.toNat + 10)
  else none

/-- The lowest `width` digits of `n`, leading zeros kept. -/
def digits : (width : Nat) → (n : Nat) → List Char
  | 0, _ => []
  | width + 1, n => digits width (n / 16) ++ [digit n]

/-- The number that a list of digits denotes in base sixteen. -/
def value? (cs : List Char) : Option Nat :=
  cs.foldl (fun acc c => acc.bind fun n => (digitValue? c).map (16 * n + ·)) (some 0)

/-- The digits of `n` without leading zeros; zero is one digit. -/
def shortest (n : Nat) : List Char :=
  match (digits 16 n).dropWhile (· == '0') with
  | [] => ['0']
  | cs => cs

/-- Bytes as two digits each. -/
def ofBytes (bytes : List UInt8) : String :=
  String.ofList (bytes.flatMap fun b => digits 2 b.toNat)

/-- The bytes that a text of digit pairs denotes. -/
def toBytes? : List Char → Option (List UInt8)
  | [] => some []
  | [_] => none
  | high :: low :: rest => do
    let h ← digitValue? high
    let l ← digitValue? low
    let bytes ← toBytes? rest
    return UInt8.ofNat (16 * h + l) :: bytes

@[simp] theorem length_digits (width n : Nat) : (digits width n).length = width := by
  induction width generalizing n with
  | zero => rfl
  | succ w ih => simp [digits, ih]

theorem digitValue?_digit_of_lt : ∀ d, d < 16 → digitValue? (digit d) = some d := by decide

@[simp] theorem digitValue?_digit (n : Nat) : digitValue? (digit n) = some (n % 16) := by
  have h := digitValue?_digit_of_lt (n % 16) (Nat.mod_lt _ (by decide))
  simpa [digit] using h

theorem value?_append_digit (cs : List Char) (c : Char) :
    value? (cs ++ [c]) = (value? cs).bind fun n => (digitValue? c).map (16 * n + ·) := by
  simp [value?]

/-- Reading what was written gives the number modulo the range of the width. -/
theorem value_digits (width n : Nat) : value? (digits width n) = some (n % Nat.pow 16 width) := by
  induction width generalizing n with
  | zero => simp [digits, value?, Nat.mod_one]
  | succ w ih =>
    rw [digits, value?_append_digit, ih]
    have h : n % Nat.pow 16 (w + 1) = 16 * (n / 16 % Nat.pow 16 w) + n % 16 := by
      show n % (Nat.pow 16 w * 16) = _
      rw [Nat.mul_comm, Nat.mod_mul]
      omega
    rw [h]
    simp

end FragmentHost.Hex

import FragmentHost.Decimal.Reading
import FragmentHost.Toml.Lexical
import FragmentHost.Word

/-!
# Numbers and moments of TOML

Integers of sixty-four bits in four bases, floating point numbers, and dates and times. Underscores may
stand between digits. Only integers keep their value: nothing that is configured takes the others.
-/

namespace FragmentHost.Toml

/-- The value of a digit in some base. -/
def digitIn? (base : Nat) (c : Char) : Option Nat :=
  (Hex.digitValue? c).filter (· < base)

/-- The digits that follow a digit; an underscore must be followed by one more. -/
def moreDigits (base : Nat) : List Char → Option (List Nat × List Char)
  | [] => some ([], [])
  | '_' :: c :: rest =>
    match digitIn? base c with
    | some d => (moreDigits base rest).map fun (ds, r) => (d :: ds, r)
    | none => none
  | ['_'] => none
  | c :: rest =>
    match digitIn? base c with
    | some d => (moreDigits base rest).map fun (ds, r) => (d :: ds, r)
    | none => some ([], c :: rest)

/-- At least one digit. -/
def digits? (base : Nat) : List Char → Option (List Nat × List Char)
  | [] => none
  | c :: rest => do
    let d ← digitIn? base c
    let (ds, rest) ← moreDigits base rest
    return (d :: ds, rest)

/-- The number that a list of digits denotes. -/
def ofDigitsIn (base : Nat) (ds : List Nat) : Nat := ds.foldl (fun n d => base * n + d) 0

/-- A sign, if there is one, and whether it is a minus. -/
def sign : List Char → Bool × List Char
  | '+' :: rest => (false, rest)
  | '-' :: rest => (true, rest)
  | cs => (false, cs)

/-- The digits of a decimal integer: a zero by itself, or digits that do not start with zero. -/
def decimalDigits? (cs : List Char) : Option (List Nat × List Char) :=
  match cs with
  | '0' :: rest => some ([0], rest)
  | _ => digits? 10 cs

/-- An integer that the word has room for. -/
def fitting? (n : Int) : Option Int :=
  if Word.smallest ≤ n ∧ n ≤ Word.largest then some n else none

/-- An integer in some other base, which has no sign. -/
def basedInteger? (base : Nat) (cs : List Char) : Option (Int × List Char) := do
  let (ds, rest) ← digits? base cs
  let n ← fitting? (ofDigitsIn base ds)
  return (n, rest)

/-- An integer. -/
def integer? (cs : List Char) : Option (Int × List Char) :=
  match cs with
  | '0' :: 'x' :: rest => basedInteger? 16 rest
  | '0' :: 'o' :: rest => basedInteger? 8 rest
  | '0' :: 'b' :: rest => basedInteger? 2 rest
  | _ => do
    let (negative, rest) := sign cs
    let (ds, rest) ← decimalDigits? rest
    let n : Int := ofDigitsIn 10 ds
    let n ← fitting? (if negative then -n else n)
    return (n, rest)

/-- The digits after a point, if there is one. -/
def fraction? (cs : List Char) : Option (List Nat × List Char) :=
  match cs with
  | '.' :: rest => digits? 10 rest
  | _ => some ([], cs)

/-- The exponent, if there is one: whether it is negative, and its digits. -/
def exponent? (cs : List Char) : Option (Option (Bool × List Nat) × List Char) :=
  let afterMark (rest : List Char) : Option (Option (Bool × List Nat) × List Char) := do
    let (negative, rest) := sign rest
    let (ds, rest) ← digits? 10 rest
    return (some (negative, ds), rest)
  match cs with
  | 'e' :: rest => afterMark rest
  | 'E' :: rest => afterMark rest
  | _ => some (none, cs)

/-- The decimal is too large for any number. Its first digit decides unless it is near the limit. -/
def isTooLarge (whole fraction : List Nat) (exponent : Option (Bool × List Nat)) : Bool :=
  let ds := (whole ++ fraction).dropWhile (· = 0)
  let power : Int :=
    match exponent with
    | none => 0
    | some (true, es) => -(Decimal.ofDigits es : Int)
    | some (false, es) => Decimal.ofDigits es
  let lowest := power - fraction.length
  let top := lowest + ds.length
  -- the largest number has 309 digits before the point
  if ds.isEmpty ∨ top < 300 then false
  else if 320 < top then true
  else
    let n := Decimal.ofDigits ds
    let x := if lowest < 0 then Binary64.nearest n (Nat.pow 10 (-lowest).toNat)
             else Binary64.nearest (n * Nat.pow 10 lowest.toNat) 1
    x = Binary64.infinity

/-- A floating point number with a point or an exponent. One that is too large is refused unless it is
negative. -/
def decimalFloat? (cs : List Char) : Option (List Char) := do
  let (negative, rest) := sign cs
  let (whole, rest) ← decimalDigits? rest
  let (fraction, rest) ← fraction? rest
  let (exponent, rest) ← exponent? rest
  if fraction.isEmpty && exponent.isNone then none
  else if !negative && isTooLarge whole fraction exponent then none
  else some rest

/-- One of the two names of what is no finite number. -/
def namedFloat? (cs : List Char) : Option (List Char) :=
  match (sign cs).2 with
  | 'i' :: 'n' :: 'f' :: rest => some rest
  | 'n' :: 'a' :: 'n' :: rest => some rest
  | _ => none

/-- A floating point number; only what follows it is kept. -/
def float? (cs : List Char) : Option (List Char) :=
  match decimalFloat? cs with
  | some rest => some rest
  | none => namedFloat? cs

/-- A number of exactly two digits within bounds. -/
def twoDigits? (low high : Nat) : List Char → Option (Nat × List Char)
  | a :: b :: rest => do
    let x ← digitIn? 10 a
    let y ← digitIn? 10 b
    let n := 10 * x + y
    if low ≤ n ∧ n ≤ high then some (n, rest) else none
  | _ => none

/-- The days of a month. -/
def daysOfMonth (year month : Nat) : Nat :=
  if month = 2 then
    if year % 4 = 0 ∧ (year % 100 ≠ 0 ∨ year % 400 = 0) then 29 else 28
  else if month = 4 ∨ month = 6 ∨ month = 9 ∨ month = 11 then 30
  else 31

/-- A date. -/
def date? : List Char → Option (List Char)
  | a :: b :: c :: d :: '-' :: rest => do
    let year ← (([a, b, c, d].mapM (digitIn? 10)).map (ofDigitsIn 10))
    let (month, rest) ← twoDigits? 1 12 rest
    match rest with
    | '-' :: rest =>
      let (_, rest) ← twoDigits? 1 (daysOfMonth year month) rest
      some rest
    | _ => none
  | _ => none

/-- The part of a second, if there is one. -/
def secondFraction? : List Char → Option (List Char)
  | '.' :: rest =>
    match rest.takeWhile Char.isDigit with
    | [] => none
    | _ => some (rest.dropWhile Char.isDigit)
  | cs => some cs

/-- A time of day; a second may be inserted at its end. -/
def timeOfDay? (cs : List Char) : Option (List Char) := do
  let (_, rest) ← twoDigits? 0 23 cs
  match rest with
  | ':' :: rest =>
    let (_, rest) ← twoDigits? 0 59 rest
    match rest with
    | ':' :: rest =>
      let (_, rest) ← twoDigits? 0 60 rest
      secondFraction? rest
    | _ => none
  | _ => none

/-- The distance to universal time, if there is one. -/
def offset? : List Char → Option (List Char)
  | 'Z' :: rest => some rest
  | 'z' :: rest => some rest
  | '+' :: rest => hoursAndMinutes? rest
  | '-' :: rest => hoursAndMinutes? rest
  | cs => some cs
where
  hoursAndMinutes? (cs : List Char) : Option (List Char) := do
    let (_, rest) ← twoDigits? 0 23 cs
    match rest with
    | ':' :: rest => (twoDigits? 0 59 rest).map (·.2)
    | _ => none

/-- A date, a time of day, or both with or without the distance to universal time; only what follows is
kept. -/
def moment? (cs : List Char) : Option (List Char) :=
  match date? cs with
  | none => timeOfDay? cs
  | some rest =>
    match rest with
    | c :: after =>
      if c = 'T' ∨ c = 't' ∨ c = ' ' then
        match timeOfDay? after with
        | some after => offset? after
        | none => some rest
      else some rest
    | [] => some []

end FragmentHost.Toml

import FragmentHost.Decimal.Reading
import FragmentHost.Json.Quoting

/-!
# Tokens of JSON

The words of a JSON text: punctuation, the three names, numbers and strings. Blanks between them are
skipped. Numbers keep their digits, since what they denote depends on where they stand.
-/

namespace FragmentHost.Json

/-- One word of a JSON text. -/
inductive Token where
  | openBrace
  | closeBrace
  | openBracket
  | closeBracket
  | colon
  | comma
  | null
  | bool (b : Bool)
  | number (l : Decimal.Literal)
  /-- A string; there is no text if a unit of it lacks its partner. -/
  | string (text : Option String)
  deriving DecidableEq, Repr

/-- The blanks of JSON: space, tab and the two line breaks. -/
def isSpace (c : Char) : Bool := c = ' ' || c = '\t' || c = '\n' || c = '\r'

/-- The value of a decimal digit. -/
def decimalDigit? (c : Char) : Option Nat :=
  if '0' ≤ c ∧ c ≤ '9' then some (c.toNat - '0'.toNat) else none

/-- The digits at the front, and what follows them. -/
def digitRun : List Char → List Nat × List Char
  | [] => ([], [])
  | c :: rest =>
    match decimalDigit? c with
    | some d => ((d :: (digitRun rest).1), (digitRun rest).2)
    | none => ([], c :: rest)

/-- The digits before the point: a zero by itself, or digits that do not start with zero. -/
def wholePart? (cs : List Char) : Option (List Nat × List Char) :=
  match cs with
  | '0' :: rest =>
    match (digitRun rest).1 with
    | [] => some ([0], rest)
    | _ :: _ => none
  | _ =>
    match digitRun cs with
    | ([], _) => none
    | (ds, rest) => some (ds, rest)

/-- At least one digit. -/
def someDigits? (cs : List Char) : Option (List Nat × List Char) :=
  match digitRun cs with
  | ([], _) => none
  | (ds, rest) => some (ds, rest)

/-- The digits after the point, if there is a point. -/
def fractionPart? (cs : List Char) : Option (List Nat × List Char) :=
  match cs with
  | '.' :: rest => someDigits? rest
  | _ => some ([], cs)

/-- The sign and the digits of the exponent, if there is one. -/
def exponentPart? (cs : List Char) : Option (Option (Bool × List Nat) × List Char) :=
  let afterMark (rest : List Char) : Option (Option (Bool × List Nat) × List Char) :=
    match rest with
    | '+' :: rest => (someDigits? rest).map fun (ds, r) => (some (false, ds), r)
    | '-' :: rest => (someDigits? rest).map fun (ds, r) => (some (true, ds), r)
    | _ => (someDigits? rest).map fun (ds, r) => (some (false, ds), r)
  match cs with
  | 'e' :: rest => afterMark rest
  | 'E' :: rest => afterMark rest
  | _ => some (none, cs)

/-- A number without its sign. -/
def unsigned? (negative : Bool) (cs : List Char) : Option (Decimal.Literal × List Char) := do
  let (whole, rest) ← wholePart? cs
  let (fraction, rest) ← fractionPart? rest
  let (exponent, rest) ← exponentPart? rest
  return ({ negative, whole, fraction, exponent,
            hasFraction := !fraction.isEmpty || exponent.isSome }, rest)

/-- A number at the front of the text. -/
def number? (cs : List Char) : Option (Decimal.Literal × List Char) :=
  match cs with
  | '-' :: rest => unsigned? true rest
  | _ => unsigned? false cs

/-- The word at the front of a text that starts with no blank, and what follows it. -/
def word? (cs : List Char) : Option (Token × List Char) :=
  match cs with
  | '\x7b' :: rest => some (.openBrace, rest)
  | '\x7d' :: rest => some (.closeBrace, rest)
  | '[' :: rest => some (.openBracket, rest)
  | ']' :: rest => some (.closeBracket, rest)
  | ':' :: rest => some (.colon, rest)
  | ',' :: rest => some (.comma, rest)
  | 'n' :: 'u' :: 'l' :: 'l' :: rest => some (.null, rest)
  | 't' :: 'r' :: 'u' :: 'e' :: rest => some (.bool true, rest)
  | 'f' :: 'a' :: 'l' :: 's' :: 'e' :: rest => some (.bool false, rest)
  | '"' :: rest => do
    let (ps, after) ← pieces rest
    return (.string ((join? ps).map String.ofList), after)
  | _ => (number? cs).map fun (l, rest) => (.number l, rest)

/-- The words of a text; `fuel` bounds their number. -/
def tokensWithin : (fuel : Nat) → List Char → Option (List Token)
  | 0, _ => none
  | fuel + 1, cs =>
    match cs.dropWhile isSpace with
    | [] => some []
    | c :: rest =>
      match word? (c :: rest) with
      | none => none
      | some (t, after) => (tokensWithin fuel after).map (t :: ·)

/-- The words of a text, of which there are no more than characters. -/
def tokens (cs : List Char) : Option (List Token) := tokensWithin (cs.length + 1) cs

end FragmentHost.Json

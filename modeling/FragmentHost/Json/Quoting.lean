import FragmentHost.Text.Hex

/-!
# Quoted strings of JSON

A string is written between double quotes. The quote, the backslash and the control characters are
written as escapes. Reading knows more spellings than writing produces: every character may be written
as one unit of sixteen bits or as a pair of them. A unit that lacks its partner is no character, so
that a string with one is well formed and yet denotes no text.
-/

namespace FragmentHost.Json

/-- The written form of one character. -/
def escape (c : Char) : List Char :=
  if c = '"' then ['\\', '"']
  else if c = '\\' then ['\\', '\\']
  else if c = '\x08' then ['\\', 'b']
  else if c = '\t' then ['\\', 't']
  else if c = '\n' then ['\\', 'n']
  else if c = '\x0c' then ['\\', 'f']
  else if c = '\r' then ['\\', 'r']
  else if c.toNat < 0x20 then '\\' :: 'u' :: Hex.digits 4 c.toNat
  else [c]

/-- A text between quotes. -/
def quote (s : List Char) : List Char := '"' :: s.flatMap escape ++ ['"']

/-- What is read at one place of a string: a character, or a unit written by its number. -/
inductive Piece where
  | char (c : Char)
  | unit (n : Nat)
  deriving DecidableEq, Repr

/-- The character that a backslash and `c` stand for. -/
def shortEscape? (c : Char) : Option Char :=
  match c with
  | '"' => some '"'
  | '\\' => some '\\'
  | '/' => some '/'
  | 'b' => some '\x08'
  | 'f' => some '\x0c'
  | 'n' => some '\n'
  | 'r' => some '\r'
  | 't' => some '\t'
  | _ => none

/-- Reads up to the closing quote. The second part is what follows it. -/
def pieces : List Char → Option (List Piece × List Char)
  | [] => none
  | '"' :: rest => some ([], rest)
  | '\\' :: 'u' :: a :: b :: c :: d :: rest => do
    let n ← Hex.value? [a, b, c, d]
    let (ps, after) ← pieces rest
    return (.unit n :: ps, after)
  | '\\' :: c :: rest => do
    let e ← shortEscape? c
    let (ps, after) ← pieces rest
    return (.char e :: ps, after)
  | c :: rest =>
    if c.toNat < 0x20 then none
    else do
      let (ps, after) ← pieces rest
      return (.char c :: ps, after)

/-- The unit is the first of a pair. -/
def isLeading (n : Nat) : Bool := 0xd800 ≤ n && n < 0xdc00

/-- The unit is the second of a pair. -/
def isTrailing (n : Nat) : Bool := 0xdc00 ≤ n && n < 0xe000

/-- The text that the pieces make up, unless a unit lacks its partner. -/
def join? : List Piece → Option (List Char)
  | [] => some []
  | .char c :: rest => (join? rest).map (c :: ·)
  | .unit n :: .unit m :: rest =>
    if isLeading n then
      if isTrailing m then
        (join? rest).map (Char.ofNat (0x10000 + (n - 0xd800) * 0x400 + (m - 0xdc00)) :: ·)
      else none
    else if isTrailing n then none
    else (join? (.unit m :: rest)).map (Char.ofNat n :: ·)
  | .unit n :: rest =>
    if isLeading n || isTrailing n then none else (join? rest).map (Char.ofNat n :: ·)

end FragmentHost.Json

import FragmentHost.Text.Hex

/-!
# Characters, strings and keys of TOML

The parts of a TOML text that have no structure of their own. Every reader takes the characters from
some place on and returns what it read with the characters that follow, or nothing if the text breaks
the rules there.
-/

namespace FragmentHost.Toml

/-- Blanks inside a line. -/
def isSpace (c : Char) : Bool := c = ' ' || c = '\t'

/-- The text without the blanks at its front. -/
def skipSpace (cs : List Char) : List Char := cs.dropWhile isSpace

/-- The end of a line, if the text starts with one. -/
def newline? : List Char → Option (List Char)
  | '\n' :: rest => some rest
  | '\r' :: '\n' :: rest => some rest
  | _ => none

/-- Characters that may stand in comments, and inside quotes unless they have a meaning there. -/
def isPlain (c : Char) : Bool := c = '\t' || (0x20 ≤ c.toNat && c.toNat ≠ 0x7f)

/-- A comment up to the end of its line, if the text starts with one; anything else is left alone. -/
def skipComment : List Char → List Char
  | '#' :: rest => rest.dropWhile isPlain
  | cs => cs

/-- What may follow a value on its line: blanks, a comment, and the end of the line or of the text. -/
def lineEnd? (cs : List Char) : Option (List Char) :=
  match skipComment (skipSpace cs) with
  | [] => some []
  | rest => newline? rest

/-- Skips blanks, line ends and comments, as they may stand between the items of a list. -/
def skipLines : (fuel : Nat) → List Char → List Char
  | 0, cs => cs
  | fuel + 1, cs =>
    match cs with
    | ' ' :: rest => skipLines fuel rest
    | '\t' :: rest => skipLines fuel rest
    | '\n' :: rest => skipLines fuel rest
    | '\r' :: '\n' :: rest => skipLines fuel rest
    | '#' :: rest => skipLines fuel (rest.dropWhile isPlain)
    | _ => cs

/-- The character that a backslash and `c` stand for. -/
def shortEscape? (c : Char) : Option Char :=
  match c with
  | 'b' => some '\x08'
  | 't' => some '\t'
  | 'n' => some '\n'
  | 'f' => some '\x0c'
  | 'r' => some '\r'
  | '"' => some '"'
  | '\\' => some '\\'
  | _ => none

/-- The character with a code point, if it has one. -/
def charOfCode? (n : Nat) : Option Char :=
  if n < 0xd800 ∨ (0xdfff < n ∧ n ≤ 0x10ffff) then some (Char.ofNat n) else none

/-- The character that an escape stands for; the backslash is already read. -/
def escape? : List Char → Option (Char × List Char)
  | 'u' :: a :: b :: c :: d :: rest => do
    let n ← Hex.value? [a, b, c, d]
    let x ← charOfCode? n
    return (x, rest)
  | 'U' :: a :: b :: c :: d :: e :: f :: g :: h :: rest => do
    let n ← Hex.value? [a, b, c, d, e, f, g, h]
    let x ← charOfCode? n
    return (x, rest)
  | c :: rest => (shortEscape? c).map (·, rest)
  | [] => none

/-- The rest of a string between double quotes. -/
def basicBody : (fuel : Nat) → List Char → Option (List Char × List Char)
  | 0, _ => none
  | fuel + 1, cs =>
    match cs with
    | '"' :: rest => some ([], rest)
    | '\\' :: rest => do
      let (c, rest) ← escape? rest
      let (text, rest) ← basicBody fuel rest
      return (c :: text, rest)
    | c :: rest =>
      if isPlain c then (basicBody fuel rest).map fun (text, r) => (c :: text, r) else none
    | [] => none

/-- The rest of a string between single quotes, where nothing is escaped. -/
def literalBody : List Char → Option (List Char × List Char)
  | '\x27' :: rest => some ([], rest)
  | c :: rest =>
    if isPlain c then (literalBody rest).map fun (text, r) => (c :: text, r) else none
  | [] => none

/-- The quotes at the front of the text and their number. -/
def quoteRun (q : Char) (cs : List Char) : Nat := (cs.takeWhile (· = q)).length

/-- The text without the blanks and line ends at its front. A carriage return alone is neither. -/
def skipBlankLines : List Char → List Char
  | '\n' :: rest => skipBlankLines rest
  | '\r' :: '\n' :: rest => skipBlankLines rest
  | c :: rest => if isSpace c then skipBlankLines rest else c :: rest
  | [] => []

/-- A backslash at the end of a line joins it with the next text: the blanks and line ends that follow
are skipped. -/
def joinedLine? (cs : List Char) : Option (List Char) :=
  (newline? (skipSpace cs)).map skipBlankLines

/-- The rest of a string of several lines. Up to two quotes may stand anywhere, also before the three
that end it. A line end is read as one character. -/
def longBody (q : Char) : (fuel : Nat) → List Char → Option (List Char × List Char)
  | 0, _ => none
  | fuel + 1, cs =>
    let quotes := quoteRun q cs
    if 3 ≤ quotes then
      -- the last three of at most five quotes end the string
      let inside := min (quotes - 3) 2
      some (List.replicate inside q, cs.drop (inside + 3))
    else
      match newline? cs with
      | some rest => (longBody q fuel rest).map fun (text, r) => ('\n' :: text, r)
      | none =>
        match cs with
        | [] => none
        | c :: rest =>
          if c = '\\' ∧ q = '"' then
            match joinedLine? rest with
            | some rest => longBody q fuel rest
            | none => do
              let (x, rest) ← escape? rest
              let (text, rest) ← longBody q fuel rest
              return (x :: text, rest)
          else if isPlain c then
            (longBody q fuel rest).map fun (text, r) => (c :: text, r)
          else none

/-- The text without a line end at its front. -/
def dropNewline (cs : List Char) : List Char := (newline? cs).getD cs

/-- A string on one line. -/
def shortString? : List Char → Option (String × List Char)
  | '"' :: rest => (basicBody (rest.length + 1) rest).map fun (s, r) => (String.ofList s, r)
  | '\x27' :: rest => (literalBody rest).map fun (s, r) => (String.ofList s, r)
  | _ => none

/-- A string of either form. -/
def string? (cs : List Char) : Option (String × List Char) :=
  match cs with
  | '"' :: '"' :: '"' :: rest =>
    (longBody '"' (rest.length + 1) (dropNewline rest)).map fun (s, r) => (String.ofList s, r)
  | '\x27' :: '\x27' :: '\x27' :: rest =>
    (longBody '\x27' (rest.length + 1) (dropNewline rest)).map fun (s, r) => (String.ofList s, r)
  | _ => shortString? cs

/-- Characters of keys without quotes. -/
def isKeyChar (c : Char) : Bool := c.isAlphanum || c = '_' || c = '-'

/-- One part of a key. -/
def simpleKey? (cs : List Char) : Option (String × List Char) :=
  match cs with
  | '"' :: _ => shortString? cs
  | '\x27' :: _ => shortString? cs
  | _ =>
    match cs.takeWhile isKeyChar with
    | [] => none
    | name => some (String.ofList name, cs.dropWhile isKeyChar)

/-- The parts of a key with points between them; blanks may surround each part. -/
def keyParts? : (fuel : Nat) → List Char → Option (List String × List Char)
  | 0, _ => none
  | fuel + 1, cs => do
    let (part, rest) ← simpleKey? (skipSpace cs)
    match skipSpace rest with
    | '.' :: rest => (keyParts? fuel rest).map fun (parts, r) => (part :: parts, r)
    | rest => return ([part], rest)

/-- How deep keys and values may be nested. -/
def depthLimit : Nat := 80

/-- A key, whose parts are fewer than the limit of depth. -/
def key? (cs : List Char) : Option (List String × List Char) :=
  (keyParts? (cs.length + 1) cs).filter fun found => found.1.length < depthLimit

end FragmentHost.Toml

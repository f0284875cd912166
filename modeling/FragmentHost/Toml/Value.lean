import FragmentHost.Toml.Number

/-!
# Values of TOML

What may stand behind a key. A table in braces is given on one line; its dotted keys make tables inside
it, which other dotted keys of the same table may extend.
-/

namespace FragmentHost.Toml

/-- A value. Tables have their entries in the order in which the keys first occur. A table made by a
dotted key is open: dotted keys may add to it. -/
inductive Value where
  | string (text : String)
  | integer (n : Int)
  | float
  | bool (b : Bool)
  | moment
  | list (items : List Value)
  | table (isOpen : Bool) (entries : List (String × Value))
  deriving Repr, Inhabited

namespace Value

/-- Adds one entry to the entries of a table in braces. The parts before the last lead through open
tables, which are made where they are missing. -/
def enter (entries : List (String × Value)) (value : Value) :
    (path : List String) → Option (List (String × Value))
  | [] => none
  | [key] =>
    match entries.lookup key with
    | some _ => none
    | none => some (entries ++ [(key, value)])
  | key :: rest =>
    match entries.lookup key with
    | none => (enter [] value rest).map fun inner => entries ++ [(key, .table true inner)]
    | some (.table true inner) =>
      (enter inner value rest).map fun inner =>
        entries.map fun e => if e.1 = key then (key, .table true inner) else e
    | some _ => none

/-- The entries of a table in braces. -/
def collect (pairs : List (List String × Value)) : Option (List (String × Value)) :=
  pairs.foldlM (fun entries p => enter entries p.2 p.1) []

/-- A value that starts with a sign or a digit. -/
def numeric? (cs : List Char) : Option (Value × List Char) :=
  match moment? cs with
  | some rest => some (.moment, rest)
  | none =>
    match float? cs with
    | some rest => some (.float, rest)
    | none => (integer? cs).map fun (n, rest) => (.integer n, rest)

mutual

/-- A value at the front of the text, `depth` lists and tables deep. -/
def read? : (fuel depth : Nat) → List Char → Option (Value × List Char)
  | 0, _, _ => none
  | fuel + 1, depth, cs =>
    match cs with
    | '"' :: _ => (string? cs).map fun (s, rest) => (.string s, rest)
    | '\x27' :: _ => (string? cs).map fun (s, rest) => (.string s, rest)
    | '[' :: rest =>
      if depth + 1 < depthLimit then
        (readItems? fuel (depth + 1) rest).map fun (vs, r) => (.list vs, r)
      else none
    | '\x7b' :: rest =>
      if depth + 1 < depthLimit then do
        let (pairs, rest) ← readPairs? fuel (depth + 1) rest
        let entries ← collect pairs
        return (.table false entries, rest)
      else none
    | 't' :: 'r' :: 'u' :: 'e' :: rest => some (.bool true, rest)
    | 'f' :: 'a' :: 'l' :: 's' :: 'e' :: rest => some (.bool false, rest)
    | c :: _ =>
      if c.isDigit ∨ c = '+' ∨ c = '-' then numeric? cs
      else (namedFloat? cs).map (.float, ·)
    | [] => none

/-- The rest of a list. A comma may stand behind the last item. -/
def readItems? : (fuel depth : Nat) → List Char → Option (List Value × List Char)
  | 0, _, _ => none
  | fuel + 1, depth, cs =>
    match skipLines (cs.length + 1) cs with
    | ']' :: rest => some ([], rest)
    | cs =>
      match read? fuel depth cs with
      | none => none
      | some (v, rest) =>
        match skipLines (rest.length + 1) rest with
        | ']' :: rest => some ([v], rest)
        | ',' :: rest => (readItems? fuel depth rest).map fun (vs, r) => (v :: vs, r)
        | _ => none

/-- The rest of a table in braces. -/
def readPairs? : (fuel depth : Nat) → List Char →
    Option (List (List String × Value) × List Char)
  | 0, _, _ => none
  | fuel + 1, depth, cs =>
    match skipSpace cs with
    | '\x7d' :: rest => some ([], rest)
    | cs => readMorePairs? fuel depth cs

/-- The rest of a table in braces that has at least one more entry. -/
def readMorePairs? : (fuel depth : Nat) → List Char →
    Option (List (List String × Value) × List Char)
  | 0, _, _ => none
  | fuel + 1, depth, cs =>
    match key? cs with
    | some (path, '=' :: rest) =>
      match read? fuel depth (skipSpace rest) with
      | none => none
      | some (v, rest) =>
        match skipSpace rest with
        | '\x7d' :: rest => some ([(path, v)], rest)
        | ',' :: rest => (readMorePairs? fuel depth rest).map fun (ps, r) => ((path, v) :: ps, r)
        | _ => none
    | _ => none

end

end Value

/-- A value at the front of the text. Every step reads a character or is one of two that belong to
one, so that twice the length is fuel enough. -/
def value? (cs : List Char) : Option (Value × List Char) :=
  Value.read? (2 * cs.length + 2) 0 cs

end FragmentHost.Toml

import FragmentHost.Json.Token

/-!
# Values of JSON

The tree that a JSON text denotes. `Value.ofTokens?` is the grammar: a text is one value, and what is
listed in brackets or braces is separated by commas with nothing after the last.
-/

namespace FragmentHost.Json

/-- A value. Objects keep their members in the order in which they are written, repeated names
included; a string or name without text has a unit without its partner. -/
inductive Value where
  | null
  | bool (b : Bool)
  | number (l : Decimal.Literal)
  | string (text : Option String)
  | list (items : List Value)
  | object (members : List (Option String × Value))
  deriving Repr, Inhabited

namespace Value

mutual

/-- One value at the front of the words; `fuel` bounds the depth of the search. -/
def read? : (fuel : Nat) → List Token → Option (Value × List Token)
  | 0, _ => none
  | fuel + 1, ts =>
    match ts with
    | .null :: rest => some (.null, rest)
    | .bool b :: rest => some (.bool b, rest)
    | .number l :: rest => some (.number l, rest)
    | .string s :: rest => some (.string s, rest)
    | .openBracket :: .closeBracket :: rest => some (.list [], rest)
    | .openBracket :: rest => (readItems? fuel rest).map fun (vs, r) => (.list vs, r)
    | .openBrace :: .closeBrace :: rest => some (.object [], rest)
    | .openBrace :: rest => (readMembers? fuel rest).map fun (ms, r) => (.object ms, r)
    | _ => none

/-- The rest of a list, which has at least one more item. -/
def readItems? : (fuel : Nat) → List Token → Option (List Value × List Token)
  | 0, _ => none
  | fuel + 1, ts =>
    match read? fuel ts with
    | some (v, .closeBracket :: rest) => some ([v], rest)
    | some (v, .comma :: rest) => (readItems? fuel rest).map fun (vs, r) => (v :: vs, r)
    | _ => none

/-- The rest of an object, which has at least one more member. -/
def readMembers? :
    (fuel : Nat) → List Token → Option (List (Option String × Value) × List Token)
  | 0, _ => none
  | fuel + 1, ts =>
    match ts with
    | .string k :: .colon :: rest =>
      match read? fuel rest with
      | some (v, .closeBrace :: rest) => some ([(k, v)], rest)
      | some (v, .comma :: rest) =>
        (readMembers? fuel rest).map fun (ms, r) => ((k, v) :: ms, r)
      | _ => none
    | _ => none

end

/-- The value of a whole text. Each step of the search consumes a word or descends into a list or an
object that a word has opened, so that twice the number of words bounds its depth. -/
def ofTokens? (ts : List Token) : Option Value :=
  match read? (2 * ts.length + 1) ts with
  | some (v, []) => some v
  | _ => none

/-- The value that a text denotes. -/
def ofText? (s : String) : Option Value := (tokens s.toList).bind ofTokens?

end Value

end FragmentHost.Json

import FragmentHost.Toml.Value

/-!
# Documents of TOML

A document is a sequence of entries, each on a line of its own, under headers that say in which table
they are. A table may be given once. Tables on the way to another one come into being by themselves and
may still be given later; tables made by dotted keys may only be extended by dotted keys of the same
table. A header in double brackets starts a new table at the end of a list of tables.
-/

namespace FragmentHost.Toml

/-- How a table came into being. -/
inductive Origin where
  /-- Its own header was given. -/
  | given
  /-- It lies on the way to a table whose header was given. -/
  | passed
  /-- A dotted key leads through it. -/
  | dotted
  deriving DecidableEq, Repr, Inhabited

/-- What stands at a key of a document. -/
inductive Node where
  | value (v : Value)
  | table (origin : Origin) (entries : List (String × Node))
  /-- A list of tables, the last one first. -/
  | tables (last : List (String × Node)) (before : List (List (String × Node)))
  deriving Repr, Inhabited

/-- The entries of a table in order. -/
abbrev Entries := List (String × Node)

namespace Entries

/-- Replaces what stands at `key`. -/
def replace (t : Entries) (key : String) (n : Node) : Entries :=
  t.map fun e => if e.1 = key then (key, n) else e

/-- Adds one entry to a table by a key of several parts. The part before the last must name a table made
by dotted keys, those before it may also name tables on the way to others. -/
def enter (t : Entries) (v : Value) : (path : List String) → Option Entries
  | [] => none
  | [key] =>
    match t.lookup key with
    | some _ => none
    | none => some (t ++ [(key, .value v)])
  | key :: rest =>
    match t.lookup key with
    | none => (enter [] v rest).map fun inner => t ++ [(key, .table .dotted inner)]
    | some (.table .dotted inner) =>
      (enter inner v rest).map fun inner => t.replace key (.table .dotted inner)
    -- the table that takes the entry must be one that dotted keys made
    | some (.table .passed inner) =>
      if rest.length = 1 then none
      else (enter inner v rest).map fun inner => t.replace key (.table .passed inner)
    | some (.tables last before) =>
      if rest.length = 1 then none
      else (enter last v rest).map fun inner => t.replace key (.tables inner before)
    | some _ => none

/-- Changes the table that the parts of a header lead to; tables on the way are made where they are
missing, and of a list of tables the last is meant. -/
def descend (t : Entries) (change : Entries → Option Entries) : (path : List String) → Option Entries
  | [] => change t
  | key :: rest =>
    match t.lookup key with
    | none => (descend [] change rest).map fun inner => t ++ [(key, .table .passed inner)]
    | some (.table origin inner) =>
      (descend inner change rest).map fun inner => t.replace key (.table origin inner)
    | some (.tables last before) =>
      (descend last change rest).map fun inner => t.replace key (.tables inner before)
    | some (.value _) => none

/-- Gives the table called `key`, which must not have been given before. -/
def giveTable (key : String) (t : Entries) : Option Entries :=
  match t.lookup key with
  | none => some (t ++ [(key, .table .given [])])
  -- tables below it were given first
  | some (.table .passed inner) => some (t.replace key (.table .given inner))
  | some _ => none

/-- Starts a new table in the list of tables called `key`. -/
def giveTableInList (key : String) (t : Entries) : Option Entries :=
  match t.lookup key with
  | none => some (t ++ [(key, .tables [] [])])
  | some (.tables last before) => some (t.replace key (.tables [] (last :: before)))
  | some _ => none

mutual

/-- What stands at a key as a value. -/
def nodeValue : Node → Value
  | .value v => v
  | .table _ entries => .table false (entriesValue entries)
  | .tables last before =>
    .list ((allValues before).reverse ++ [.table false (entriesValue last)])

/-- The entries of a table as values. -/
def entriesValue : List (String × Node) → List (String × Value)
  | [] => []
  | (key, n) :: rest => (key, nodeValue n) :: entriesValue rest

/-- Several tables as values. -/
def allValues : List (List (String × Node)) → List Value
  | [] => []
  | t :: rest => .table false (entriesValue t) :: allValues rest

end

end Entries

/-- A header: its parts, whether it starts a table of a list, and what follows it. -/
def header? (cs : List Char) : Option ((List String × Bool) × List Char) :=
  match cs with
  | '[' :: '[' :: rest =>
    match key? rest with
    | some (path, ']' :: ']' :: rest) => (lineEnd? rest).map ((path, true), ·)
    | _ => none
  | '[' :: rest =>
    match key? rest with
    | some (path, ']' :: rest) => (lineEnd? rest).map ((path, false), ·)
    | _ => none
  | _ => none

/-- An entry: its key and value, and what follows its line. -/
def entry? (cs : List Char) : Option ((List String × Value) × List Char) :=
  match key? cs with
  | some (path, '=' :: rest) =>
    match value? (skipSpace rest) with
    | some (v, rest) => (lineEnd? rest).map ((path, v), ·)
    | none => none
  | _ => none

/-- Gives the table of a header. -/
def openTable (t : Entries) (path : List String) (inList : Bool) : Option Entries :=
  match path.getLast? with
  | none => none
  | some key =>
    t.descend (if inList then Entries.giveTableInList key else Entries.giveTable key)
      path.dropLast

/-- Reads the lines of a document; `here` is the path of the last header. -/
def lines? : (fuel : Nat) → (here : List String) → (t : Entries) → List Char → Option Entries
  | 0, _, _, _ => none
  | fuel + 1, here, t, cs =>
    match skipSpace cs with
    | [] => some t
    | '#' :: rest =>
      match rest.dropWhile isPlain with
      | [] => some t
      | rest => (newline? rest).bind (lines? fuel here t)
    | '[' :: rest =>
      match header? ('[' :: rest) with
      | none => none
      | some ((path, inList), rest) =>
        (openTable t path inList).bind fun t => lines? fuel path t rest
    | c :: rest =>
      -- an empty line, or else an entry
      match newline? (c :: rest) with
      | some rest => lines? fuel here t rest
      | none =>
        match entry? (c :: rest) with
        | none => none
        | some ((path, v), rest) =>
          (t.descend (·.enter v path) here).bind fun t => lines? fuel here t rest

/-- The entries of a whole document. A mark of byte order may stand at its front. -/
def document? (s : String) : Option (List (String × Value)) :=
  let cs :=
    match s.toList with
    | '\ufeff' :: rest => rest
    | cs => cs
  (lines? (cs.length + 1) [] [] cs).map Entries.entriesValue

end FragmentHost.Toml

import FragmentHost.Text.Hex
import FragmentHost.Text.Quoted
import FragmentHost.Text.Record
import FragmentHost.Word

/-!
# Identities

Queries are numbered by two words, which are shown as one number of thirty-two hexadecimal digits in
groups. A fragment of a query is told apart by its major and minor number, a node by its address and
its three ports.
-/

namespace FragmentHost

/-- The number of a query, as two signed words. -/
structure QueryId where
  hi : Int
  lo : Int
  deriving DecidableEq, Repr, Inhabited

namespace QueryId

/-- Both words as one number of 128 bits. -/
def number (q : QueryId) : Nat := Word.bits q.hi * 18446744073709551616 + Word.bits q.lo

/-- The thirty-two digits of the number. -/
def digits (q : QueryId) : List Char := Hex.digits 32 q.number

/-- The digits in groups of eight, four, four, four and twelve with dashes between. -/
def groups (q : QueryId) : List Char :=
  let ds := q.digits
  ds.take 8 ++ '-' :: (ds.drop 8).take 4 ++ '-' :: (ds.drop 12).take 4 ++
    '-' :: (ds.drop 16).take 4 ++ '-' :: ds.drop 20

/-- The text of the number. -/
def text (q : QueryId) : String := String.ofList q.groups

/-- The description with both words in decimal. -/
def describe (q : QueryId) : String :=
  Record.describe "QueryId" [("hi", toString q.hi), ("lo", toString q.lo)]

end QueryId

/-- One fragment of a query: the query and two numbers of thirty-two bits. -/
structure FragmentHandle where
  query : QueryId
  major : Int
  minor : Int
  deriving DecidableEq, Repr, Inhabited

namespace FragmentHandle

/-- The fragment inside its query. -/
def shortText (h : FragmentHandle) : String := toString h.major ++ ":" ++ toString h.minor

/-- Query and fragment. -/
def text (h : FragmentHandle) : String := h.query.text ++ ":" ++ h.shortText

/-- The description of all three parts. -/
def describe (h : FragmentHandle) : String :=
  Record.describe "FragmentHandle"
    [("query_id", h.query.describe), ("major_fragment_id", toString h.major),
     ("minor_fragment_id", toString h.minor)]

/-- The name under which the fragment takes memory. -/
def ownerText (h : FragmentHandle) : String := "Fragment " ++ h.shortText

end FragmentHandle

/-- A node: its address and the ports for users, control and data. -/
structure Endpoint where
  address : String
  userPort : Nat
  controlPort : Nat
  dataPort : Nat
  deriving DecidableEq, Repr, Inhabited

namespace Endpoint

/-- The place where the node takes data. -/
def text (e : Endpoint) : String := e.address ++ ":" ++ toString e.dataPort

end Endpoint

end FragmentHost

/-!
# Descriptions of records

The one-line description of a record: its name and, in braces, its fields in order.
-/

namespace FragmentHost.Record

/-- `Name { first: a, second: b }`. -/
def describe (name : String) (fields : List (String × String)) : String :=
  let shown := ", ".intercalate (fields.map fun f => f.1 ++ ": " ++ f.2)
  name ++ " \x7b " ++ shown ++ " \x7d"

end FragmentHost.Record

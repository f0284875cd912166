import FragmentHost.Profile.Basic

/-!
# Listings of profiles

A profile as text, each node before its children: a line with its name, a line for each short text in
the order of the keys and a line for each counter. Counters have no order of their own and are sorted by
their names. The lines of a node are indented by its depth.
-/

namespace FragmentHost.Profile

/-- The margin at a depth. -/
def margin (depth : Nat) : String := String.ofList (List.replicate (2 * depth) ' ')

/-- One entry of a node. -/
def entryLine (depth : Nat) (key value : String) : String :=
  margin depth ++ "   - " ++ key ++ ": " ++ value

/-- The lines of a node by itself. -/
def ownLines (depth : Nat) (p : Profile) : List String :=
  (margin depth ++ p.name ++ ":") ::
    (p.infos.map fun e => entryLine depth e.1 e.2) ++
    (p.counters.sorted.map fun e => entryLine depth e.1 e.2.text)

mutual

/-- The lines of a node and of everything below it. -/
def lines (depth : Nat) : Profile → List String
  | node name infos counters children =>
    ownLines depth (node name infos counters children) ++ linesOfAll (depth + 1) children

/-- The lines of several nodes of one depth. -/
def linesOfAll (depth : Nat) : List Profile → List String
  | [] => []
  | p :: rest => lines depth p ++ linesOfAll depth rest

end

/-- The listing, every line ended. -/
def text (p : Profile) : String := String.join ((p.lines 0).map (· ++ "\n"))

end FragmentHost.Profile

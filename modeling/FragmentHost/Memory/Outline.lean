import FragmentHost.Memory.Forest

/-!
# Outlines of allocator trees

What an observer sees of an allocator and of the allocators below it that are still alive.
-/

namespace FragmentHost

/-- An allocator as it stands, with its live children in order. -/
inductive Outline where
  | node (label : String) (current peak : Int) (children : List Outline)
  deriving Repr, Inhabited

namespace Outline

/-- The label of the allocator. -/
def label : Outline → String
  | node label _ _ _ => label

/-- The live children. -/
def children : Outline → List Outline
  | node _ _ _ children => children

/-- The outline down to a depth. -/
def ofForest (f : Forest) : (depth : Nat) → (i : Nat) → Outline
  | 0, i => node (f.label i) (f.current i) (f.peak i) []
  | depth + 1, i =>
    node (f.label i) (f.current i) (f.peak i) ((f.children i).map (ofForest f depth))

end Outline

/-- The outline of allocator `i`. A path has no more allocators than the forest, so that the number of
allocators is depth enough. -/
def Forest.outline (f : Forest) (i : Nat) : Outline := Outline.ofForest f f.nodes.length i

end FragmentHost

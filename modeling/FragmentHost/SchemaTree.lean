import FragmentHost.Dictionary
import FragmentHost.NameSet
import FragmentHost.Text.Split

/-!
# Schema trees

What a session can see of the catalog: schemas inside schemas, each with the names of its tables. Both
kinds of names are kept in order.
-/

namespace FragmentHost

/-- A schema with its tables and the schemas inside it. -/
inductive SchemaTree where
  | node (name : String) (tables : NameSet) (subs : List (String × SchemaTree))
  deriving Repr

namespace SchemaTree

/-- A schema without content. -/
def empty (name : String) : SchemaTree := node name [] []

/-- The tree without any schema. -/
def root : SchemaTree := empty ""

instance : Inhabited SchemaTree := ⟨root⟩

/-- The name of the schema. -/
def name : SchemaTree → String
  | node name _ _ => name

/-- The tables of the schema. -/
def tables : SchemaTree → NameSet
  | node _ tables _ => tables

/-- The schemas inside, each with its name. -/
def subs : SchemaTree → Dictionary SchemaTree
  | node _ _ subs => subs

/-- Changes the schema `name` inside `t`, which is empty if it is new. -/
def modifySub (t : SchemaTree) (name : String) (change : SchemaTree → SchemaTree) : SchemaTree :=
  node t.name t.tables (t.subs.alter name fun s => change (s.getD (empty name)))

/-- Makes the schemas of a path and changes the last of them. -/
def modify (t : SchemaTree) (path : List String) (change : SchemaTree → SchemaTree) : SchemaTree :=
  match path with
  | [] => change t
  | name :: rest => t.modifySub name (modify · rest change)

/-- Adds a table to the schema itself. -/
def addTable (t : SchemaTree) (table : String) : SchemaTree :=
  node t.name (t.tables.insert table) t.subs

/-- Makes the schemas of a path and, if one is given, a table in the last of them. -/
def add (t : SchemaTree) (path : List String) (table : Option String) : SchemaTree :=
  t.modify path fun s => table.elim s s.addTable

/-- The schema at the end of a path. -/
def find? (t : SchemaTree) : (path : List String) → Option SchemaTree
  | [] => some t
  | name :: rest => (t.subs.get? name).bind (find? · rest)

/-- The schema at the end of a dotted path. -/
def resolve? (t : SchemaTree) (path : String) : Option SchemaTree :=
  t.find? (Split.text '.' path)

mutual

/-- Same name, same tables, same schemas inside. -/
def same : SchemaTree → SchemaTree → Bool
  | node n ts ss, node m us rs => n == m && ts == us && sameAll ss rs

/-- The same names with the same schemas, place by place. -/
def sameAll : List (String × SchemaTree) → List (String × SchemaTree) → Bool
  | [], [] => true
  | (n, s) :: ss, (m, r) :: rs => n == m && same s r && sameAll ss rs
  | _, _ => false

end

mutual

theorem eq_of_same : ∀ {s t : SchemaTree}, same s t = true → s = t
  | node n ts ss, node m us rs, h => by
    simp only [same, Bool.and_eq_true, beq_iff_eq] at h
    rw [h.1.1, h.1.2, eq_of_sameAll h.2]

theorem eq_of_sameAll : ∀ {ss rs : List (String × SchemaTree)}, sameAll ss rs = true → ss = rs
  | [], [], _ => rfl
  | [], _ :: _, h => by simp [sameAll] at h
  | _ :: _, [], h => by simp [sameAll] at h
  | (n, s) :: ss, (m, r) :: rs, h => by
    simp only [sameAll, Bool.and_eq_true, beq_iff_eq] at h
    rw [h.1.1, eq_of_same h.1.2, eq_of_sameAll h.2]

end

mutual

theorem same_refl : ∀ s : SchemaTree, same s s = true
  | node n ts ss => by simp [same, sameAll_refl ss]

theorem sameAll_refl : ∀ ss : List (String × SchemaTree), sameAll ss ss = true
  | [] => by simp [sameAll]
  | (n, s) :: ss => by simp [sameAll, same_refl s, sameAll_refl ss]

end

/-- Equality of trees is decided node by node. -/
instance : DecidableEq SchemaTree := fun s t =>
  if h : same s t = true then isTrue (eq_of_same h)
  else isFalse fun e => h (e ▸ same_refl s)

end SchemaTree

end FragmentHost

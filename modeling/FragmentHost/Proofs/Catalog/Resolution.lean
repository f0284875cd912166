import FragmentHost.Proofs.Text.ByteOrder
import FragmentHost.SchemaTree
import Mathlib.Data.List.Induction
import Mathlib.Data.List.Sort

/-!
# Resolution of schemas

A schema tree is a set of registrations: a path is found just if it starts a registered chain
(`isSome_find?_register`), and a schema has the tables that were registered at the end of its chain
(`hasTable_register`). Trees are kept in order (`Proper`), and a tree in order is known by its paths and their
tables (`Proper.ext`). So neither the order of the registrations nor a repetition makes a difference.
-/

namespace FragmentHost

/-- A chain of schemas that is made from the root, and a table that may be added to the last of them. -/
structure Registration where
  path : List String
  table : Option String := none
  deriving DecidableEq, Repr

namespace SchemaTree

/-- The schema `name` inside `t`, empty if it is new. -/
def subOrNew (t : SchemaTree) (name : String) : SchemaTree := (t.subs.get? name).getD (empty name)

/-- The path leads to a schema with this table. -/
def HasTable (t : SchemaTree) (path : List String) (table : String) : Prop :=
  ∃ s, t.find? path = some s ∧ table ∈ s.tables

/-- The tree after registrations, one after the other. -/
def register (rs : List Registration) : SchemaTree := rs.foldl (fun t r => t.add r.path r.table) root

variable {s t : SchemaTree} {name other : String} {path : List String}

-- ---------------------------------------------------------------------------
-- Paths
-- ---------------------------------------------------------------------------

@[simp] theorem name_empty (name : String) : (empty name).name = name := rfl

@[simp] theorem tables_empty (name : String) : (empty name).tables = [] := rfl

@[simp] theorem subs_empty (name : String) : (empty name).subs = [] := rfl

@[simp] theorem find?_nil (t : SchemaTree) : t.find? [] = some t := rfl

theorem find?_cons (t : SchemaTree) (name : String) (rest : List String) :
    t.find? (name :: rest) = (t.subs.get? name).bind (find? · rest) := rfl

theorem find?_cons_of_get? (h : t.subs.get? name = some s) (rest : List String) :
    t.find? (name :: rest) = s.find? rest := by
  rw [find?_cons, h, Option.bind_some]

theorem find?_append (t : SchemaTree) (path rest : List String) :
    t.find? (path ++ rest) = (t.find? path).bind (find? · rest) := by
  induction path generalizing t with
  | nil => rfl
  | cons name path ih => simp only [List.cons_append, find?_cons, Option.bind_assoc, ih]

/-- There is nothing inside a new schema. -/
theorem isSome_find?_subOrNew (t : SchemaTree) (name : String) (rest : List String) :
    ((t.subOrNew name).find? rest).isSome ↔ rest = [] ∨ (t.find? (name :: rest)).isSome := by
  rw [subOrNew, find?_cons]
  cases t.subs.get? name with
  | none => cases rest <;> simp [find?_cons]
  | some s => cases rest <;> simp

theorem hasTable_nil {table : String} : t.HasTable [] table ↔ table ∈ t.tables := by
  simp [HasTable]

theorem hasTable_subOrNew {rest : List String} {table : String} :
    (t.subOrNew name).HasTable rest table ↔ t.HasTable (name :: rest) table := by
  simp only [HasTable, subOrNew, find?_cons]
  cases t.subs.get? name with
  | none => cases rest <;> simp [find?_cons]
  | some s => simp

-- ---------------------------------------------------------------------------
-- Order in a tree
-- ---------------------------------------------------------------------------

/-- The schema itself is in order. -/
structure Tidy (t : SchemaTree) : Prop where
  tables : t.tables.Ordered
  subs : t.subs.Ordered
  /-- What is kept under a name has it. -/
  named : ∀ name s, t.subs.get? name = some s → s.name = name

/-- The schema and all the schemas inside it are in order. -/
def Proper (t : SchemaTree) : Prop := ∀ path s, t.find? path = some s → s.Tidy

theorem Proper.tidy (h : t.Proper) : t.Tidy := h [] t rfl

theorem Proper.sub (h : t.Proper) (hs : t.subs.get? name = some s) : s.Proper :=
  fun path r hr => h (name :: path) r (by rwa [find?_cons_of_get? hs])

/-- A tree is in order if its top is and the schemas inside are. -/
theorem Tidy.proper (h : t.Tidy) (hsubs : ∀ name s, t.subs.get? name = some s → s.Proper) : t.Proper := by
  intro path s hs
  cases path with
  | nil => exact Option.some.inj hs ▸ h
  | cons name rest =>
    rw [find?_cons] at hs
    obtain ⟨r, hr, hs⟩ := Option.bind_eq_some_iff.mp hs
    exact hsubs name r hr rest s hs

theorem proper_empty (name : String) : (empty name).Proper :=
  Tidy.proper ⟨List.Pairwise.nil, List.Pairwise.nil, by simp⟩ (by simp)

theorem Proper.subOrNew (h : t.Proper) (name : String) : (t.subOrNew name).Proper := by
  rw [SchemaTree.subOrNew]
  cases hs : t.subs.get? name with
  | none => exact proper_empty name
  | some s => exact h.sub hs

theorem Proper.name_subOrNew (h : t.Proper) (name : String) : (t.subOrNew name).name = name := by
  rw [SchemaTree.subOrNew]
  cases hs : t.subs.get? name with
  | none => rfl
  | some s => exact h.tidy.named name s hs

/-- The name of a schema is the last one on the way to it. -/
theorem Proper.name_of_find? (h : t.Proper) (hne : path ≠ []) (hs : t.find? path = some s) :
    path.getLast? = some s.name := by
  induction path generalizing t with
  | nil => exact absurd rfl hne
  | cons name rest ih =>
    rw [find?_cons] at hs
    obtain ⟨r, hr, hs⟩ := Option.bind_eq_some_iff.mp hs
    cases rest with
    | nil =>
      obtain rfl : r = s := Option.some.inj hs
      rw [h.tidy.named name r hr, List.getLast?_singleton]
    | cons next rest =>
      rw [List.getLast?_cons_cons]
      exact ih (h.sub hr) (by simp) hs

-- ---------------------------------------------------------------------------
-- One registration
-- ---------------------------------------------------------------------------

theorem add_nil (t : SchemaTree) (table : Option String) : t.add [] table = table.elim t t.addTable := rfl

theorem add_cons (t : SchemaTree) (name : String) (rest : List String) (table : Option String) :
    t.add (name :: rest) table = t.modifySub name (·.add rest table) := rfl

@[simp] theorem name_add (t : SchemaTree) (path : List String) (table : Option String) :
    (t.add path table).name = t.name := by
  cases path with
  | nil => cases table <;> rfl
  | cons name rest => rfl

theorem subs_add_nil (t : SchemaTree) (table : Option String) : (t.add [] table).subs = t.subs := by
  cases table <;> rfl

theorem Tidy.get?_subs_add_cons (h : t.Tidy) (name other : String) (rest : List String)
    (table : Option String) :
    (t.add (name :: rest) table).subs.get? other =
      if other = name then some ((t.subOrNew name).add rest table) else t.subs.get? other :=
  Dictionary.get?_alter h.subs name other _

theorem mem_tables_add_nil {table : Option String} {x : String} :
    x ∈ (t.add [] table).tables ↔ table = some x ∨ x ∈ t.tables := by
  rw [add_nil]
  cases table with
  | none => simp
  | some y => exact NameSet.mem_insert.trans (or_congr_left (by simp [eq_comm]))

/-- A registration keeps the order. -/
theorem Proper.add (h : t.Proper) (path : List String) (table : Option String) :
    (t.add path table).Proper := by
  induction path generalizing t with
  | nil =>
    have ht := h.tidy
    refine Tidy.proper ⟨?_, ?_, ?_⟩ ?_
    · cases table with
      | none => exact ht.tables
      | some y => exact ht.tables.insert y
    · exact subs_add_nil t table ▸ ht.subs
    · exact subs_add_nil t table ▸ ht.named
    · exact subs_add_nil t table ▸ fun name s hs => h.sub hs
  | cons name rest ih =>
    have ht := h.tidy
    refine Tidy.proper ⟨ht.tables, ht.subs.alter name _, fun other s hs => ?_⟩ fun other s hs => ?_
    · rw [ht.get?_subs_add_cons] at hs
      split at hs
      · next hother => rw [← Option.some.inj hs, name_add, h.name_subOrNew, hother]
      · exact ht.named other s hs
    · rw [ht.get?_subs_add_cons] at hs
      split at hs
      · exact Option.some.inj hs ▸ ih (h.subOrNew name)
      · exact h.sub hs

/-- A registration makes the schemas on its chain and no others. -/
theorem Proper.isSome_find?_add (h : t.Proper) (path : List String) (table : Option String)
    (place : List String) :
    ((t.add path table).find? place).isSome ↔ place <+: path ∨ (t.find? place).isSome := by
  induction path generalizing t place with
  | nil =>
    cases place with
    | nil => simp
    | cons other rest => simp [find?_cons, subs_add_nil]
  | cons name path ih =>
    cases place with
    | nil => simp
    | cons other rest =>
      rw [find?_cons, h.tidy.get?_subs_add_cons, List.cons_prefix_cons]
      split
      · next hother =>
        rw [Option.bind_some, ih (h.subOrNew name), isSome_find?_subOrNew, hother]
        -- the new chain starts with every schema that it makes
        by_cases hrest : rest = [] <;> simp [hrest]
      · next hother => simp [find?_cons, hother]

/-- A registration adds its table at the end of its chain and nothing elsewhere. -/
theorem Proper.hasTable_add (h : t.Proper) {path place : List String} {table : Option String} {x : String} :
    (t.add path table).HasTable place x ↔ path = place ∧ table = some x ∨ t.HasTable place x := by
  induction path generalizing t place with
  | nil =>
    cases place with
    | nil => simp [hasTable_nil, mem_tables_add_nil]
    | cons other rest => simp [HasTable, find?_cons, subs_add_nil]
  | cons name path ih =>
    cases place with
    | nil => simp [hasTable_nil, add_cons, modifySub, tables]
    | cons other rest =>
      rw [HasTable, find?_cons, h.tidy.get?_subs_add_cons, List.cons.injEq]
      split
      · next hother =>
        rw [Option.bind_some, ← HasTable, ih (h.subOrNew name), hasTable_subOrNew, hother]
        simp
      · next hother => simp [HasTable, find?_cons, Ne.symm hother]

-- ---------------------------------------------------------------------------
-- Equal trees
-- ---------------------------------------------------------------------------

theorem sizeOf_lt_of_get? (h : t.subs.get? name = some s) : sizeOf s < sizeOf t := by
  obtain ⟨n, tables, subs⟩ := t
  have hmem : (name, s) ∈ subs := by
    obtain ⟨before, after, hsubs, -⟩ := List.lookup_eq_some_iff.mp h
    obtain rfl : subs = before ++ (name, s) :: after := hsubs
    simp
  have hsize := List.sizeOf_lt_of_mem hmem
  simp only [Prod.mk.sizeOf_spec] at hsize
  simp only [node.sizeOf_spec]
  omega

/-- What holds of every schema whose inner schemas have it holds of all. -/
theorem descend {motive : SchemaTree → Prop}
    (h : ∀ t, (∀ name s, t.subs.get? name = some s → motive s) → motive t) (t : SchemaTree) :
    motive t :=
  h t fun _ s hs => have := sizeOf_lt_of_get? hs; descend h s
termination_by sizeOf t

/-- A tree in order is known by its paths and by the tables at their ends. -/
theorem Proper.ext (hs : s.Proper) (ht : t.Proper) (hname : s.name = t.name)
    (hfound : ∀ path, (s.find? path).isSome ↔ (t.find? path).isSome)
    (htables : ∀ path table, s.HasTable path table ↔ t.HasTable path table) : s = t := by
  induction s using descend generalizing t with
  | h s ih =>
    have htop : s.tables = t.tables := by
      refine hs.tidy.tables.eq_of_mem_iff ht.tidy.tables fun x => ?_
      rw [← hasTable_nil, htables, hasTable_nil]
    have hsubs : s.subs = t.subs := by
      refine hs.tidy.subs.ext ht.tidy.subs fun name => ?_
      have hname := hfound [name]
      simp only [find?_cons, find?_nil, Option.bind_fun_some] at hname
      cases hc : s.subs.get? name with
      | none =>
        have hnone : t.subs.get? name = none := by simpa [hc] using hname
        exact hnone.symm
      | some c =>
        obtain ⟨d, hd⟩ := Option.isSome_iff_exists.mp (hname.mp (by rw [hc]; rfl))
        have hcd : c = d := by
          refine ih name c hc (hs.sub hc) (ht.sub hd) ?_ (fun path => ?_) fun path table => ?_
          · rw [hs.tidy.named name c hc, ht.tidy.named name d hd]
          · rw [← find?_cons_of_get? hc, hfound, find?_cons_of_get? hd]
          · simpa only [HasTable, find?_cons_of_get? hc, find?_cons_of_get? hd]
              using htables (name :: path) table
        rw [hd, hcd]
    cases s
    cases t
    simp_all [name, tables, subs]

-- ---------------------------------------------------------------------------
-- Registrations
-- ---------------------------------------------------------------------------

variable {rs qs : List Registration}

theorem register_concat (rs : List Registration) (r : Registration) :
    register (rs ++ [r]) = (register rs).add r.path r.table := by
  simp [register]

theorem proper_register (rs : List Registration) : (register rs).Proper := by
  induction rs using List.reverseRecOn with
  | nil => exact proper_empty ""
  | append_singleton rs r ih => exact register_concat rs r ▸ ih.add r.path r.table

@[simp] theorem name_register (rs : List Registration) : (register rs).name = "" := by
  induction rs using List.reverseRecOn with
  | nil => rfl
  | append_singleton rs r ih => rw [register_concat, name_add, ih]

/-- Just the paths that start a registered chain are found. -/
theorem isSome_find?_register :
    ((register rs).find? path).isSome ↔ path = [] ∨ ∃ r ∈ rs, path <+: r.path := by
  induction rs using List.reverseRecOn with
  | nil => cases path <;> simp [register, root, find?_cons]
  | append_singleton rs r ih =>
    rw [register_concat, (proper_register rs).isSome_find?_add, ih]
    simp only [List.mem_append, List.mem_singleton, or_and_right, exists_or, exists_eq_left]
    exact or_comm.trans or_assoc

theorem hasTable_register {table : String} :
    (register rs).HasTable path table ↔ ⟨path, some table⟩ ∈ rs := by
  induction rs using List.reverseRecOn with
  | nil => cases path <;> simp [register, root, HasTable, find?_cons]
  | append_singleton rs r ih =>
    rw [register_concat, (proper_register rs).hasTable_add, ih, List.mem_append, List.mem_singleton,
      Registration.mk.injEq]
    exact or_comm.trans (or_congr_right (and_congr eq_comm eq_comm))

/-- The registrations that were made, and not their order or number, make the tree. -/
theorem register_congr (h : ∀ r, r ∈ rs ↔ r ∈ qs) : register rs = register qs := by
  refine (proper_register rs).ext (proper_register qs) (by simp) (fun path => ?_) fun path table => ?_
  · simp only [isSome_find?_register, h]
  · rw [hasTable_register, hasTable_register, h]

/-- `s` is the schema that the registrations tell of at the end of `path`. -/
structure Shows (rs : List Registration) (path : List String) (s : SchemaTree) : Prop where
  name : path.getLast? = some s.name
  /-- Inside are the schemas that follow the path in a chain. -/
  subs : ∀ name, name ∈ s.subs.keys ↔ ∃ r ∈ rs, path ++ [name] <+: r.path
  /-- The tables are those added at the end of the very chain. -/
  tables : ∀ table, table ∈ s.tables ↔ ⟨path, some table⟩ ∈ rs
  sortedSubs : (s.subs.keys.map ByteOrder.bytes).Pairwise (· < ·)
  sortedTables : (s.tables.map ByteOrder.bytes).Pairwise (· < ·)

theorem shows_of_find? (hne : path ≠ []) (hs : (register rs).find? path = some s) : Shows rs path s := by
  have hproper := proper_register rs
  have htidy := hproper path s hs
  constructor
  case name => exact hproper.name_of_find? hne hs
  case subs =>
    intro name
    have hnext : (s.subs.get? name).isSome ↔ ((register rs).find? (path ++ [name])).isSome := by
      simp [find?_append, hs, find?_cons]
    rw [Dictionary.mem_keys_iff, hnext, isSome_find?_register]
    simp
  case tables =>
    intro table
    rw [← hasTable_register]
    simp [HasTable, hs]
  case sortedSubs =>
    rw [Dictionary.keys, List.map_map, List.pairwise_map]
    exact htidy.subs.imp ByteOrder.bytes_lt_iff.mpr
  case sortedTables =>
    rw [List.pairwise_map]
    exact htidy.tables.imp ByteOrder.bytes_lt_iff.mpr

/-- The tree of the registrations answers as their set does. -/
structure Resolves (rs : List Registration) : Prop where
  /-- A text leads somewhere just if its parts start a registered chain. -/
  found : ∀ text, ((register rs).resolve? text).isSome ↔ ∃ r ∈ rs, Split.text '.' text <+: r.path
  shown : ∀ text s, (register rs).resolve? text = some s → Shows rs (Split.text '.' text) s
  /-- Names without dots, written with dots between them, lead where they are registered. -/
  reached : ∀ r ∈ rs, ∀ path, path ≠ [] → path <+: r.path → (∀ name ∈ path, '.' ∉ name.toList) →
    ∃ s, (register rs).resolve? (".".intercalate path) = some s ∧ Shows rs path s
  order : ∀ qs, rs.Perm qs → register qs = register rs

/-- Schemas resolve as they were registered, for every sequence of registrations. -/
theorem resolves_register (rs : List Registration) : Resolves rs := by
  constructor
  case found =>
    intro text
    rw [resolve?, isSome_find?_register, or_iff_right (Split.text_ne_nil '.' text)]
  case shown => exact fun text s hs => shows_of_find? (Split.text_ne_nil '.' text) hs
  case reached =>
    intro r hr path hne hpath hdots
    have hfound : ((register rs).find? path).isSome := isSome_find?_register.mpr (Or.inr ⟨r, hr, hpath⟩)
    obtain ⟨s, hs⟩ := Option.isSome_iff_exists.mp hfound
    have hparts : Split.text '.' (".".intercalate path) = path := Split.text_intercalate hne hdots
    exact ⟨s, by rw [resolve?, hparts, hs], shows_of_find? hne hs⟩
  case order => exact fun qs hperm => register_congr fun r => hperm.symm.mem_iff

example :
    (register [⟨["dfs", "tmp"], some "t1"⟩, ⟨["dfs"], some "t0"⟩]).resolve? "dfs.tmp" =
      some (node "tmp" ["t1"] []) := by
  decide

end SchemaTree

end FragmentHost

import FragmentHost.FunctionRegistry
import FragmentHost.Proofs.Distinct

/-!
# Overloads

A registry after any registrations. Under a name it has the signatures that were registered under names with
the same lower-case form, each once and in the order in which they first came (`lookup_registerAll`). So the
list of a name only ever grows at its end, and a call that is resolved once stays resolved to the same
signature (`resolve_registerAll_append`).
-/

namespace FragmentHost.FunctionRegistry

/-- The registry after registrations, one after the other. -/
def registerAll (regs : List FunctionSignature) : FunctionRegistry := regs.foldl register []

/-- What was registered under the name, in whatever case, in order. -/
def registered (regs : List FunctionSignature) (name : String) : List FunctionSignature :=
  regs.filter fun s => key s.name = key name

variable {r : FunctionRegistry} {regs : List FunctionSignature}

-- ---------------------------------------------------------------------------
-- One registration
-- ---------------------------------------------------------------------------

theorem ordered_register (h : Dictionary.Ordered r) (s : FunctionSignature) :
    Dictionary.Ordered (r.register s) :=
  h.alter _ _

/-- A new signature comes last in the list of its name. -/
theorem lookup_register (h : Dictionary.Ordered r) (s : FunctionSignature) (name : String) :
    (r.register s).lookup name =
      r.lookup name ++ if key s.name = key name ∧ s ∉ r.lookup name then [s] else [] := by
  rw [lookup, register, Dictionary.get?_alter h]
  by_cases hkey : key name = key s.name
  · rw [if_pos hkey, ← hkey, Option.getD_some, ← lookup]
    by_cases hs : s ∈ r.lookup name <;> simp [hs]
  · rw [if_neg hkey, ← lookup, if_neg fun hnew => hkey hnew.1.symm, List.append_nil]

theorem mem_keys_register (h : Dictionary.Ordered r) (s : FunctionSignature) {name : String} :
    name ∈ Dictionary.keys (r.register s) ↔ name = key s.name ∨ name ∈ Dictionary.keys r := by
  rw [Dictionary.mem_keys_iff, Dictionary.mem_keys_iff, register, Dictionary.get?_alter h]
  by_cases hkey : name = key s.name <;> simp [hkey]

-- ---------------------------------------------------------------------------
-- Registrations
-- ---------------------------------------------------------------------------

theorem registerAll_concat (regs : List FunctionSignature) (s : FunctionSignature) :
    registerAll (regs ++ [s]) = (registerAll regs).register s := by
  simp [registerAll]

theorem ordered_registerAll (regs : List FunctionSignature) : Dictionary.Ordered (registerAll regs) := by
  induction regs using List.reverseRecOn with
  | nil => exact List.Pairwise.nil
  | append_singleton regs s ih => exact registerAll_concat regs s ▸ ordered_register ih s

theorem registered_append (regs later : List FunctionSignature) (name : String) :
    registered (regs ++ later) name = registered regs name ++ registered later name :=
  List.filter_append regs later

theorem lookup_registerAll (regs : List FunctionSignature) (name : String) :
    (registerAll regs).lookup name = (registered regs name).eraseDups := by
  induction regs using List.reverseRecOn with
  | nil => rfl
  | append_singleton regs s ih =>
    rw [registerAll_concat, lookup_register (ordered_registerAll regs), ih, registered_append]
    by_cases hkey : key s.name = key name
    · have hlast : registered [s] name = [s] := by simp [registered, hkey]
      rw [hlast, eraseDups_concat]
      by_cases hs : s ∈ registered regs name <;> simp [hkey, hs]
    · simp [registered, hkey]

/-- The keys are the lower-case forms of the names. -/
theorem mem_keys_registerAll {name : String} :
    name ∈ Dictionary.keys (registerAll regs) ↔ name ∈ regs.map (key ·.name) := by
  induction regs using List.reverseRecOn with
  | nil => rfl
  | append_singleton regs s ih =>
    rw [registerAll_concat, mem_keys_register (ordered_registerAll regs), ih]
    simp [or_comm]

theorem size_registerAll (regs : List FunctionSignature) :
    (registerAll regs).size = (regs.map (key ·.name)).toFinset.card :=
  (ordered_registerAll regs).length_eq_card fun _ => mem_keys_registerAll

/-- Later registrations come after the earlier ones. -/
theorem lookup_registerAll_append (regs later : List FunctionSignature) (name : String) :
    ∃ more, (registerAll (regs ++ later)).lookup name = (registerAll regs).lookup name ++ more := by
  rw [lookup_registerAll, lookup_registerAll, registered_append, List.eraseDups_append]
  exact ⟨_, rfl⟩

theorem resolve_registerAll_append {name : String} {arguments : List String} {s : FunctionSignature}
    (h : (registerAll regs).resolve name arguments = some s) (later : List FunctionSignature) :
    (registerAll (regs ++ later)).resolve name arguments = some s := by
  obtain ⟨more, hmore⟩ := lookup_registerAll_append regs later name
  rw [resolve] at h
  rw [resolve, hmore, List.find?_append, h, Option.some_or]

-- ---------------------------------------------------------------------------
-- Answers
-- ---------------------------------------------------------------------------

/-- A registry answers as the registrations before it tell. -/
structure Answers (regs : List FunctionSignature) : Prop where
  lookup : ∀ name, (registerAll regs).lookup name = (registered regs name).eraseDups
  distinct : ∀ name, ((registerAll regs).lookup name).Nodup
  size : (registerAll regs).size = (regs.map (key ·.name)).toFinset.card
  /-- A call is resolved to the first overload with its types. -/
  resolved : ∀ name arguments s, (registerAll regs).resolve name arguments = some s ↔
    s.arguments = arguments ∧ ∃ before after, (registerAll regs).lookup name = before ++ s :: after ∧
      ∀ o ∈ before, o.arguments ≠ arguments
  unresolved : ∀ name arguments, (registerAll regs).resolve name arguments = none ↔
    ∀ s ∈ (registerAll regs).lookup name, s.arguments ≠ arguments
  stays : ∀ name arguments s, (registerAll regs).resolve name arguments = some s →
    ∀ later, (registerAll (regs ++ later)).resolve name arguments = some s

/-- A registry answers as its registrations tell, for every sequence of them. -/
theorem answers_registerAll (regs : List FunctionSignature) : Answers regs := by
  constructor
  case lookup => exact lookup_registerAll regs
  case distinct => exact fun name => lookup_registerAll regs name ▸ nodup_eraseDups _
  case size => exact size_registerAll regs
  case resolved =>
    intro name arguments s
    rw [resolve, List.find?_eq_some_iff_append]
    simp
  case unresolved =>
    intro name arguments
    rw [resolve, List.find?_eq_none]
    simp
  case stays => exact fun name arguments s hs later => resolve_registerAll_append hs later

example :
    (registerAll [⟨"ABS", ["INT"], "INT"⟩, ⟨"abs", ["DOUBLE"], "DOUBLE"⟩]).resolve "Abs" ["DOUBLE"] =
      some ⟨"abs", ["DOUBLE"], "DOUBLE"⟩ := by
  decide +kernel

end FragmentHost.FunctionRegistry

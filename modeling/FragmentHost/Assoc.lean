/-!
# Associations

An association holds a value for each of its keys and has no order of its own. It is kept as a list of
entries in which a new key comes last, so that the list tells in which order the keys came; whoever shows
the entries sorts them first (`sorted`). Writing goes through one single-pass operation, `alter`, as with a
`Dictionary`.
-/

namespace FragmentHost

/-- Entries of different keys, in no particular order. -/
abbrev Assoc (β : Type) := List (String × β)

namespace Assoc

variable {β : Type}

/-- Replaces the value at `key` by `f` of what was there; a new key comes last. -/
def alter (key : String) (f : Option β → β) : Assoc β → Assoc β
  | [] => [(key, f none)]
  | (k, v) :: rest => if key = k then (k, f (some v)) :: rest else (k, v) :: alter key f rest

/-- The value at `key`. -/
def get? (m : Assoc β) (key : String) : Option β := m.lookup key

/-- The keys in the order in which they came. -/
def keys (m : Assoc β) : List String := m.map (·.1)

/-- No key has two entries. -/
def Distinct (m : Assoc β) : Prop := m.keys.Nodup

/-- The entry `a` may stand before `b`. Text compares by code point, which is also the order of its
bytes. -/
def keyLe (a b : String × β) : Bool := decide (a.1 ≤ b.1)

/-- The entries in the order of their keys. -/
def sorted (m : Assoc β) : List (String × β) := m.mergeSort keyLe

@[simp] theorem get?_nil (key : String) : get? ([] : Assoc β) key = none := rfl

theorem get?_cons (e : String × β) (m : Assoc β) (key : String) :
    get? (e :: m) key = if key == e.1 then some e.2 else get? m key := by
  obtain ⟨k, v⟩ := e
  simp only [get?, List.lookup_cons]
  cases key == k <;> rfl

/-- What was written is read. -/
theorem get?_alter_self (m : Assoc β) (key : String) (f : Option β → β) :
    get? (alter key f m) key = some (f (get? m key)) := by
  induction m with
  | nil => simp [alter, get?_cons]
  | cons e rest ih =>
    simp only [alter]
    split
    · next hk => simp [get?_cons, hk]
    · next hk => simpa [get?_cons, hk] using ih

/-- Writing at one key leaves the others alone. -/
theorem get?_alter_of_ne {key other : String} (h : other ≠ key) (m : Assoc β) (f : Option β → β) :
    get? (alter key f m) other = get? m other := by
  induction m with
  | nil => simp [alter, get?_cons, h]
  | cons e rest ih =>
    simp only [alter]
    split
    · next hk => simp [get?_cons, ← hk, h]
    · rw [get?_cons, get?_cons, ih]

theorem get?_alter (m : Assoc β) (key other : String) (f : Option β → β) :
    get? (alter key f m) other = if other = key then some (f (get? m key)) else get? m other := by
  split
  · next hkey => rw [hkey, get?_alter_self]
  · next hne => exact get?_alter_of_ne hne m f

/-- The keys are where a value is found. -/
theorem mem_keys_iff {m : Assoc β} {key : String} : key ∈ keys m ↔ (get? m key).isSome = true := by
  induction m with
  | nil => simp [keys]
  | cons e rest ih =>
    rw [get?_cons, keys, List.map_cons, List.mem_cons, ← keys, ih]
    by_cases hkey : key = e.1 <;> simp [hkey]

/-- A new key comes last, and no key is lost. -/
theorem keys_alter (m : Assoc β) (key : String) (f : Option β → β) :
    keys (alter key f m) = if key ∈ keys m then keys m else keys m ++ [key] := by
  induction m with
  | nil => rfl
  | cons e rest ih =>
    simp only [alter, keys, List.map_cons, List.mem_cons]
    by_cases hk : key = e.1
    · simp [hk]
    · rw [if_neg hk, List.map_cons, ← keys, ih, ← keys]
      by_cases hmem : key ∈ keys rest <;> simp [hk, hmem]

/-- Writing makes no second entry. -/
theorem Distinct.alter {m : Assoc β} (h : Distinct m) (key : String) (f : Option β → β) :
    Distinct (alter key f m) := by
  rw [Distinct, keys_alter]
  split
  · exact h
  · next hnew =>
    rw [List.nodup_append]
    exact ⟨h, by simp, fun a ha b hb hab => hnew (by simp_all)⟩

/-- The entries are what is found. -/
theorem Distinct.mem_iff {m : Assoc β} (h : Distinct m) {key : String} {value : β} :
    (key, value) ∈ m ↔ get? m key = some value := by
  induction m with
  | nil => simp
  | cons e rest ih =>
    obtain ⟨hhead, hrest⟩ := List.nodup_cons.mp h
    rw [get?_cons, List.mem_cons]
    by_cases hkey : key = e.1
    · -- the key is not found again in the rest
      have hnone : (e.1, value) ∉ rest :=
        fun hmem => hhead (List.mem_map.mpr ⟨_, hmem, rfl⟩)
      simp [hnone, hkey, Prod.ext_iff, eq_comm]
    · have hne : (key, value) ≠ e := fun heq => hkey (congrArg Prod.fst heq)
      simp [hne, hkey, ih hrest]

/-- Sorting shows the same entries. -/
theorem mem_sorted {m : Assoc β} {e : String × β} : e ∈ m.sorted ↔ e ∈ m := by
  rw [sorted, List.mem_mergeSort]

/-- The keys of the sorted entries rise strictly. -/
theorem Distinct.pairwise_sorted {m : Assoc β} (h : Distinct m) :
    m.sorted.Pairwise fun a b => a.1 < b.1 := by
  have hle : m.sorted.Pairwise fun a b => keyLe a b = true := by
    refine List.pairwise_mergeSort (fun a b c hab hbc => ?_) (fun a b => ?_) m
    · exact decide_eq_true (String.le_trans (of_decide_eq_true hab) (of_decide_eq_true hbc))
    · simpa [keyLe] using String.le_total a.1 b.1
  have hne : m.sorted.Pairwise fun a b => a.1 ≠ b.1 := by
    have hkeys : (m.sorted.map (·.1)).Nodup := ((List.mergeSort_perm m _).map _).nodup_iff.mpr h
    exact List.pairwise_map.mp hkeys
  refine (hle.and hne).imp fun hab => ?_
  exact Std.lt_of_le_of_ne (of_decide_eq_true hab.1) hab.2

end Assoc

end FragmentHost

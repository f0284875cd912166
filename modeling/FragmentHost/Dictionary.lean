/-!
# Dictionaries

A dictionary is a list of entries in strictly rising order of their keys. Text compares by code point,
which is also the order of its bytes. Writing goes through one single-pass operation, `alter`, so that
an entry is found again without any assumption on the rest: `lookup_alter_self`, `lookup_alter_of_ne`.
-/

namespace FragmentHost

/-- Entries in rising order of their keys. -/
abbrev Dictionary (β : Type) := List (String × β)

namespace Dictionary

variable {β : Type}

/-- Replaces the value at `key` by `f` of what was there; a new key goes to its place in the order. -/
def alter (key : String) (f : Option β → β) : Dictionary β → Dictionary β
  | [] => [(key, f none)]
  | (k, v) :: rest =>
    if key = k then (k, f (some v)) :: rest
    else if key < k then (key, f none) :: (k, v) :: rest
    else (k, v) :: alter key f rest

/-- Sets the value at `key`. -/
def put (d : Dictionary β) (key : String) (value : β) : Dictionary β :=
  d.alter key fun _ => value

/-- The value at `key`. -/
def get? (d : Dictionary β) (key : String) : Option β := d.lookup key

/-- Forgets `key`. -/
def remove (d : Dictionary β) (key : String) : Dictionary β := d.filter (·.1 ≠ key)

/-- The keys in rising order. -/
def keys (d : Dictionary β) : List String := d.map (·.1)

/-- The values in the order of their keys. -/
def values (d : Dictionary β) : List β := d.map (·.2)

/-- Keys rise strictly, so that each occurs once. -/
def Ordered (d : Dictionary β) : Prop := d.Pairwise fun a b => a.1 < b.1

@[simp] theorem get?_nil (key : String) : get? ([] : Dictionary β) key = none := rfl

theorem get?_cons (e : String × β) (d : Dictionary β) (key : String) :
    get? (e :: d) key = if key == e.1 then some e.2 else get? d key := by
  obtain ⟨k, v⟩ := e
  simp only [get?, List.lookup_cons]
  cases key == k <;> rfl

theorem alter_cons_self (key : String) (f : Option β → β) (v : β) (rest : Dictionary β) :
    alter key f ((key, v) :: rest) = (key, f (some v)) :: rest := by
  rw [alter, if_pos rfl]

theorem mem_alter {key : String} {f : Option β → β} {d : Dictionary β} {e : String × β}
    (h : e ∈ alter key f d) : e.1 = key ∨ e ∈ d := by
  induction d with
  | nil => simp_all [alter]
  | cons x rest ih =>
    simp only [alter] at h
    split at h
    · rcases List.mem_cons.mp h with rfl | h
      · exact Or.inl (by simp_all)
      · exact Or.inr (List.mem_cons_of_mem _ h)
    · split at h
      · rcases List.mem_cons.mp h with rfl | h
        · exact Or.inl rfl
        · exact Or.inr h
      · rcases List.mem_cons.mp h with rfl | h
        · exact Or.inr (by simp)
        · exact (ih h).imp_right (List.mem_cons_of_mem _)

/-- Writing keeps the order. -/
theorem Ordered.alter {d : Dictionary β} (h : Ordered d) (key : String) (f : Option β → β) :
    Ordered (alter key f d) := by
  induction d with
  | nil => simp [Dictionary.alter, Ordered]
  | cons x rest ih =>
    obtain ⟨hx, hrest⟩ := List.pairwise_cons.mp h
    simp only [Dictionary.alter]
    split
    · next hk => subst hk; exact List.pairwise_cons.mpr ⟨hx, hrest⟩
    · split
      · next hlt =>
        refine List.pairwise_cons.mpr ⟨fun e he => ?_, h⟩
        rcases List.mem_cons.mp he with rfl | he
        · exact hlt
        · exact String.lt_trans hlt (hx e he)
      · next hne hlt =>
        refine List.pairwise_cons.mpr ⟨fun e he => ?_, ih hrest⟩
        rcases mem_alter he with hk | he
        · rw [hk]
          exact Std.lt_of_le_of_ne (String.not_lt.mp hlt) (fun h => hne h.symm)
        · exact hx e he

theorem get?_eq_none_of_lt {d : Dictionary β} {key : String} (h : ∀ e ∈ d, key < e.1) :
    get? d key = none := by
  induction d with
  | nil => rfl
  | cons x rest ih =>
    have hx := h x (by simp)
    have hne : (key == x.1) = false := by
      simpa using fun hk : key = x.1 => String.lt_irrefl _ (hk ▸ hx)
    rw [get?_cons, hne]
    exact ih fun e he => h e (List.mem_cons_of_mem _ he)

/-- What was written is read. -/
theorem get?_alter_self {d : Dictionary β} (h : Ordered d) (key : String) (f : Option β → β) :
    get? (alter key f d) key = some (f (get? d key)) := by
  induction d with
  | nil => simp [alter, get?_cons]
  | cons x rest ih =>
    obtain ⟨hx, hrest⟩ := List.pairwise_cons.mp h
    simp only [alter]
    split
    · next hk => subst hk; simp [get?_cons]
    · next hne =>
      have hk : (key == x.1) = false := by simpa using hne
      split
      · next hlt =>
        have hnone : get? rest key = none :=
          get?_eq_none_of_lt fun e he => String.lt_trans hlt (hx e he)
        simp [get?_cons, hk, hnone]
      · simpa [get?_cons, hk] using ih hrest

/-- Writing at one key leaves the others alone. -/
theorem get?_alter_of_ne {d : Dictionary β} {key other : String} (h : other ≠ key)
    (f : Option β → β) : get? (alter key f d) other = get? d other := by
  have hb : (other == key) = false := by simpa using h
  induction d with
  | nil => simp [alter, get?_cons, hb]
  | cons x rest ih =>
    simp only [alter]
    split
    · next hk => subst hk; simp [get?_cons, hb]
    · split
      · simp [get?_cons, hb]
      · simp only [get?_cons]
        rw [ih]

theorem get?_alter {d : Dictionary β} (h : Ordered d) (key other : String) (f : Option β → β) :
    get? (alter key f d) other = if other = key then some (f (get? d key)) else get? d other := by
  split
  · next hkey => rw [hkey, get?_alter_self h]
  · next hne => exact get?_alter_of_ne hne f

/-- The keys are where a value is found. -/
theorem mem_keys_iff {d : Dictionary β} {key : String} : key ∈ keys d ↔ (get? d key).isSome = true := by
  induction d with
  | nil => simp [keys]
  | cons e rest ih =>
    rw [get?_cons, keys, List.map_cons, List.mem_cons, ← keys, ih]
    by_cases hkey : key = e.1 <;> simp [hkey]

theorem get?_eq_none_of_head {e : String × β} {d : Dictionary β} (h : Ordered (e :: d)) :
    get? d e.1 = none :=
  get?_eq_none_of_lt (List.pairwise_cons.mp h).1

/-- No key is found before the first one. -/
theorem Ordered.not_lt_head {e : String × β} {d : Dictionary β} (h : Ordered (e :: d)) {key : String}
    (hget : (get? (e :: d) key).isSome = true) : ¬ key < e.1 := by
  intro hlt
  have hbefore : ∀ x ∈ e :: d, key < x.1 := by
    intro x hx
    rcases List.mem_cons.mp hx with rfl | hx
    · exact hlt
    · exact String.lt_trans hlt ((List.pairwise_cons.mp h).1 x hx)
  simp [get?_eq_none_of_lt hbefore] at hget

/-- A dictionary is known by what is found in it. -/
theorem Ordered.ext {d e : Dictionary β} (hd : Ordered d) (he : Ordered e)
    (h : ∀ key, get? d key = get? e key) : d = e := by
  induction d generalizing e with
  | nil =>
    cases e with
    | nil => rfl
    | cons y ys => simpa [get?_cons] using h y.1
  | cons x xs ih =>
    cases e with
    | nil => simpa [get?_cons] using h x.1
    | cons y ys =>
      have hx : get? (x :: xs) x.1 = some x.2 := by simp [get?_cons]
      have hy : get? (y :: ys) y.1 = some y.2 := by simp [get?_cons]
      have hxy : ¬ x.1 < y.1 := he.not_lt_head (by rw [← h, hx]; rfl)
      have hyx : ¬ y.1 < x.1 := hd.not_lt_head (by rw [h, hy]; rfl)
      have hkey : x.1 = y.1 := String.le_antisymm (String.not_lt.mp hyx) (String.not_lt.mp hxy)
      have hhead : x = y := Prod.ext hkey (Option.some.inj (by rw [← hx, ← hy, h, hkey]))
      subst hhead
      have htail : xs = ys := by
        refine ih (List.pairwise_cons.mp hd).2 (List.pairwise_cons.mp he).2 fun key => ?_
        by_cases hk : key = x.1
        · rw [hk, get?_eq_none_of_head hd, get?_eq_none_of_head he]
        · simpa [get?_cons, hk] using h key
      rw [htail]

end Dictionary

end FragmentHost

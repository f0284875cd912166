/-!
# Sets of names

A set of names is a list of them in strictly rising order.
-/

namespace FragmentHost

/-- Names in rising order, each once. -/
abbrev NameSet := List String

namespace NameSet

/-- Adds a name at its place, unless it is there. -/
def insert (name : String) : NameSet → NameSet
  | [] => [name]
  | n :: rest =>
    if name = n then n :: rest
    else if name < n then name :: n :: rest
    else n :: insert name rest

/-- Names rise strictly. -/
def Ordered (s : NameSet) : Prop := s.Pairwise (· < ·)

theorem mem_insert {name x : String} {s : NameSet} : x ∈ insert name s ↔ x = name ∨ x ∈ s := by
  induction s with
  | nil => simp [insert]
  | cons n rest ih =>
    simp only [insert]
    split
    · next h => subst h; simp
    · split
      · simp
      · simp only [List.mem_cons, ih]
        constructor
        · rintro (h | h | h) <;> simp [h]
        · rintro (h | h | h) <;> simp [h]

theorem Ordered.insert {s : NameSet} (h : Ordered s) (name : String) :
    Ordered (insert name s) := by
  induction s with
  | nil => simp [NameSet.insert, Ordered]
  | cons n rest ih =>
    obtain ⟨hn, hrest⟩ := List.pairwise_cons.mp h
    simp only [NameSet.insert]
    split
    · exact h
    · next hne =>
      split
      · next hlt =>
        refine List.pairwise_cons.mpr ⟨fun x hx => ?_, h⟩
        rcases List.mem_cons.mp hx with rfl | hx
        · exact hlt
        · exact String.lt_trans hlt (hn x hx)
      · next hlt =>
        refine List.pairwise_cons.mpr ⟨fun x hx => ?_, ih hrest⟩
        rcases mem_insert.mp hx with rfl | hx
        · exact Std.lt_of_le_of_ne (String.not_lt.mp hlt) (fun h => hne h.symm)
        · exact hn x hx

end NameSet

end FragmentHost

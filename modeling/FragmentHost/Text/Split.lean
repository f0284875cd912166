/-!
# Splitting text

A text cut at every occurrence of a separator. There is always one part more than there are separators.
Texts without a separator are the parts of what they make up with separators between them.
-/

namespace FragmentHost.Split

/-- The parts between the separators. -/
def chars (sep : Char) : List Char → List (List Char)
  | [] => [[]]
  | c :: rest =>
    if c = sep then [] :: chars sep rest
    else match chars sep rest with
      | [] => [[c]]
      | part :: parts => (c :: part) :: parts

/-- The parts of a text between the separators. -/
def text (sep : Char) (s : String) : List String := (chars sep s.toList).map String.ofList

theorem chars_ne_nil (sep : Char) (cs : List Char) : chars sep cs ≠ [] := by
  cases cs with
  | nil => simp [chars]
  | cons c rest =>
    simp only [chars]
    split
    · simp
    · split <;> simp

/-- A part without a separator is cut off as it is. -/
theorem chars_append {sep : Char} {part : List Char} (hpart : sep ∉ part) (rest : List Char) :
    chars sep (part ++ sep :: rest) = part :: chars sep rest := by
  induction part with
  | nil => simp [chars]
  | cons c part ih =>
    rw [List.mem_cons, not_or] at hpart
    rw [List.cons_append, chars, if_neg (Ne.symm hpart.1), ih hpart.2]

theorem chars_of_not_mem {sep : Char} {part : List Char} (hpart : sep ∉ part) :
    chars sep part = [part] := by
  induction part with
  | nil => rfl
  | cons c part ih =>
    rw [List.mem_cons, not_or] at hpart
    rw [chars, if_neg (Ne.symm hpart.1), ih hpart.2]

/-- Cutting undoes joining. -/
theorem chars_intercalate {sep : Char} {parts : List (List Char)} (hne : parts ≠ [])
    (hparts : ∀ part ∈ parts, sep ∉ part) : chars sep ([sep].intercalate parts) = parts := by
  induction parts with
  | nil => exact absurd rfl hne
  | cons part parts ih =>
    have hpart := hparts part (List.mem_cons_self ..)
    cases parts with
    | nil => rw [List.intercalate_singleton, chars_of_not_mem hpart]
    | cons next parts =>
      rw [List.intercalate_cons_cons, List.append_assoc, List.singleton_append, chars_append hpart,
        ih (by simp) fun p hp => hparts p (List.mem_cons_of_mem part hp)]

theorem text_ne_nil (sep : Char) (s : String) : text sep s ≠ [] := by
  simp [text, chars_ne_nil]

/-- Texts without a separator are the parts of the text that they make up. -/
theorem text_intercalate {sep : Char} {parts : List String} (hne : parts ≠ [])
    (hparts : ∀ part ∈ parts, sep ∉ part.toList) :
    text sep ((String.singleton sep).intercalate parts) = parts := by
  rw [text, String.toList_intercalate, String.toList_singleton, chars_intercalate]
  · simp [Function.comp_def]
  · simpa using hne
  · simpa using hparts

end FragmentHost.Split

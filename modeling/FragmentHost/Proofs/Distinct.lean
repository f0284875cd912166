import FragmentHost.Dictionary
import Mathlib.Data.Finset.Card
import Mathlib.Data.List.Induction

/-!
# Each thing once

Lists of requests in which the first of each kind counts, and dictionaries that have a key for each kind.
-/

namespace FragmentHost

variable {α β : Type}

/-- One more request counts if there was none like it. -/
theorem eraseDups_concat [DecidableEq α] (xs : List α) (x : α) :
    (xs ++ [x]).eraseDups = xs.eraseDups ++ if x ∈ xs then [] else [x] := by
  rw [List.eraseDups_append]
  by_cases h : x ∈ xs <;> simp [List.removeAll, List.eraseDups_cons, h]

theorem nodup_eraseDups [DecidableEq α] (xs : List α) : xs.eraseDups.Nodup := by
  induction xs using List.reverseRecOn with
  | nil => exact List.nodup_nil
  | append_singleton xs x ih =>
    rw [eraseDups_concat]
    by_cases h : x ∈ xs
    · simpa [h] using ih
    · rw [if_neg h, ← List.concat_eq_append]
      exact ih.concat (mt List.mem_eraseDups.mp h)

namespace Dictionary

theorem Ordered.nodup_keys {d : Dictionary β} (h : Ordered d) : (keys d).Nodup := by
  rw [keys, List.Nodup, List.pairwise_map]
  exact h.imp fun hlt => String.ne_of_lt hlt

/-- There are as many entries as there are different names among those that have one. -/
theorem Ordered.length_eq_card {d : Dictionary β} (h : Ordered d) {names : List String}
    (hnames : ∀ key, key ∈ keys d ↔ key ∈ names) : d.length = names.toFinset.card := by
  have hkeys : (keys d).toFinset = names.toFinset := by
    ext key
    rw [List.mem_toFinset, List.mem_toFinset, hnames]
  rw [← hkeys, List.toFinset_card_of_nodup h.nodup_keys, keys, List.length_map]

end Dictionary

end FragmentHost

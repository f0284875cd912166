import FragmentHost.Json.Value
import FragmentHost.Proofs.Json.Spelling

/-!
# Values read back

`Value.words` lists the words of a value, and reading them gives the value again (`ofTokens?_words`):
twice as many steps as there are words are always enough. With the words that a text spells, what is
written for a value denotes that value (`Writes`, `Writes.ofText?_eq`). Lists and objects are written by
writing their parts (`writes_list`, `writes_object`).
-/

namespace FragmentHost.Json

namespace Value

-- ---------------------------------------------------------------------------
-- Words
-- ---------------------------------------------------------------------------

mutual

/-- The words of a value. -/
def words : Value → List Token
  | .null => [.null]
  | .bool b => [.bool b]
  | .number l => [.number l]
  | .string s => [.string s]
  | .list items => .openBracket :: itemWords items
  | .object members => .openBrace :: memberWords members

/-- The words of the items of a list, up to its end. -/
def itemWords : List Value → List Token
  | [] => [.closeBracket]
  | [v] => v.words ++ [.closeBracket]
  | v :: w :: rest => v.words ++ .comma :: itemWords (w :: rest)

/-- The words of the members of an object, up to its end. -/
def memberWords : List (Option String × Value) → List Token
  | [] => [.closeBrace]
  | [(k, v)] => .string k :: .colon :: v.words ++ [.closeBrace]
  | (k, v) :: m :: rest => .string k :: .colon :: v.words ++ .comma :: memberWords (m :: rest)

end

/-- No value starts with a closing bracket. -/
theorem exists_words_eq_cons (v : Value) : ∃ t ts, v.words = t :: ts ∧ t ≠ .closeBracket := by
  cases v <;> exact ⟨_, _, by rw [words], by simp⟩

theorem exists_itemWords_eq_cons (v : Value) (vs : List Value) :
    ∃ t ts, itemWords (v :: vs) = t :: ts ∧ t ≠ .closeBracket := by
  obtain ⟨t, ts, hv, ht⟩ := v.exists_words_eq_cons
  cases vs <;> exact ⟨t, _, by rw [itemWords, hv]; rfl, ht⟩

theorem exists_memberWords_eq_cons (m : Option String × Value) (ms : List (Option String × Value)) :
    ∃ t ts, memberWords (m :: ms) = t :: ts ∧ t ≠ .closeBrace := by
  obtain ⟨k, v⟩ := m
  cases ms <;> exact ⟨.string k, _, by rw [memberWords]; rfl, by simp⟩

-- ---------------------------------------------------------------------------
-- Reading words
-- ---------------------------------------------------------------------------

/-- Whatever has no more words than half of the steps is read back, with anything after it. -/
structure ReadsBack (fuel : Nat) : Prop where
  value : ∀ (v : Value) (rest : List Token), 2 * v.words.length ≤ fuel →
    read? fuel (v.words ++ rest) = some (v, rest)
  items : ∀ (v : Value) (vs : List Value) (rest : List Token),
    2 * (itemWords (v :: vs)).length ≤ fuel →
    readItems? fuel (itemWords (v :: vs) ++ rest) = some (v :: vs, rest)
  members : ∀ (m : Option String × Value) (ms : List (Option String × Value)) (rest : List Token),
    2 * (memberWords (m :: ms)).length ≤ fuel →
    readMembers? fuel (memberWords (m :: ms) ++ rest) = some (m :: ms, rest)

/-- By induction on the steps: each of them leaves at least one word behind. -/
theorem readsBack (fuel : Nat) : ReadsBack fuel := by
  induction fuel with
  | zero =>
    -- there are no words without a first one
    constructor
    case value =>
      intro v rest hfuel
      obtain ⟨t, ts, hv, -⟩ := v.exists_words_eq_cons
      simp [hv] at hfuel
    case items =>
      intro v vs rest hfuel
      obtain ⟨t, ts, hv, -⟩ := exists_itemWords_eq_cons v vs
      simp [hv] at hfuel
    case members =>
      intro m ms rest hfuel
      obtain ⟨t, ts, hm, -⟩ := exists_memberWords_eq_cons m ms
      simp [hm] at hfuel
  | succ k ih =>
    constructor
    case value =>
      intro v rest hfuel
      match v with
      | .null | .bool b | .number l | .string s => rw [words]; rfl
      | .list [] => rw [words, itemWords]; rfl
      | .object [] => rw [words, memberWords]; rfl
      | .list (v :: vs) =>
        rw [words, List.length_cons] at hfuel
        have hitems := ih.items v vs rest (by omega)
        obtain ⟨t, ts, hwords, ht⟩ := exists_itemWords_eq_cons v vs
        rw [words]
        rw [hwords] at hitems ⊢
        rw [List.cons_append, List.cons_append, read?, ← List.cons_append, hitems]
        · rfl
        · intro more hmore
          exact ht (List.cons.inj hmore).1
      | .object (m :: ms) =>
        rw [words, List.length_cons] at hfuel
        have hmembers := ih.members m ms rest (by omega)
        obtain ⟨t, ts, hwords, ht⟩ := exists_memberWords_eq_cons m ms
        rw [words]
        rw [hwords] at hmembers ⊢
        rw [List.cons_append, List.cons_append, read?, ← List.cons_append, hmembers]
        · rfl
        · intro more hmore
          exact ht (List.cons.inj hmore).1
    case items =>
      intro v vs rest hfuel
      cases vs with
      | nil =>
        rw [itemWords, List.length_append, List.length_singleton] at hfuel
        rw [itemWords, List.append_assoc, readItems?, ih.value v _ (by omega)]
        rfl
      | cons w vs =>
        rw [itemWords, List.length_append, List.length_cons] at hfuel
        rw [itemWords, List.append_assoc, readItems?, ih.value v _ (by omega), List.cons_append]
        dsimp only
        rw [ih.items w vs rest (by omega)]
        rfl
    case members =>
      rintro ⟨key, v⟩ ms rest hfuel
      cases ms with
      | nil =>
        rw [memberWords, List.length_append, List.length_cons, List.length_cons] at hfuel
        rw [memberWords, List.append_assoc, List.cons_append, List.cons_append, readMembers?,
          ih.value v _ (by omega)]
        rfl
      | cons m ms =>
        rw [memberWords, List.length_append, List.length_cons, List.length_cons,
          List.length_cons] at hfuel
        rw [memberWords, List.append_assoc, List.cons_append, List.cons_append, readMembers?,
          ih.value v _ (by omega), List.cons_append]
        dsimp only
        rw [ih.members m ms rest (by omega)]
        rfl

/-- A value is read back from its words. -/
theorem ofTokens?_words (v : Value) : ofTokens? v.words = some v := by
  have hread := (readsBack (2 * v.words.length + 1)).value v [] (Nat.le_succ _)
  rw [List.append_nil] at hread
  rw [ofTokens?, hread]

end Value

-- ---------------------------------------------------------------------------
-- Writing values
-- ---------------------------------------------------------------------------

/-- The characters `cs` are written for the value `v`: in front of whatever may follow a value they have
its words. -/
def Writes (cs : List Char) (v : Value) : Prop :=
  ∀ rest ts, Ends rest → Spells rest ts → Spells (cs ++ rest) (v.words ++ ts)

/-- What is written for a value denotes it. -/
theorem Writes.ofText?_eq {cs : List Char} {v : Value} (h : Writes cs v) :
    Value.ofText? (String.ofList cs) = some v := by
  have hspells := h [] [] (by intro c hc; simp at hc) .nil
  rw [List.append_nil, List.append_nil] at hspells
  rw [Value.ofText?, String.toList_ofList, hspells.tokens_eq, Option.bind_some, Value.ofTokens?_words]

theorem writes_string (s : String) : Writes (quote s.toList) (.string (some s)) := by
  intro rest ts _ h
  exact h.quote s

theorem writes_bool (b : Bool) : Writes (toString b).toList (.bool b) := by
  intro rest ts _ h
  exact h.bool b

theorem writes_integer (n : Int) : Writes (toString n).toList (.number (.ofInt n)) := by
  intro rest ts hr h
  exact h.integer n hr

/-- The items of a list are written with commas between them. -/
theorem spells_items {css : List (List Char)} {vs : List Value} (h : List.Forall₂ Writes css vs)
    {rest : List Char} {ts : List Token} (hrest : Spells rest ts) :
    Spells ([','].intercalate css ++ ']' :: rest) (Value.itemWords vs ++ ts) := by
  have hclose : Spells (']' :: rest) (.closeBracket :: ts) := .cons rfl rfl le_rfl hrest
  induction h with
  | nil => exact hclose
  | cons hv hvs ih =>
    cases hvs with
    | nil =>
      rw [Value.itemWords, List.append_assoc, List.intercalate_singleton]
      exact hv _ _ (ends_cons (.inr (.inl rfl)) rest) hclose
    | cons hw hws =>
      have hmore := hv _ _ (ends_cons (.inl rfl) _) ih.comma
      rw [Value.itemWords, List.append_assoc, List.cons_append, List.intercalate_cons_cons,
        List.append_assoc, List.append_assoc]
      exact hmore

theorem writes_list {css : List (List Char)} {vs : List Value} (h : List.Forall₂ Writes css vs) :
    Writes ('[' :: [','].intercalate css ++ [']']) (.list vs) := by
  intro rest ts _ hrest
  rw [Value.words, List.append_assoc]
  exact .cons rfl rfl le_rfl (spells_items h hrest)

/-- The characters `cs` are written for a member of an object: its name, a colon and its value. -/
def WritesMember (cs : List Char) (m : Option String × Value) : Prop :=
  ∃ name value, m.1 = some name ∧ cs = quote name.toList ++ ':' :: value ∧ Writes value m.2

theorem WritesMember.spells {cs : List Char} {key : Option String} {v : Value}
    (h : WritesMember cs (key, v)) {rest : List Char} {ts : List Token} (hr : Ends rest)
    (hrest : Spells rest ts) :
    Spells (cs ++ rest) (.string key :: .colon :: v.words ++ ts) := by
  obtain ⟨name, value, rfl, rfl, hvalue⟩ := h
  rw [List.append_assoc, List.cons_append]
  exact .quote name (.cons rfl rfl le_rfl (hvalue rest ts hr hrest))

/-- The members of an object are written with commas between them. -/
theorem spells_members {css : List (List Char)} {ms : List (Option String × Value)}
    (h : List.Forall₂ WritesMember css ms) {rest : List Char} {ts : List Token}
    (hrest : Spells rest ts) :
    Spells ([','].intercalate css ++ '\x7d' :: rest) (Value.memberWords ms ++ ts) := by
  have hclose : Spells ('\x7d' :: rest) (.closeBrace :: ts) := .cons rfl rfl le_rfl hrest
  induction h with
  | nil => exact hclose
  | cons hm hms ih =>
    cases hms with
    | nil =>
      rw [Value.memberWords, List.append_assoc, List.intercalate_singleton]
      exact hm.spells (ends_cons (.inr (.inr rfl)) rest) hclose
    | cons hm' hms =>
      have hmore := hm.spells (ends_cons (.inl rfl) _) ih.comma
      rw [Value.memberWords, List.append_assoc, List.cons_append, List.intercalate_cons_cons,
        List.append_assoc, List.append_assoc]
      exact hmore

theorem writes_object {css : List (List Char)} {ms : List (Option String × Value)}
    (h : List.Forall₂ WritesMember css ms) :
    Writes ('\x7b' :: [','].intercalate css ++ ['\x7d']) (.object ms) := by
  intro rest ts _ hrest
  rw [Value.words, List.append_assoc]
  exact .cons rfl rfl le_rfl (spells_members h hrest)

end FragmentHost.Json

import FragmentHost.Options.Manager
import FragmentHost.Proofs.Options.RoundTrip

/-!
# Which values an option of a plan has

An option has a place for a value of each kind, and is well formed if the place of its own kind is filled
and the others are empty. A plan may fill more: an element of the list may give a value under the name of any
kind, and the reader keeps all of them. What it insists on is a value of the option's own kind. So every
option that is read has one, and a typed look-up of another kind answers exactly if the element gives a value
of that kind (`PlanOption.values_of_plan`); the options that are well formed are those whose elements give no
other value.

What is kept of an element is followed member by member: a member fills the place of its kind if it has a
value and changes no other place (`Parts.has_take`).
-/

namespace FragmentHost

/-- The name of the member with a value of the kind. -/
def OptionKind.member : OptionKind → String
  | bool => "bool_val"
  | long => "num_val"
  | double => "float_val"
  | string => "string_val"

/-- The typed look-up of kind `k` answers with a value. -/
def OptionLookup.answers (l : OptionLookup) (k : OptionKind) : Bool :=
  match k with
  | .bool => l.bool.isSome
  | .long => l.long.isSome
  | .double => l.double.isSome
  | .string => l.string.isSome

namespace PlanOption

/-- The place of the option's kind is filled and the others are empty. -/
def WellFormed (o : PlanOption) : Prop := ∀ k, o.has k = true ↔ k = o.kind

/-- Of an option that was found, typed look-ups answer with what is in its places. -/
theorem answers_some (o : PlanOption) (k : OptionKind) : (OptionLookup.mk (some o)).answers k = o.has k := by
  cases k <;> rfl

-- ---------------------------------------------------------------------------
-- Elements
-- ---------------------------------------------------------------------------

/-- The members of an element, by their names or by their places in a list. -/
def membersOf : Json.Value → List (Option String × Json.Value)
  | .object members => members
  | .list items => (Parts.order.map some).zip items
  | _ => []

/-- The members give a value of kind `k`, and not just an empty one. -/
def Gives (members : List (Option String × Json.Value)) (k : OptionKind) : Prop :=
  ∃ v, (some k.member, v) ∈ members ∧ v ≠ .null

/-- The elements of the list of a plan. -/
def elements : Option String → List Json.Value
  | none => []
  | some text =>
    if Blank.isBlankText text then []
    else match Json.Value.ofText? (Blank.trim text) with
      | some (.list items) => items
      | _ => []

namespace Parts

/-- The place of kind `k` has a value. -/
def has (p : Parts) (k : OptionKind) : Bool :=
  match k with
  | .bool => (p.bool.getD none).isSome
  | .long => (p.long.getD none).isSome
  | .double => (p.double.getD none).isSome
  | .string => (p.string.getD none).isSome

theorem fill_eq_some {α β : Type} {place value : Option α} {finish : Option α → β} {b : β}
    (h : fill place value finish = some b) : place = none ∧ ∃ v, value = some v ∧ b = finish (some v) := by
  unfold fill at h
  split at h
  · next v => exact ⟨rfl, v, rfl, (Option.some.inj h).symm⟩
  · simp at h

-- What is read of the value of a known member is something unless the value is empty.

theorem isSome_boolOf? {v : Json.Value} {x : Option Bool} (h : boolOf? v = some x) :
    x.isSome = true ↔ v ≠ .null := by
  unfold boolOf? at h
  split at h
  · obtain rfl := Option.some.inj h
    simp
  · obtain rfl := Option.some.inj h
    simp
  · simp at h

theorem isSome_longOf? {v : Json.Value} {x : Option Int} (h : longOf? v = some x) :
    x.isSome = true ↔ v ≠ .null := by
  unfold longOf? at h
  split at h
  · obtain rfl := Option.some.inj h
    simp
  · next l =>
    split at h
    · split at h
      · obtain rfl := Option.some.inj h
        simp
      · simp at h
    · simp at h
  · simp at h

theorem isSome_doubleOf? {v : Json.Value} {x : Option Binary64} (h : doubleOf? v = some x) :
    x.isSome = true ↔ v ≠ .null := by
  unfold doubleOf? at h
  split at h
  · obtain rfl := Option.some.inj h
    simp
  · next l =>
    obtain ⟨y, -, rfl⟩ := Option.map_eq_some_iff.mp h
    simp
  · simp at h

theorem isSome_stringOf? {v : Json.Value} {x : Option String} (h : stringOf? v = some x) :
    x.isSome = true ↔ v ≠ .null := by
  unfold stringOf? at h
  split at h
  · obtain rfl := Option.some.inj h
    simp
  · obtain rfl := Option.some.inj h
    simp
  · simp at h

/-- One more member: it fills the place of its kind if it has a value, and no other place. -/
theorem has_take {p q : Parts} {key : String} {v : Json.Value} (h : p.take key v = some q)
    (k : OptionKind) : q.has k = true ↔ p.has k = true ∨ key = k.member ∧ v ≠ .null := by
  unfold take at h
  split at h
  case h_4 =>
    obtain ⟨hplace, x, hx, rfl⟩ := fill_eq_some h
    have hfilled := isSome_boolOf? hx
    cases k <;> simp [has, OptionKind.member, hplace, hfilled]
  case h_5 =>
    obtain ⟨hplace, x, hx, rfl⟩ := fill_eq_some h
    have hfilled := isSome_longOf? hx
    cases k <;> simp [has, OptionKind.member, hplace, hfilled]
  case h_6 =>
    obtain ⟨hplace, x, hx, rfl⟩ := fill_eq_some h
    have hfilled := isSome_doubleOf? hx
    cases k <;> simp [has, OptionKind.member, hplace, hfilled]
  case h_7 =>
    obtain ⟨hplace, x, hx, rfl⟩ := fill_eq_some h
    have hfilled := isSome_stringOf? hx
    cases k <;> simp [has, OptionKind.member, hplace, hfilled]
  case h_8 =>
    obtain rfl := Option.some.inj h
    cases k <;> simp_all [OptionKind.member]
  all_goals
    obtain ⟨-, x, -, rfl⟩ := fill_eq_some h
    cases k <;> simp [has, OptionKind.member]

/-- All members, by induction with `has_take`. -/
theorem has_takeAll {members : List (Option String × Json.Value)} {p q : Parts}
    (h : p.takeAll members = some q) (k : OptionKind) :
    q.has k = true ↔ p.has k = true ∨ Gives members k := by
  induction members generalizing p with
  | nil =>
    rw [takeAll, Option.some.injEq] at h
    simp [Gives, h]
  | cons m members ih =>
    obtain ⟨name, v⟩ := m
    cases name with
    | none => simp [takeAll] at h
    | some key =>
      rw [takeAll, Option.bind_eq_some_iff] at h
      obtain ⟨p', htake, hrest⟩ := h
      have hgives : Gives ((some key, v) :: members) k ↔
          key = k.member ∧ v ≠ .null ∨ Gives members k := by
        simp [Gives, or_and_right, exists_or, eq_comm]
      rw [ih hrest, has_take htake, or_assoc, hgives]

/-- The finished option has the values that were found. -/
theorem has_finish {p : Parts} {o : PlanOption} (h : p.finish = some o) (k : OptionKind) :
    o.has k = p.has k := by
  simp only [finish, Option.bind_eq_bind, Option.bind_eq_some_iff, Option.pure_def,
    Option.some.injEq] at h
  obtain ⟨name, -, kind, -, rfl⟩ := h
  cases k <;> rfl

end Parts

/-- An option has a value of a kind exactly if its element gives one. -/
theorem has_ofValue? {v : Json.Value} {o : PlanOption} (h : ofValue? v = some o) (k : OptionKind) :
    o.has k = true ↔ Gives (membersOf v) k := by
  have hmembers : ∀ {members}, (Parts.takeAll {} members).bind Parts.finish = some o →
      (o.has k = true ↔ Gives members k) := by
    intro members h
    obtain ⟨p, htake, hfinish⟩ := Option.bind_eq_some_iff.mp h
    have hnothing : (Parts.has {} k) = false := by cases k <;> rfl
    rw [Parts.has_finish hfinish, Parts.has_takeAll htake, hnothing]
    simp
  unfold ofValue? at h
  split at h
  · exact hmembers h
  · split at h
    · exact hmembers h
    · simp at h
  · simp at h

-- ---------------------------------------------------------------------------
-- Plans
-- ---------------------------------------------------------------------------

/-- What can be told of option `o` from the element `v` that it was read from. -/
structure HasValuesOf (v : Json.Value) (o : PlanOption) : Prop where
  /-- The look-up of the option's own kind answers. -/
  own : (OptionLookup.mk (some o)).answers o.kind = true
  /-- Any look-up answers exactly if the element gives a value of its kind. -/
  answers_iff : ∀ k, (OptionLookup.mk (some o)).answers k = true ↔ Gives (membersOf v) k
  wellFormed_iff : o.WellFormed ↔ ∀ k, Gives (membersOf v) k → k = o.kind

theorem hasValuesOf {v : Json.Value} {o : PlanOption} (hread : ofValue? v = some o)
    (hfault : o.fault? = none) : HasValuesOf v o := by
  have hown : o.has o.kind = true := by
    unfold fault? at hfault
    split at hfault
    · next h => exact h
    · simp at hfault
  refine ⟨by rw [answers_some, hown], fun k => by rw [answers_some, has_ofValue? hread], ?_⟩
  constructor
  · exact fun hformed k hk => (hformed k).mp ((has_ofValue? hread k).mpr hk)
  · intro honly k
    constructor
    · exact fun hk => honly k ((has_ofValue? hread k).mp hk)
    · rintro rfl
      exact hown

theorem elements_of_blank {text : String} (h : Blank.isBlankText text = true) :
    elements (some text) = [] := by
  rw [elements, if_pos h]

theorem elements_of_list {text : String} {items : List Json.Value} (h : ¬ Blank.isBlankText text = true)
    (hitems : Json.Value.ofText? (Blank.trim text) = some (.list items)) :
    elements (some text) = items := by
  rw [elements, if_neg h, hitems]

/-- An accepted plan was read element by element, and no option of it is at fault. -/
theorem of_ofPlan {text : Option String} {options : List PlanOption} (h : ofPlan text = .ok options) :
    (elements text).mapM ofValue? = some options ∧ ∀ o ∈ options, o.fault? = none := by
  cases text with
  | none =>
    obtain rfl := Except.ok.inj h
    exact ⟨rfl, by simp⟩
  | some text =>
    rw [ofPlan] at h
    split at h
    · next hblank =>
      obtain rfl := Except.ok.inj h
      rw [elements_of_blank hblank]
      exact ⟨rfl, by simp⟩
    · next hblank =>
      split at h
      · next items hitems =>
        split at h
        · simp at h
        · next options' hread =>
          split at h
          · simp at h
          · next hfault =>
            obtain rfl := Except.ok.inj h
            rw [elements_of_list hblank hitems]
            exact ⟨hread, List.findSome?_eq_none_iff.mp hfault⟩
      · simp at h

/-- **The values of the options of a plan.** The options of an accepted plan are those of its elements, in
order, each with a value of its own kind; another value is there exactly if the element gives it. -/
theorem values_of_plan {text : Option String} {options : List PlanOption} (h : ofPlan text = .ok options) :
    List.Forall₂ HasValuesOf (elements text) options := by
  obtain ⟨hread, hfault⟩ := of_ofPlan h
  clear h
  generalize elements text = items at hread
  induction items generalizing options with
  | nil =>
    rw [List.mapM_nil] at hread
    obtain rfl := Option.some.inj hread
    exact .nil
  | cons v items ih =>
    rw [List.mapM_cons, Option.bind_eq_bind, Option.bind_eq_some_iff] at hread
    obtain ⟨o, ho, hrest⟩ := hread
    rw [Option.bind_eq_bind, Option.bind_eq_some_iff] at hrest
    obtain ⟨rest, hrest, hlist⟩ := hrest
    obtain rfl := Option.some.inj hlist
    rw [List.forall_mem_cons] at hfault
    exact .cons (hasValuesOf ho hfault.1) (ih hfault.2 hrest)

/-- A plan with one option that was written out, whatever places it fills. -/
theorem ofPlan_single {o : PlanOption} (hwrites : Json.Writes o.writtenChars (.object o.memberValues))
    (hdouble : o.double = none) (hlong : ∀ n ∈ o.long, Word.Fits n) (hfault : o.fault? = none) :
    ofPlan (some (listText [o])) = .ok [o] := by
  have htrim : Blank.trimChars (listText [o]).toList = (listText [o]).toList := by
    have hnothing : ∀ c ∈ ([] : List Char), Json.isSpace c := by simp
    simpa using trimChars_listText [o] hnothing hnothing
  have hblank : Blank.isBlankText (listText [o]) = false := by
    rw [Blank.isBlankText, htrim, toList_listText]
    rfl
  have hread : Json.Value.ofText? (listText [o]) = some (.list [.object o.memberValues]) := by
    have hlist := (Json.writes_list (.cons hwrites .nil)).ofText?_eq
    rwa [← List.map_singleton (f := writtenChars), ← toList_listText, String.ofList_toList] at hlist
  have hoption : [Json.Value.object o.memberValues].mapM ofValue? = some [o] := by
    rw [List.mapM_cons, ofValue?_memberValues hdouble hlong]
    rfl
  simp only [ofPlan, hblank, Blank.trim, htrim, String.ofList_toList, hread, hoption,
    List.findSome?_cons, hfault, List.findSome?_nil, Bool.false_eq_true, if_false]

/-- An integer that has a switch as well. -/
def twoValues : PlanOption := { name := "width", kind := .long, long := some 4, bool := some true }

theorem ofPlan_twoValues : ofPlan (some (listText [twoValues])) = .ok [twoValues] := by
  have hname := writesMember "name" (Json.writes_string "width")
  have hkind := writesMember "kind" (Json.writes_string "LONG")
  have hscope := writesMember "type" (Json.writes_string "SYSTEM")
  have hbool := writesMember "bool_val" (Json.writes_bool true)
  have hlong := writesMember "num_val" (Json.writes_integer 4)
  refine ofPlan_single ?_ rfl (by decide) rfl
  exact Json.writes_object (.cons hname (.cons hkind (.cons hscope (.cons hbool (.cons hlong .nil)))))

/-- The switch is kept, and the look-up of switches answers. -/
theorem values_of_plan_twoValues :
    ofPlan (some (listText [twoValues])) = .ok [twoValues] ∧
      List.Forall₂ HasValuesOf (elements (some (listText [twoValues]))) [twoValues] :=
  ⟨ofPlan_twoValues, values_of_plan ofPlan_twoValues⟩

/-- Not every option of an accepted plan is well formed. -/
theorem not_wellFormed_twoValues :
    ¬ ∀ (text : Option String) (options : List PlanOption), ofPlan text = .ok options →
      ∀ o ∈ options, o.WellFormed := by
  intro h
  have hformed := h _ _ ofPlan_twoValues twoValues (List.mem_singleton_self _)
  exact absurd ((hformed .bool).mp rfl) (by decide)

end PlanOption

end FragmentHost

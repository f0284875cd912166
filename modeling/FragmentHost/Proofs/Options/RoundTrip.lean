import FragmentHost.Options.Plan
import FragmentHost.Options.Written
import FragmentHost.Proofs.Json.Grammar
import Mathlib.Data.List.Forall2

/-!
# Options read back from a plan

An option made in the program as a switch, an integer or a text is written as one object: name, kind and
scope, and the one place that its kind fills. Such objects with commas between them and brackets around
them are the text of a list, and a plan with that text has exactly those options, in their order, whatever
characters the names and texts hold and whatever white space stands around the list
(`ofPlan_listText`).

The reader meets the writer twice. The characters that are written for an option denote the object of
its members (`writes_writtenChars`), which is the work of the grammar; and the parts that are found in
that object are the option again (`ofValue?_memberValues`), since every name of a member is one the
reader knows, the keywords of kinds and scopes read back, and a place that is left out counts as empty.
-/

namespace FragmentHost.PlanOption

open Json (Writes WritesMember)

/-- The option is made in the program, as a switch, as an integer of sixty-four bits or as a text. -/
inductive IsMade : PlanOption → Prop where
  | bool (name : String) (value : Bool) (scope : OptionScope) : IsMade (ofBool name value scope)
  | long (name : String) {value : Int} (scope : OptionScope) (h : Word.Fits value) :
    IsMade (ofLong name value scope)
  | string (name value : String) (scope : OptionScope) : IsMade (ofString name value scope)

theorem IsMade.double_eq_none {o : PlanOption} (h : o.IsMade) : o.double = none := by
  cases h <;> rfl

theorem IsMade.fits_of_mem_long {o : PlanOption} (h : o.IsMade) {n : Int} (hn : n ∈ o.long) :
    Word.Fits n := by
  cases h with
  | bool => cases hn
  | long name scope hfits => cases hn; exact hfits
  | string => cases hn

/-- A made option fills the place of its kind. -/
theorem IsMade.fault?_eq_none {o : PlanOption} (h : o.IsMade) : o.fault? = none := by
  cases h <;> rfl

-- ---------------------------------------------------------------------------
-- Members
-- ---------------------------------------------------------------------------

/-- The members that are written of an option without a number, with their values. -/
def memberValues (o : PlanOption) : List (Option String × Json.Value) :=
  [(some "name", .string (some o.name)), (some "kind", .string (some o.kind.keyword)),
    (some "type", .string (some o.scope.keyword))] ++
  (o.bool.map fun b => (some "bool_val", .bool b)).toList ++
  (o.long.map fun n => (some "num_val", .number (.ofInt n))).toList ++
  (o.string.map fun s => (some "string_val", .string (some s))).toList

theorem writesMember {value : List Char} {v : Json.Value} (name : String) (h : Writes value v) :
    WritesMember (member name value) (some name, v) :=
  ⟨name, value, rfl, rfl, h⟩

/-- The text of a made option denotes the object of its members. -/
theorem writes_writtenChars {o : PlanOption} (h : o.IsMade) :
    Writes o.writtenChars (.object o.memberValues) := by
  have hname := writesMember "name" (Json.writes_string o.name)
  have hkind := writesMember "kind" (Json.writes_string o.kind.keyword)
  have hscope := writesMember "type" (Json.writes_string o.scope.keyword)
  refine Json.writes_object (.cons hname (.cons hkind (.cons hscope ?_)))
  cases h with
  | bool name value scope => exact .cons (writesMember "bool_val" (Json.writes_bool value)) .nil
  | long name scope _ => exact .cons (writesMember "num_val" (Json.writes_integer _)) .nil
  | string name value scope => exact .cons (writesMember "string_val" (Json.writes_string value)) .nil

-- ---------------------------------------------------------------------------
-- Parts
-- ---------------------------------------------------------------------------

theorem kindOf?_keyword (k : OptionKind) : kindOf? (.string (some k.keyword)) = some k :=
  OptionKind.ofKeyword?_keyword k

theorem scopeOf?_keyword (s : OptionScope) : scopeOf? (.string (some s.keyword)) = some s :=
  OptionScope.ofKeyword?_keyword s

/-- Every word that fits is an integer to the reader: only zero could be spelled with a minus, and it is
not. -/
theorem longOf?_ofInt {n : Int} (h : Word.Fits n) :
    longOf? (.number (.ofInt n)) = some (some n) := by
  have hzero : ¬((Decimal.Literal.ofInt n).negative = true ∧ n = 0) := by
    rintro ⟨hnegative, rfl⟩
    exact absurd hnegative (by decide)
  rw [longOf?, Decimal.integer?_ofInt]
  exact if_pos ⟨h.1, h.2, hzero⟩

/-- The three members that every option has are found whatever follows them. -/
theorem takeAll_named (o : PlanOption) (rest : List (Option String × Json.Value)) :
    Parts.takeAll {} ((some "name", .string (some o.name)) ::
      (some "kind", .string (some o.kind.keyword)) ::
      (some "type", .string (some o.scope.keyword)) :: rest) =
    Parts.takeAll { name := some o.name, kind := some o.kind, scope := some o.scope } rest := by
  simp only [Parts.takeAll, Parts.take, Parts.fill, textOf?, kindOf?_keyword, scopeOf?_keyword,
    Option.bind_some]

-- A place that may be empty is left out or read back as it is: either way it then holds what it should.

theorem takeAll_bool {p : Parts} (hp : p.bool = none) (bool : Option Bool)
    (rest : List (Option String × Json.Value)) :
    p.takeAll ((bool.map fun b => (some "bool_val", .bool b)).toList ++ rest) =
      Parts.takeAll { p with bool := bool.map some } rest := by
  cases bool with
  | none => exact congrArg (Parts.takeAll · rest) (by rw [Option.map_none, ← hp])
  | some b =>
    show (p.take "bool_val" (.bool b)).bind (Parts.takeAll · rest) = _
    simp only [Parts.take, hp, boolOf?, Parts.fill, Option.bind_some, Option.map_some]

theorem takeAll_long {p : Parts} (hp : p.long = none) {long : Option Int}
    (hlong : ∀ n ∈ long, Word.Fits n) (rest : List (Option String × Json.Value)) :
    p.takeAll ((long.map fun n => (some "num_val", .number (.ofInt n))).toList ++ rest) =
      Parts.takeAll { p with long := long.map some } rest := by
  cases long with
  | none => exact congrArg (Parts.takeAll · rest) (by rw [Option.map_none, ← hp])
  | some n =>
    show (p.take "num_val" (.number (.ofInt n))).bind (Parts.takeAll · rest) = _
    simp only [Parts.take, hp, longOf?_ofInt (hlong n rfl), Parts.fill, Option.bind_some,
      Option.map_some]

theorem takeAll_string {p : Parts} (hp : p.string = none) (string : Option String)
    (rest : List (Option String × Json.Value)) :
    p.takeAll ((string.map fun s => (some "string_val", .string (some s))).toList ++ rest) =
      Parts.takeAll { p with string := string.map some } rest := by
  cases string with
  | none => exact congrArg (Parts.takeAll · rest) (by rw [Option.map_none, ← hp])
  | some s =>
    show (p.take "string_val" (.string (some s))).bind (Parts.takeAll · rest) = _
    simp only [Parts.take, hp, stringOf?, Parts.fill, Option.bind_some, Option.map_some]

/-- An option without a number is read from the object of its members. -/
theorem ofValue?_memberValues {o : PlanOption} (hdouble : o.double = none)
    (hlong : ∀ n ∈ o.long, Word.Fits n) : ofValue? (.object o.memberValues) = some o := by
  have hplace : ∀ {α : Type} (place : Option α), (place.map some).getD none = place := by
    intro α place
    cases place <;> rfl
  have htake : Parts.takeAll {} o.memberValues = some
      { name := some o.name, kind := some o.kind, scope := some o.scope,
        bool := o.bool.map some, long := o.long.map some, string := o.string.map some } := by
    rw [memberValues, List.append_assoc, List.append_assoc, List.cons_append, List.cons_append,
      List.cons_append, List.nil_append, takeAll_named, takeAll_bool rfl, takeAll_long rfl hlong,
      ← List.append_nil (Option.toList _), takeAll_string rfl, Parts.takeAll]
  rw [ofValue?, htake]
  show some (PlanOption.mk o.name o.kind o.scope _ _ none _) = some o
  rw [hplace, hplace, hplace, ← hdouble]

-- ---------------------------------------------------------------------------
-- Lists
-- ---------------------------------------------------------------------------

/-- The text of a list: the texts of its options with commas between them, in brackets. -/
def listText (options : List PlanOption) : String :=
  "[" ++ ",".intercalate (options.map written) ++ "]"

theorem toList_listText (options : List PlanOption) :
    (listText options).toList = '[' :: [','].intercalate (options.map writtenChars) ++ [']'] := by
  have hwritten : (options.map written).map String.toList = options.map writtenChars := by
    rw [List.map_map]
    exact List.map_congr_left fun o _ => String.toList_ofList
  rw [listText, String.toList_append, String.toList_append, String.toList_intercalate, hwritten]
  rfl

theorem ofText?_listText {options : List PlanOption} (h : ∀ o ∈ options, o.IsMade) :
    Json.Value.ofText? (listText options) =
      some (.list (options.map fun o => .object o.memberValues)) := by
  have hwrites : List.Forall₂ Writes (options.map writtenChars)
      (options.map fun o => .object o.memberValues) := by
    rw [List.forall₂_map_left_iff, List.forall₂_map_right_iff, List.forall₂_same]
    exact fun o ho => writes_writtenChars (h o ho)
  have hread := (Json.writes_list hwrites).ofText?_eq
  rwa [← toList_listText, String.ofList_toList] at hread

theorem mapM_ofValue?_memberValues {options : List PlanOption} (h : ∀ o ∈ options, o.IsMade) :
    (options.map fun o => Json.Value.object o.memberValues).mapM ofValue? = some options := by
  induction options with
  | nil => rfl
  | cons o options ih =>
    have ho := h o (List.mem_cons_self ..)
    have hread := ofValue?_memberValues ho.double_eq_none fun n hn => ho.fits_of_mem_long hn
    rw [List.map_cons, List.mapM_cons, hread, ih fun p hp => h p (List.mem_cons_of_mem _ hp)]
    rfl

/-- The white space of a list is blank. -/
theorem isBlank_of_isSpace {c : Char} (h : Json.isSpace c = true) : Blank.isBlank c = true := by
  simp only [Json.isSpace, Bool.or_eq_true, decide_eq_true_eq] at h
  rcases h with ((h | h) | h) | h <;> subst h <;> decide

/-- White space around a list is taken off, and nothing else is. -/
theorem trimChars_listText (options : List PlanOption) {front back : List Char}
    (hfront : ∀ c ∈ front, Json.isSpace c) (hback : ∀ c ∈ back, Json.isSpace c) :
    Blank.trimChars (front ++ (listText options).toList ++ back) = (listText options).toList := by
  have hfront : ∀ c ∈ front, Blank.isBlank c = true := fun c hc => isBlank_of_isSpace (hfront c hc)
  have hback : ∀ c ∈ back.reverse, Blank.isBlank c = true :=
    fun c hc => isBlank_of_isSpace (hback c (List.mem_reverse.1 hc))
  rw [toList_listText, Blank.trimChars, Blank.trimFront, Blank.trimFront, List.append_assoc,
    List.dropWhile_append_of_pos hfront, List.cons_append, List.cons_append,
    List.dropWhile_cons_of_neg (by decide), ← List.cons_append, ← List.cons_append,
    List.reverse_append, List.dropWhile_append_of_pos hback, List.reverse_append,
    List.reverse_singleton, List.singleton_append, List.dropWhile_cons_of_neg (by decide),
    List.reverse_cons, List.reverse_reverse]

/-- Options that are made in the program and written into a list are read back as they were, in their
order, with any white space around the list. -/
theorem ofPlan_listText (options : List PlanOption) (h : ∀ o ∈ options, o.IsMade)
    (front back : String) (hfront : ∀ c ∈ front.toList, Json.isSpace c)
    (hback : ∀ c ∈ back.toList, Json.isSpace c) :
    ofPlan (some (front ++ listText options ++ back)) = .ok options := by
  have htrim : Blank.trimChars (front ++ listText options ++ back).toList =
      (listText options).toList := by
    rw [String.toList_append, String.toList_append]
    exact trimChars_listText options hfront hback
  have hblank : Blank.isBlankText (front ++ listText options ++ back) = false := by
    rw [Blank.isBlankText, htrim, toList_listText]
    rfl
  have hfault : options.findSome? fault? = none :=
    List.findSome?_eq_none_iff.2 fun o ho => (h o ho).fault?_eq_none
  simp only [ofPlan, hblank, Blank.trim, htrim, String.ofList_toList, ofText?_listText h,
    mapM_ofValue?_memberValues h, hfault, Bool.false_eq_true, if_false]

/-- A switch whose name holds a quote, a backslash and control characters, both ends of the range of
integers, and a text outside the basic plane under an empty name, with white space of every sort around
them. -/
theorem ofPlan_listText_hardNames :
    let options := [ofBool "a\"b\\c\n\x01" true .query, ofLong "min" Word.smallest .session,
      ofLong "max" Word.largest .system, ofString "" "𝄞é\t\x7f" .session]
    (∀ o ∈ options, o.IsMade) ∧ (∀ c ∈ " \n".toList, Json.isSpace c) ∧
      (∀ c ∈ "\t\r ".toList, Json.isSpace c) ∧
      ofPlan (some (" \n" ++ listText options ++ "\t\r ")) = .ok options := by
  intro options
  have hmade : ∀ o ∈ options, o.IsMade := by
    simp only [options, List.forall_mem_cons]
    exact ⟨.bool _ _ _, .long _ _ (by decide), .long _ _ (by decide), .string _ _ _, by simp⟩
  have hfront : ∀ c ∈ " \n".toList, Json.isSpace c := by simp [Json.isSpace]
  have hback : ∀ c ∈ "\t\r ".toList, Json.isSpace c := by simp [Json.isSpace]
  exact ⟨hmade, hfront, hback, ofPlan_listText options hmade _ _ hfront hback⟩

end FragmentHost.PlanOption

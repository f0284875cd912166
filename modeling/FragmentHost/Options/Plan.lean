import FragmentHost.Json.Value
import FragmentHost.Options.Basic
import FragmentHost.Text.Blank
import FragmentHost.Word

/-!
# Options of a plan

A plan may carry a list of options as a text. An option is an object, whose members may stand in any
order and among unknown ones, or a list of its parts in their fixed order, of which the last may be left
off. Name and kind are required. A part that is given must be of the right type even if the kind of the
option does not need it.
-/

namespace FragmentHost

namespace PlanOption

/-- A text. -/
def textOf? : Json.Value → Option String
  | .string (some s) => some s
  | _ => none

/-- A keyword by itself, or as the only member of an object whose value is empty. -/
def keywordOf? : Json.Value → Option String
  | .string (some s) => some s
  | .object [(some s, .null)] => some s
  | _ => none

/-- A kind. -/
def kindOf? (v : Json.Value) : Option OptionKind := (keywordOf? v).bind OptionKind.ofKeyword?

/-- A scope. -/
def scopeOf? (v : Json.Value) : Option OptionScope := (keywordOf? v).bind OptionScope.ofKeyword?

/-- A switch, or nothing. -/
def boolOf? : Json.Value → Option (Option Bool)
  | .null => some none
  | .bool b => some (some b)
  | _ => none

/-- An integer of sixty-four bits, or nothing. Minus zero is no integer. -/
def longOf? : Json.Value → Option (Option Int)
  | .null => some none
  | .number l =>
    match Decimal.integer? l with
    | some n =>
      if Word.smallest ≤ n ∧ n ≤ Word.largest ∧ ¬(l.negative ∧ n = 0) then some (some n)
      else none
    | none => none
  | _ => none

/-- A number, or nothing. -/
def doubleOf? : Json.Value → Option (Option Binary64)
  | .null => some none
  | .number l => (Decimal.read? l).map some
  | _ => none

/-- A text, or nothing. -/
def stringOf? : Json.Value → Option (Option String)
  | .null => some none
  | .string (some s) => some (some s)
  | _ => none

/-- The parts of an option, as far as they were found. -/
structure Parts where
  name : Option String := none
  kind : Option OptionKind := none
  scope : Option OptionScope := none
  bool : Option (Option Bool) := none
  long : Option (Option Int) := none
  double : Option (Option Binary64) := none
  string : Option (Option String) := none

namespace Parts

/-- Fills an empty place with a value of the right type. -/
def fill {α β : Type} (place : Option α) (value : Option α) (finish : Option α → β) : Option β :=
  match place, value with
  | none, some v => some (finish (some v))
  | _, _ => none

/-- Takes one more member. A known one must be of the right type and may occur once. -/
def take (p : Parts) (key : String) (v : Json.Value) : Option Parts :=
  match key with
  | "name" => fill p.name (textOf? v) fun x => { p with name := x }
  | "kind" => fill p.kind (kindOf? v) fun x => { p with kind := x }
  | "type" => fill p.scope (scopeOf? v) fun x => { p with scope := x }
  | "bool_val" => fill p.bool (boolOf? v) fun x => { p with bool := x }
  | "num_val" => fill p.long (longOf? v) fun x => { p with long := x }
  | "float_val" => fill p.double (doubleOf? v) fun x => { p with double := x }
  | "string_val" => fill p.string (stringOf? v) fun x => { p with string := x }
  | _ => some p

/-- Takes the members of an object; every name must be a text. -/
def takeAll (p : Parts) : List (Option String × Json.Value) → Option Parts
  | [] => some p
  | (none, _) :: _ => none
  | (some key, v) :: rest => (p.take key v).bind (takeAll · rest)

/-- The option, if name and kind were found. -/
def finish (p : Parts) : Option PlanOption := do
  let name ← p.name
  let kind ← p.kind
  return { name, kind, scope := p.scope.getD .system, bool := p.bool.getD none,
           long := p.long.getD none, double := p.double.getD none, string := p.string.getD none }

/-- The order of the parts in a list. -/
def order : List String :=
  ["name", "kind", "type", "bool_val", "num_val", "float_val", "string_val"]

end Parts

/-- One element of the list. -/
def ofValue? : Json.Value → Option PlanOption
  | .object members => (Parts.takeAll {} members).bind Parts.finish
  | .list items =>
    -- parts that are left out at the end count as absent
    if items.length ≤ Parts.order.length then
      (Parts.takeAll {} ((Parts.order.map some).zip items)).bind Parts.finish
    else none
  | _ => none

/-- The wording of a list that could not be read. -/
def malformed : Failure := .setup "Failure while reading plan options"

/-- The options of a plan. A missing or blank text has none. Every element is read before any is
examined. -/
def ofPlan (text : Option String) : Except Failure (List PlanOption) :=
  match text with
  | none => .ok []
  | some text =>
    if Blank.isBlankText text then .ok []
    else
      match Json.Value.ofText? (Blank.trim text) with
      | some (.list items) =>
        match items.mapM ofValue? with
        | none => .error malformed
        | some options =>
          match options.findSome? fault? with
          | some fault => .error fault
          | none => .ok options
      | _ => .error malformed

end PlanOption

end FragmentHost

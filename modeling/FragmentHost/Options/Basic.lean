import FragmentHost.Decimal.Binary64
import FragmentHost.Failure

/-!
# Execution options

A named option with a kind and a scope. It has one place for a value of each kind; an option made in the
program fills the place of its kind and no other, one that was read may fill more.
-/

namespace FragmentHost

/-- What sort of value an option has. -/
inductive OptionKind where
  | bool
  | long
  | double
  | string
  deriving DecidableEq, Repr, Inhabited

namespace OptionKind

/-- All kinds. -/
def all : List OptionKind := [bool, long, double, string]

/-- The kind in plans. -/
def keyword : OptionKind → String
  | bool => "BOOL"
  | long => "LONG"
  | double => "DOUBLE"
  | string => "STRING"

/-- The kind in messages. -/
def text : OptionKind → String
  | bool => "Bool"
  | long => "Long"
  | double => "Double"
  | string => "String"

/-- The kind that a keyword names. -/
def ofKeyword? (word : String) : Option OptionKind := all.find? (·.keyword == word)

theorem ofKeyword?_keyword (k : OptionKind) : ofKeyword? k.keyword = some k := by
  cases k <;> decide

end OptionKind

/-- How far an option reaches. -/
inductive OptionScope where
  | system
  | session
  | query
  deriving DecidableEq, Repr, Inhabited

namespace OptionScope

/-- All scopes. -/
def all : List OptionScope := [system, session, query]

/-- The scope in plans. -/
def keyword : OptionScope → String
  | system => "SYSTEM"
  | session => "SESSION"
  | query => "QUERY"

/-- The scope that a keyword names. -/
def ofKeyword? (word : String) : Option OptionScope := all.find? (·.keyword == word)

theorem ofKeyword?_keyword (s : OptionScope) : ofKeyword? s.keyword = some s := by
  cases s <;> decide

end OptionScope

/-- An option with its values. -/
structure PlanOption where
  name : String
  kind : OptionKind
  scope : OptionScope := .system
  bool : Option Bool := none
  long : Option Int := none
  double : Option Binary64 := none
  string : Option String := none
  deriving DecidableEq, Repr, Inhabited

namespace PlanOption

/-- A switch. -/
def ofBool (name : String) (value : Bool) (scope : OptionScope) : PlanOption :=
  { name, kind := .bool, scope, bool := some value }

/-- An integer. -/
def ofLong (name : String) (value : Int) (scope : OptionScope) : PlanOption :=
  { name, kind := .long, scope, long := some value }

/-- A number. -/
def ofDouble (name : String) (value : Binary64) (scope : OptionScope) : PlanOption :=
  { name, kind := .double, scope, double := some value }

/-- A text. -/
def ofString (name value : String) (scope : OptionScope) : PlanOption :=
  { name, kind := .string, scope, string := some value }

/-- The place of kind `k` is filled. -/
def has (o : PlanOption) (k : OptionKind) : Bool :=
  match k with
  | .bool => o.bool.isSome
  | .long => o.long.isSome
  | .double => o.double.isSome
  | .string => o.string.isSome

/-- An option without a value of its own kind is at fault. -/
def fault? (o : PlanOption) : Option Failure :=
  if o.has o.kind then none
  else some (.setup ("option " ++ o.name ++ " of kind " ++ o.kind.text ++ " carries no value"))

end PlanOption

end FragmentHost

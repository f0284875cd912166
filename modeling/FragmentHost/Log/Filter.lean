import FragmentHost.Log.Level
import FragmentHost.Text.Split

/-!
# Log filters

A filter is a list of rules. A rule lets the events of some part of the node through down to a level, or
none at all. The rule for the longest name with which the name of the part begins decides; a rule
without a name holds for every part.
-/

namespace FragmentHost

/-- A rule: the events whose source begins with `source` pass down to `level`; without a level none
does. -/
structure LogRule where
  source : String
  level : Option LogLevel
  deriving DecidableEq, Repr, Inhabited

namespace LogRule

/-- The rule covers the events of `source`. -/
def covers (r : LogRule) (source : String) : Bool := r.source.toList.isPrefixOf source.toList

/-- What a word says about levels: a level, or that nothing passes. -/
def levelOfWord? (word : String) : Option (Option LogLevel) :=
  if word.map Char.toLower = "off" then some none else (LogLevel.ofWord? word).map some

/-- The rule that one part of a filter states: a level for everything, a name with a level, or a name
alone, from which everything passes. -/
def ofText? (part : String) : Option LogRule :=
  match levelOfWord? part with
  | some level => some ⟨"", level⟩
  | none =>
    match Split.text '=' part with
    | [source] => some ⟨source, some .trace⟩
    | [source, word] => (levelOfWord? word).map (⟨source, ·⟩)
    | _ => none

end LogRule

/-- The rules in the order in which they were stated. -/
abbrev LogFilter := List LogRule

namespace LogFilter

/-- The filter of a text, whose parts are separated by commas. Without any rule errors pass. -/
def ofText (s : String) : LogFilter :=
  match ((Split.text ',' s).filter (· ≠ "")).filterMap LogRule.ofText? with
  | [] => [⟨"", some .error⟩]
  | rules => rules

/-- Of two rules the one that decides: the one with the longer name, the later of equally long ones. -/
def closer (best : Option LogRule) (r : LogRule) : Option LogRule :=
  match best with
  | none => some r
  | some b => if b.source.length ≤ r.source.length then some r else some b

/-- The rule that decides about the events of `source`. -/
def ruleFor? (f : LogFilter) (source : String) : Option LogRule :=
  (f.filter (·.covers source)).foldl closer none

/-- Events of `level` from `source` pass. -/
def passes (f : LogFilter) (source : String) (level : LogLevel) : Bool :=
  match (f.ruleFor? source).bind (·.level) with
  | some most => level.rank ≤ most.rank
  | none => false

end LogFilter

end FragmentHost

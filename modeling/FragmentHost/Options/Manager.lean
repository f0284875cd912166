import FragmentHost.Dictionary
import FragmentHost.Options.Basic

/-!
# Option managers

The options in force are looked up in layers. At the bottom lie the options of the node, which may be
set at any time; above it any number of fixed lists of overrides. The topmost layer that knows a name
decides, even if its option lacks the value that is asked for.
-/

namespace FragmentHost

/-- The options of a node. -/
abbrev NodeOptions := Dictionary PlanOption

namespace NodeOptions

/-- Sets an option in place of one of the same name. -/
def set (options : NodeOptions) (o : PlanOption) : NodeOptions := options.put o.name o

end NodeOptions

/-- The overrides of one layer; of several with one name the last counts. -/
abbrev Overrides := Dictionary PlanOption

namespace Overrides

/-- The overrides of a list. -/
def ofList (options : List PlanOption) : Overrides :=
  options.foldl (fun d o => Dictionary.put d o.name o) []

end Overrides

/-- Layers of overrides, the topmost first, above the options of node manager `base`. -/
structure OptionStack where
  layers : List Overrides := []
  base : Nat
  deriving DecidableEq, Repr, Inhabited

namespace OptionStack

/-- The option in force, where `node` is the state of the bottom layer. -/
def find? (s : OptionStack) (node : NodeOptions) (name : String) : Option PlanOption :=
  match s.layers.findSome? (·.get? name) with
  | some o => some o
  | none => Dictionary.get? node name

/-- One more layer on top. -/
def push (s : OptionStack) (overrides : Overrides) : OptionStack :=
  { s with layers := overrides :: s.layers }

end OptionStack

/-- The answer to a look-up by name: the option and the value of each of its places. -/
structure OptionLookup where
  option : Option PlanOption
  deriving DecidableEq, Repr

namespace OptionLookup

/-- The value as a switch. -/
def bool (l : OptionLookup) : Option Bool := l.option.bind (·.bool)

/-- The value as an integer. -/
def long (l : OptionLookup) : Option Int := l.option.bind (·.long)

/-- The value as a number. -/
def double (l : OptionLookup) : Option Binary64 := l.option.bind (·.double)

/-- The value as a text. -/
def string (l : OptionLookup) : Option String := l.option.bind (·.string)

end OptionLookup

end FragmentHost

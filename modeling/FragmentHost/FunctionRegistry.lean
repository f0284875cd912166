import FragmentHost.Dictionary
import FragmentHost.Text.LowerCase

/-!
# Function registry

The functions that operators may call. Names that differ only in case name the same functions; the
overloads of a name keep the order in which they were first registered.
-/

namespace FragmentHost

/-- The name of a function with the types of its arguments and of its result. -/
structure FunctionSignature where
  name : String
  arguments : List String
  result : String
  deriving DecidableEq, Repr, Inhabited

/-- The overloads of each lower-case name. -/
abbrev FunctionRegistry := Dictionary (List FunctionSignature)

namespace FunctionRegistry

/-- The key under which a name is kept. -/
def key (name : String) : String := LowerCase.ofString name

/-- Registers a function, unless the very same signature is known. -/
def register (r : FunctionRegistry) (s : FunctionSignature) : FunctionRegistry :=
  Dictionary.alter (key s.name)
    (fun known =>
      let known := known.getD []
      if known.contains s then known else known ++ [s]) r

/-- The overloads of a name. -/
def lookup (r : FunctionRegistry) (name : String) : List FunctionSignature :=
  (Dictionary.get? r (key name)).getD []

/-- The overload of a name that takes exactly these types. -/
def resolve (r : FunctionRegistry) (name : String) (arguments : List String) :
    Option FunctionSignature :=
  (r.lookup name).find? (·.arguments == arguments)

/-- The number of names. -/
def size (r : FunctionRegistry) : Nat := r.length

end FunctionRegistry

end FragmentHost

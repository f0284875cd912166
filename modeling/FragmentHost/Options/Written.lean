import FragmentHost.Decimal.Shortest
import FragmentHost.Json.Quoting
import FragmentHost.Options.Basic

/-!
# Written options

The text of an option in a plan: one object without blanks, the name first, then kind and scope, then
the places that are filled. Numbers have the fewest digits that read back. They are written with a
point as long as it stands at most sixteen places after the first digit and at most four before it, and
with a signed exponent otherwise; what is no number is written as nothing.
-/

namespace FragmentHost

namespace Decimal

/-- The digits of a number in base ten. -/
def digitChars (n : Nat) : List Char := (toString n).toList

/-- The digits of a power of ten behind its sign, which is always written. -/
def signedChars (e : Int) : List Char :=
  (if e < 0 then '-' else '+') :: digitChars e.natAbs

/-- The text of a decimal. The point stands `point` places after the first digit. -/
def layout (s : Scientific) : List Char :=
  let ds := digitChars s.digits
  let point : Int := ds.length + s.exponent
  if 0 ≤ s.exponent ∧ point ≤ 16 then
    ds ++ List.replicate s.exponent.toNat '0' ++ ['.', '0']
  else if 0 < point ∧ point ≤ 16 then
    ds.take point.toNat ++ '.' :: ds.drop point.toNat
  else if -5 < point ∧ point ≤ 0 then
    ['0', '.'] ++ List.replicate (-point).toNat '0' ++ ds
  else
    let power := signedChars (point - 1)
    match ds with
    | [] => []
    | [d] => d :: 'e' :: power
    | d :: rest => d :: '.' :: rest ++ 'e' :: power

/-- The text of a number. -/
def written (x : Binary64) : List Char :=
  if x.isFinite then
    let body := if x.magnitude = 0 then ['0', '.', '0'] else layout (shortest x.magnitude)
    if x.negative then '-' :: body else body
  else ['n', 'u', 'l', 'l']

end Decimal

namespace PlanOption

/-- One member of the object. -/
def member (name : String) (value : List Char) : List Char :=
  Json.quote name.toList ++ ':' :: value

/-- The members that are written, in order. -/
def members (o : PlanOption) : List (List Char) :=
  [member "name" (Json.quote o.name.toList), member "kind" (Json.quote o.kind.keyword.toList),
   member "type" (Json.quote o.scope.keyword.toList)] ++
  (o.bool.map fun b => member "bool_val" (toString b).toList).toList ++
  (o.long.map fun n => member "num_val" (toString n).toList).toList ++
  (o.double.map fun x => member "float_val" (Decimal.written x)).toList ++
  (o.string.map fun s => member "string_val" (Json.quote s.toList)).toList

/-- The characters of the object. -/
def writtenChars (o : PlanOption) : List Char :=
  '\x7b' :: [','].intercalate o.members ++ ['\x7d']

/-- The text of an option. -/
def written (o : PlanOption) : String := String.ofList o.writtenChars

end PlanOption

end FragmentHost

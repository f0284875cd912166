import FragmentHost.Failure
import FragmentHost.Time.Zone

/-!
# The time of a query

When a query started, in milliseconds from the first of January 1970, and the zone of the session that
submitted it. Instants are written as date, time of day and offset.
-/

namespace FragmentHost

/-- The start of a query and the zone of its session, which is known by its name. -/
structure QueryTime where
  millis : Int
  zone : String
  deriving DecidableEq, Repr, Inhabited

namespace QueryTime

/-- The earliest instant. -/
def earliest : Int := -8334601228800000

/-- The latest instant. -/
def latest : Int := 8210266876799999

/-- The time of a query. The zone is examined first. -/
def make (zones : ZoneTable) (millis : Int) (zone : String) : Except Failure QueryTime :=
  match zones zone with
  | none => .error (.setup ("unknown time zone " ++ zone))
  | some _ =>
    if earliest ≤ millis ∧ millis ≤ latest then .ok { millis, zone }
    else .error (.setup ("query start time " ++ toString millis ++ " out of range"))

/-- The digits of a natural number with zeros in front up to a width. -/
def padded (width n : Nat) : String :=
  let ds := (toString n).toList
  String.ofList (List.replicate (width - ds.length) '0' ++ ds)

/-- Years of four digits stand by themselves, others have a sign. -/
def yearText (y : Int) : String :=
  if 0 ≤ y ∧ y ≤ 9999 then padded 4 y.natAbs
  else (if y < 0 then "-" else "+") ++ padded 4 y.natAbs

/-- An offset in hours and minutes, rounded to the nearest minute. -/
def offsetText (seconds : Int) : String :=
  let minutes := (seconds.natAbs + 30) / 60
  (if seconds < 0 then "-" else "+") ++ padded 2 (minutes / 60) ++ ":" ++ padded 2 (minutes % 60)

/-- The text of an instant as clocks show it that are `offset` seconds ahead. -/
def stamp (millis offset : Int) : String :=
  let seconds := millis / 1000 + offset
  let fraction := (millis % 1000).toNat
  let date := Date.ofDays (seconds / 86400)
  let second := (seconds % 86400).toNat
  yearText date.year ++ "-" ++ padded 2 date.month.toNat ++ "-" ++ padded 2 date.day.toNat ++
    "T" ++ padded 2 (second / 3600) ++ ":" ++ padded 2 (second / 60 % 60) ++ ":" ++
    padded 2 (second % 60) ++
    (if fraction = 0 then "" else "." ++ padded 3 fraction) ++ offsetText offset

/-- The start in universal time. -/
def startText (q : QueryTime) : String := stamp q.millis 0

/-- The start by the clocks of the session; a zone that is not in the table counts as universal time. -/
def localText (zones : ZoneTable) (q : QueryTime) : String :=
  stamp q.millis ((zones q.zone).elim 0 (· (q.millis / 1000)))

end QueryTime

end FragmentHost

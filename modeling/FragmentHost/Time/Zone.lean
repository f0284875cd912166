import FragmentHost.Time.Calendar

/-!
# Time zones

How far the clocks of a zone are ahead of universal time. Which zones there are is a `ZoneTable`, and a
host is given one; nothing here says what is in it. `Zone.table` is one such table, of some zones with
their rules. A zone has a standard offset. Some had an offset of their own before clocks were made uniform,
and some put their clocks forward for a part of each year, between two Sundays. The changes are known up to
a last year, whose last offset stays.
-/

namespace FragmentHost

/-- The zones that are known, by names that must be spelled exactly: for each how far its clocks are ahead
of universal time at an instant, both in seconds. -/
abbrev ZoneTable := String → Option (Int → Int)

/-- Which clock a time of change is read from. -/
inductive ZoneClock where
  | universal
  | standard
  | daylight
  deriving DecidableEq, Repr, Inhabited

/-- A yearly change: the first Sunday on or after a day of some month, at a time of some clock. -/
structure ZoneChange where
  month : Int
  day : Int
  seconds : Int
  clock : ZoneClock
  deriving DecidableEq, Repr, Inhabited

/-- The part of the year in which clocks are ahead, from the first year in which this holds. -/
structure DaylightTime where
  saving : Int
  since : Int
  start : ZoneChange
  finish : ZoneChange
  deriving DecidableEq, Repr, Inhabited

/-- The rules of a zone. -/
structure Zone where
  /-- Seconds ahead of universal time. -/
  standard : Int
  daylight : Option DaylightTime := none
  /-- The offset before some instant, which comes first. -/
  before : Option (Int × Int) := none
  deriving DecidableEq, Repr, Inhabited

namespace Zone

/-- The last year whose changes are known. -/
def lastYear : Int := 2037

/-- The instant of a change in some year, in seconds. -/
def changeAt (z : Zone) (saving : Int) (c : ZoneChange) (year : Int) : Int :=
  let offset :=
    match c.clock with
    | .universal => 0
    | .standard => z.standard
    | .daylight => z.standard + saving
  Date.sundayFrom ⟨year, c.month, c.day⟩ * 86400 + c.seconds - offset

/-- Clocks are ahead at instant `t` of some year. -/
def isAhead (z : Zone) (d : DaylightTime) (year t : Int) : Bool :=
  let start := z.changeAt d.saving d.start year
  let finish := z.changeAt d.saving d.finish year
  if start < finish then start ≤ t && t < finish else start ≤ t || t < finish

/-- The offset at an instant, both in seconds. -/
def offsetAt (z : Zone) (t : Int) : Int :=
  match z.before with
  | some (instant, offset) => if t < instant then offset else regular
  | none => regular
where
  regular : Int :=
    match z.daylight with
    | none => z.standard
    | some d =>
      let year := (Date.ofDays ((t + z.standard) / 86400)).year
      if year < d.since then z.standard
      -- the last change that is known decides for good
      else if lastYear < year then
        if z.changeAt d.saving d.start lastYear < z.changeAt d.saving d.finish lastYear then
          z.standard
        else z.standard + d.saving
      else if z.isAhead d year t then z.standard + d.saving
      else z.standard

/-- Hours, minutes and seconds as seconds. -/
def hms (h m s : Int) : Int := h * 3600 + m * 60 + s

/-- The same offset always. -/
def fixed (h m : Int) : Zone := { standard := hms h m 0 }

/-- From the second Sunday of March to the first of November, at two by the local clock. -/
def americanSummer : DaylightTime :=
  { saving := 3600, since := 2007
    start := ⟨3, 8, hms 2 0 0, .standard⟩, finish := ⟨11, 1, hms 2 0 0, .daylight⟩ }

/-- From the last Sunday of March to the last of October, at one everywhere at once. -/
def europeanSummer : DaylightTime :=
  { saving := 3600, since := 1996
    start := ⟨3, 25, hms 1 0 0, .universal⟩, finish := ⟨10, 25, hms 1 0 0, .universal⟩ }

/-- From the first Sunday of October to the first of April, at two by the standard clock. -/
def australianSummer (saving : Int) : DaylightTime :=
  { saving, since := 2008
    start := ⟨10, 1, hms 2 0 0, .standard⟩, finish := ⟨4, 1, hms 2 0 0 + saving, .daylight⟩ }

/-- From the last Sunday of September to the first of April. -/
def chathamSummer : DaylightTime :=
  { saving := 3600, since := 2007
    start := ⟨9, 24, hms 2 45 0, .standard⟩, finish := ⟨4, 1, hms 3 45 0, .daylight⟩ }

/-- The zone of Tokyo. -/
def tokyo : Zone := { standard := hms 9 0 0, before := some (-2587712400, hms 9 18 59) }

/-- The zone of Los Angeles. -/
def losAngeles : Zone :=
  { standard := hms (-8) 0 0, daylight := some americanSummer
    before := some (-2717640000, -(hms 7 52 58)) }

/-- The zone of New York. -/
def newYork : Zone :=
  { standard := hms (-5) 0 0, daylight := some americanSummer
    before := some (-2717650800, -(hms 4 56 2)) }

/-- The zones by name. -/
def named : List (String × Zone) :=
  [("UTC", fixed 0 0), ("Etc/UTC", fixed 0 0), ("GMT", fixed 0 0), ("Zulu", fixed 0 0),
   ("Etc/GMT+5", fixed (-5) 0), ("Etc/GMT-14", fixed 14 0), ("Etc/GMT+12", fixed (-12) 0),
   ("Asia/Tokyo", tokyo), ("Japan", tokyo),
   ("Asia/Shanghai", fixed 8 0),
   ("Asia/Kolkata", fixed 5 30), ("Asia/Calcutta", fixed 5 30),
   ("Asia/Kathmandu", fixed 5 45), ("Australia/Eucla", fixed 8 45),
   ("America/Los_Angeles", losAngeles), ("US/Pacific", losAngeles),
   ("America/New_York", newYork),
   ("America/St_Johns",
     { standard := -(hms 3 30 0), daylight := some americanSummer }),
   ("Europe/London", { standard := 0, daylight := some europeanSummer }),
   ("Europe/Berlin", { standard := hms 1 0 0, daylight := some europeanSummer }),
   ("Australia/Sydney",
     { standard := hms 10 0 0, daylight := some (australianSummer 3600) }),
   ("Australia/Lord_Howe",
     { standard := hms 10 30 0
       daylight := some
         { australianSummer 1800 with finish := ⟨4, 1, hms 2 0 0, .daylight⟩ } }),
   ("Pacific/Chatham", { standard := hms 12 45 0, daylight := some chathamSummer }),
   ("Pacific/Apia", { standard := hms 14 0 0, before := some (1325239200, hms (-10) 0 0) })]

/-- The table of these zones. -/
def table : ZoneTable := fun name => (named.lookup name).map offsetAt

end Zone

end FragmentHost

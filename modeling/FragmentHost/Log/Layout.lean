import FragmentHost.Log.Event
import FragmentHost.Text.Lines

/-!
# The layout of the log

A record is written as a front, which ends in a bracket and a blank, and its text. The front has the mark
of the level, the date and the time, the number of the thread, and the file and line that made the event.
Who reads a log takes the lines apart again by this layout alone: a text of several lines gives lines
without a front, and one that looks like a front is taken for one.
-/

namespace FragmentHost

/-- The end of a front. -/
def LogRecord.frontEnd : String := "] "

/-- The part of a front between the mark and its end. Moments, threads and places are not known here, so
that all records share it. -/
def LogRecord.origin : String := "00000000 00:00:00.000000 0 node:0"

/-- A record as it is written. -/
def LogRecord.written (r : LogRecord) : String :=
  r.level.mark.toString ++ origin ++ frontEnd ++ r.text ++ "\n"

/-- A line of a log: the mark of its front, if it has one, and what follows the front. -/
structure LogLine where
  mark : Option Char
  text : String
  deriving DecidableEq, Repr, Inhabited

namespace LogLine

/-- Numbers of threads are words of 64 bits. -/
def threadLimit : Nat := 18446744073709551616

/-- Numbers of lines are words of 32 bits. -/
def lineLimit : Nat := 4294967296

/-- The text agrees with a form, in which a zero stands for any digit. -/
def fits : (form text : List Char) → Bool
  | [], [] => true
  | f :: form, c :: text => (if f = '0' then c.isDigit else c = f) && fits form text
  | _, _ => false

/-- A number with digits only, or with a plus before them, that is below `limit`. -/
def isNumberBelow (limit : Nat) (cs : List Char) : Bool :=
  let digits := if cs.head? = some '+' then cs.tail else cs
  let value := digits.foldl (fun n c => 10 * n + (c.toNat - '0'.toNat)) 0
  !digits.isEmpty && digits.all Char.isDigit && value < limit

/-- A file, which may have any name, and the number of a line behind the last colon. -/
def isFileLine (cs : List Char) : Bool :=
  let (number, file) := cs.reverse.span (· ≠ ':')
  !file.isEmpty && isNumberBelow lineLimit number.reverse

/-- The mark of a front without its end. There are four parts with single blanks between them. -/
def markOfFront? (front : List Char) : Option Char :=
  match Split.chars ' ' front with
  | [mark :: date, time, thread, place] =>
    if mark.isUpper && fits "00000000".toList date && fits "00:00:00.000000".toList time &&
        isNumberBelow threadLimit thread && isFileLine place
    then some mark
    else none
  | _ => none

/-- The text before and after the first end of a front. -/
def splitFront? : List Char → Option (List Char × List Char)
  | [] => none
  | ']' :: ' ' :: rest => some ([], rest)
  | c :: rest => (splitFront? rest).map fun (front, text) => (c :: front, text)

/-- Takes a line apart. -/
def ofText (s : String) : LogLine :=
  match splitFront? s.toList with
  | none => ⟨none, s⟩
  | some (front, text) =>
    match markOfFront? front with
    | none => ⟨none, s⟩
    | some mark => ⟨some mark, String.ofList text⟩

/-- The lines of a log. -/
def ofLog (s : String) : List LogLine := (Lines.ofText s).map ofText

end LogLine

end FragmentHost

import FragmentHost.Text.Split

/-!
# Lines of text

A line goes up to a line feed. A carriage return right before the line feed belongs to the end of the
line; anywhere else it is an ordinary character. What follows the last line feed is a line as well,
unless nothing does.
-/

namespace FragmentHost.Lines

/-- A line without the carriage return at its end. -/
def withoutReturn (cs : List Char) : List Char :=
  if cs.getLast? = some '\r' then cs.dropLast else cs

/-- The lines of a text. -/
def ofText (s : String) : List String :=
  let parts := Split.chars '\n' s.toList
  let ended := parts.dropLast.map withoutReturn
  let rest := (parts.getLast?.toList).filter (· ≠ [])
  (ended ++ rest).map String.ofList

end FragmentHost.Lines

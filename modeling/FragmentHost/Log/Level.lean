/-!
# Log levels

How urgent an event is, from errors down to traces.
-/

namespace FragmentHost

/-- The urgency of an event. -/
inductive LogLevel where
  | error
  | warn
  | info
  | debug
  | trace
  deriving DecidableEq, Repr, Inhabited

namespace LogLevel

/-- The place in the order, the most urgent first. -/
def rank : LogLevel → Nat
  | error => 1
  | warn => 2
  | info => 3
  | debug => 4
  | trace => 5

/-- The mark at the front of a line. -/
def mark : LogLevel → Char
  | error => 'E'
  | warn => 'W'
  | info => 'I'
  | debug => 'D'
  | trace => 'T'

/-- The name in filters, in small letters. -/
def keyword : LogLevel → String
  | error => "error"
  | warn => "warn"
  | info => "info"
  | debug => "debug"
  | trace => "trace"

/-- All levels. -/
def all : List LogLevel := [error, warn, info, debug, trace]

/-- The level that a word names in letters of either case. -/
def ofWord? (word : String) : Option LogLevel :=
  all.find? (·.keyword == word.map Char.toLower)

end LogLevel

end FragmentHost

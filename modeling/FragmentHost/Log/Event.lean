import FragmentHost.Log.Filter
import FragmentHost.Text.Hex

/-!
# Log events

An event has a level, a source and a message. It may happen inside spans of work, which are named in
front of the message if the filter lets them through as well.
-/

namespace FragmentHost

/-- The names under which the parts of a node log. -/
inductive LogSource where
  | allocators
  | buffers
  | tunnels
  | contexts
  | failures
  /-- The program that drives the node. -/
  | driver
  deriving DecidableEq, Repr, Inhabited

namespace LogSource

/-- The name that filters refer to. -/
def text : LogSource → String
  | allocators => "fragexec::runtime::mem_tracker"
  | buffers => "fragexec::runtime::buffer_manager"
  | tunnels => "fragexec::runtime::tunnel"
  | contexts => "fragexec::runtime::fragment_context"
  | failures => "fragexec::runtime::deferred_error"
  | driver => "driver"

end LogSource

/-- Something worth a record in the log. -/
structure LogEvent where
  level : LogLevel
  source : LogSource
  message : String
  deriving DecidableEq, Repr, Inhabited

namespace LogEvent

/-- The characters below 128 that can steer a terminal. Line ends and tabs are not among them. -/
def steering : List Char := ['\x07', '\x08', '\x0c', '\x1b', '\x7f']

/-- A character of a message as it is written. What can steer a terminal is spelled out. -/
def writtenChar (c : Char) : List Char :=
  if c ∈ steering then '\\' :: 'x' :: Hex.digits 2 c.toNat
  else if 0x80 ≤ c.toNat ∧ c.toNat ≤ 0x9f then
    ['\\', 'u', '\x7b'] ++ Hex.shortest c.toNat ++ ['\x7d']
  else [c]

/-- The message as it is written. -/
def writtenMessage (e : LogEvent) : String := String.ofList (e.message.toList.flatMap writtenChar)

end LogEvent

/-- A span of work during which events happen. -/
structure LogSpan where
  source : LogSource
  label : String
  deriving DecidableEq, Repr, Inhabited

/-- The label of a span in front of a message. Unlike the message it is written as it is. -/
def LogSpan.written (s : LogSpan) : String := "\x7b" ++ s.label ++ "\x7d "

/-- What the log keeps of an event: the level, and the message behind the spans. -/
structure LogRecord where
  level : LogLevel
  text : String
  deriving DecidableEq, Repr, Inhabited

namespace LogFilter

/-- The event passes. -/
def admits (f : LogFilter) (e : LogEvent) : Bool := f.passes e.source.text e.level

/-- The span passes; spans have the level of information. -/
def admitsSpan (f : LogFilter) (s : LogSpan) : Bool := f.passes s.source.text .info

/-- The record of an event inside spans, the outermost span first, if the event passes. -/
def record? (f : LogFilter) (spans : List LogSpan) (e : LogEvent) : Option LogRecord :=
  if f.admits e then
    let front := String.join ((spans.filter f.admitsSpan).map (·.written))
    some ⟨e.level, front ++ e.writtenMessage⟩
  else none

end LogFilter

end FragmentHost

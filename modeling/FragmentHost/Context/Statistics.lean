import FragmentHost.Identity
import FragmentHost.Profile.MemoryChart

/-!
# Statistics of a fragment

A fragment keeps its statistics in a profile: where it runs, the time and memory it takes, and a node
with two counters for each of its operators. Operators of one type and number share a node.
-/

namespace FragmentHost

/-- An operator of a fragment. -/
structure Operator where
  id : Int
  type : String
  deriving DecidableEq, Repr, Inhabited

namespace Operator

/-- The name of the node with the counters of the operator. -/
def node (o : Operator) : String := o.type ++ " (id=" ++ toString o.id ++ ")"

/-- The counter of records. -/
def records : String := "RecordsProcessed"

/-- The counter of batches. -/
def batches : String := "BatchesProcessed"

/-- The profile of a fragment with the counters of the operator in it. -/
def enter (o : Operator) (p : Profile) : Profile :=
  (p.ensureChild o.node).modifyChild o.node fun c =>
    (c.ensureCounter records .count).ensureCounter batches .count

/-- Counts one batch of records. -/
def addBatch (o : Operator) (n : Int) (p : Profile) : Profile :=
  p.modifyChild o.node fun c => (c.addTo batches .count 1).addTo records .count n

/-- The value of a counter of the operator. -/
def total (o : Operator) (counter : String) (p : Profile) : Int :=
  ((p.child? o.node).bind (·.value? counter)).getD 0

end Operator

namespace FragmentProfile

/-- The profile of a fragment that was just made. -/
def start (h : FragmentHandle) (assignment : Endpoint) : Profile :=
  ((Profile.empty h.ownerText).setInfo "Endpoint" assignment.text).setInfo "QueryId" h.query.text

/-- The profile with the time that has passed and the memory of the fragment as it stands. -/
def refresh (p : Profile) (elapsed : Int) (memory : Outline) : Profile :=
  match memory with
  | .node _ current peak _ =>
    (((p.setTo "ElapsedTime" .nanoseconds elapsed).setTo "MemoryUsed" .bytes current).setTo
      "MaxMemoryUsed" .bytes peak).attachMemory memory

end FragmentProfile

end FragmentHost

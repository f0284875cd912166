import FragmentHost.Memory.Outline
import FragmentHost.Profile.Basic

/-!
# Memory charts

A profile can show an allocator and the live allocators below it as a subtree of nodes named by their
labels. Nodes are made where they are missing and never removed; what the chart does not concern keeps
its content.
-/

namespace FragmentHost.Profile

/-- The node under which the allocators appear. -/
def chartNode : String := "MemTracker"

/-- Writes the three entries of one allocator into a node. -/
def chartEntry (p : Profile) (label : String) (current peak : Int) : Profile :=
  ((p.setInfo "Label" label).setTo "CurrentMemoryBytes" .bytes current).setTo
    "PeakMemoryBytes" .bytes peak

mutual

/-- Writes an outline into a node: the entries of the allocator, then its children. -/
def chart (p : Profile) : Outline → Profile
  | .node label current peak children => chartAll (p.chartEntry label current peak) children

/-- Writes outlines into the children that carry their labels, one after the other. -/
def chartAll (p : Profile) : List Outline → Profile
  | [] => p
  | .node label current peak children :: rest =>
    chartAll
      ((p.ensureChild label).modifyChild label fun c =>
        chartAll (c.chartEntry label current peak) children)
      rest

end

/-- Writes an allocator tree below the node for memory. -/
def attachMemory (p : Profile) (o : Outline) : Profile :=
  (p.ensureChild chartNode).modifyChild chartNode fun c => c.chart o

end FragmentHost.Profile

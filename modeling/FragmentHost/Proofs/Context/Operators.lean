import FragmentHost.Context.Statistics
import FragmentHost.Proofs.Profile.Nodes
import FragmentHost.Proofs.Text.Parts
import Mathlib.Algebra.Order.Ring.Int

/-!
# Operators in a profile

Operators are told apart by the names of their nodes alone. The number of an operator stands behind the last
equals sign of the name, whatever the text of its type is, so that no two operators have the same node
(`node_inj`), and the closing bracket keeps all of them away from the node for memory (`node_ne_chartNode`).
So the profile of a fragment has for each operator a node with nothing but the totals of what was reported for
it (`Reports.Shown`), and each step on the profile keeps it so.
-/

namespace FragmentHost

namespace Operator

/-- The number stands behind the last equals sign. -/
theorem toList_node (o : Operator) : o.node.toList =
    (o.type.toList ++ [' ', '(', 'i', 'd']) ++ '=' :: ((toString o.id).toList ++ [')']) := by
  simp [node]

theorem node_injective {o p : Operator} (h : o.node = p.node) : o = p := by
  have hlast (q : Operator) : '=' ∉ (toString q.id).toList ++ [')'] := by
    have hid : '=' ∉ (toString q.id).toList := Parts.notMem_toString (by decide) (by decide) q.id
    rw [List.mem_append, not_or]
    exact ⟨hid, by decide⟩
  have hlist : o.node.toList = p.node.toList := congrArg String.toList h
  rw [toList_node, toList_node] at hlist
  obtain ⟨htype, hid⟩ := Parts.eq_of_append_cons_last (hlast o) (hlast p) hlist
  obtain ⟨id, type⟩ := o
  obtain ⟨id', type'⟩ := p
  obtain rfl : type = type' := String.toList_injective (List.append_cancel_right htype)
  obtain rfl : id = id' := Parts.toString_injective (String.toList_injective (List.append_cancel_right hid))
  rfl

/-- Operators have the same node if they are the same. -/
theorem node_inj {o p : Operator} : o.node = p.node ↔ o = p := ⟨node_injective, congrArg node⟩

theorem node_ne_chartNode (o : Operator) : o.node ≠ Profile.chartNode := by
  intro h
  have hlast : o.node.toList.getLast? = Profile.chartNode.toList.getLast? := by rw [h]
  rw [toList_node, ← List.cons_append, ← List.append_assoc, List.getLast?_concat] at hlast
  exact absurd hlast (by decide)

theorem batches_ne_records : batches ≠ records := by decide

end Operator

-- ---------------------------------------------------------------------------
-- What was reported
-- ---------------------------------------------------------------------------

/-- What was reported to a fragment: the operators that it was asked for, and the records of each batch with the
operator that it came from. -/
structure Reports where
  operators : List Operator := []
  batches : List (Operator × Int) := []
  deriving DecidableEq, Repr

namespace Reports

/-- One more operator. -/
def addOperator (r : Reports) (o : Operator) : Reports := { r with operators := r.operators ++ [o] }

/-- One more batch, through the handle with this number; nothing without such a handle. -/
def addBatch (r : Reports) (handle : Nat) (n : Int) : Reports :=
  { r with batches := r.batches ++ (r.operators[handle]?.map fun o => (o, n)).toList }

/-- The records of the batches of an operator, batch by batch. -/
def recordsOf (r : Reports) (o : Operator) : List Int := (r.batches.filter (·.1 = o)).map (·.2)

/-- The node of an operator: its two totals and nothing else. -/
def node (r : Reports) (o : Operator) : Profile :=
  .node o.node []
    [(Operator.records, ⟨.count, Word.wrap (r.recordsOf o).sum⟩),
      (Operator.batches, ⟨.count, Word.wrap (r.recordsOf o).length⟩)]
    []

/-- The operators have their nodes in the profile. -/
structure Shown (r : Reports) (p : Profile) : Prop where
  child : ∀ o, p.child? o.node = if o ∈ r.operators then some (r.node o) else none
  /-- Batches come from operators that there are. -/
  known : ∀ b ∈ r.batches, b.1 ∈ r.operators

variable {r : Reports} {p : Profile} {o : Operator} {handle : Nat} {n : Int}

theorem recordsOf_eq_nil (h : r.Shown p) (ho : o ∉ r.operators) : r.recordsOf o = [] := by
  have hnone : r.batches.filter (·.1 = o) = [] := by
    rw [List.filter_eq_nil_iff]
    intro b hb
    simpa using fun heq : b.1 = o => ho (heq ▸ h.known b hb)
  rw [recordsOf, hnone, List.map_nil]

theorem addBatch_of_none (hnone : r.operators[handle]? = none) : r.addBatch handle n = r := by
  rw [addBatch, hnone, Option.map_none, Option.toList_none, List.append_nil]

theorem batches_addBatch (ho : r.operators[handle]? = some o) :
    (r.addBatch handle n).batches = r.batches ++ [(o, n)] := by
  rw [addBatch, ho]
  rfl

/-- A batch is one of the operator that it came from and of no other. -/
theorem recordsOf_addBatch (ho : r.operators[handle]? = some o) (other : Operator) :
    (r.addBatch handle n).recordsOf other =
      r.recordsOf other ++ if other = o then [n] else [] := by
  rw [recordsOf, batches_addBatch ho, List.filter_append, List.map_append, ← recordsOf]
  congr 1
  split
  · next heq => simp [heq]
  · next hne => simp [Ne.symm hne]

-- ---------------------------------------------------------------------------
-- Steps on the profile
-- ---------------------------------------------------------------------------

theorem Shown.start (h : FragmentHandle) (assignment : Endpoint) :
    ({} : Reports).Shown (FragmentProfile.start h assignment) :=
  ⟨fun _ => rfl, by simp⟩

/-- What becomes of the node of an operator that is asked for. -/
def withCounters (c : Profile) : Profile :=
  (c.ensureCounter Operator.records .count).ensureCounter Operator.batches .count

theorem withCounters_empty (h : r.recordsOf o = []) : withCounters (.empty o.node) = r.node o := by
  rw [node, h]
  rfl

/-- An operator that is asked for again keeps its totals. -/
theorem withCounters_node (r : Reports) (o : Operator) : withCounters (r.node o) = r.node o := by
  rfl

theorem Shown.enter (h : r.Shown p) (o : Operator) : (r.addOperator o).Shown (o.enter p) := by
  refine ⟨fun other => ?_, fun b hb => List.mem_append_left [o] (h.known b hb)⟩
  have hchild : (o.enter p).child? other.node = if other.node = o.node then
      some (withCounters ((p.child? o.node).getD (.empty o.node))) else p.child? other.node :=
    Profile.child?_enter p o.node other.node fun _ => rfl
  rw [hchild, h.child other]
  simp only [Operator.node_inj, addOperator, List.mem_append, List.mem_singleton]
  by_cases heq : other = o
  · subst heq
    rw [if_pos rfl, if_pos (Or.inr rfl), h.child other]
    have hnode : (r.addOperator other).node other = r.node other := rfl
    rw [← addOperator, hnode]
    congr 1
    split
    · exact withCounters_node r other
    · next hnew => exact withCounters_empty (recordsOf_eq_nil h hnew)
  · rw [if_neg heq]
    simp only [heq, or_false]
    rfl

/-- A batch is counted in the two totals of its node. -/
theorem addTo_totals (name : String) (batches records : Counter) (n : Int) :
    ((Profile.node name [] [(Operator.records, records), (Operator.batches, batches)] []).addTo
      Operator.batches .count 1).addTo Operator.records .count n =
      .node name [] [(Operator.records, records.add n), (Operator.batches, batches.add 1)] [] := by
  simp only [Profile.addTo, Profile.modifyCounter, Profile.name, Profile.infos, Profile.counters,
    Profile.children, Assoc.alter, if_pos, if_neg Operator.batches_ne_records, Option.getD_some]

theorem addTo_node (ho : r.operators[handle]? = some o) :
    ((r.node o).addTo Operator.batches .count 1).addTo Operator.records .count n =
      (r.addBatch handle n).node o := by
  have hrecords : (r.addBatch handle n).recordsOf o = r.recordsOf o ++ [n] := by
    rw [recordsOf_addBatch ho, if_pos rfl]
  rw [node, addTo_totals, Counter.add, Counter.add, Word.wrap_wrap_add, Word.wrap_wrap_add, node,
    hrecords, List.length_append, List.length_singleton, List.sum_append, List.sum_singleton,
    Int.natCast_add, Int.natCast_one]

theorem Shown.addBatch (h : r.Shown p) (ho : r.operators[handle]? = some o) (n : Int) :
    (r.addBatch handle n).Shown (o.addBatch n p) := by
  have hmem : o ∈ r.operators := List.mem_of_getElem? ho
  refine ⟨fun other => ?_, fun b hb => ?_⟩
  · show _ = if other ∈ r.operators then _ else none
    have hchild : (o.addBatch n p).child? other.node = if other.node = o.node then
        (p.child? o.node).map fun c => (c.addTo Operator.batches .count 1).addTo Operator.records .count n
        else p.child? other.node :=
      Profile.child?_modifyChild p o.node other.node fun _ => rfl
    rw [hchild]
    by_cases heq : other = o
    · subst heq
      rw [if_pos rfl, h.child other, if_pos hmem, if_pos hmem, Option.map_some, addTo_node ho]
    · have hsame : (r.addBatch handle n).node other = r.node other := by
        rw [node, recordsOf_addBatch ho, if_neg heq, List.append_nil, node]
      rw [if_neg (mt Operator.node_injective heq), h.child other, hsame]
  · rw [batches_addBatch ho] at hb
    rcases List.mem_append.mp hb with hold | hnew
    · exact h.known b hold
    · exact List.mem_singleton.mp hnew ▸ hmem

/-- The figures of the fragment and the chart of its memory are elsewhere. -/
theorem Shown.refresh (h : r.Shown p) (elapsed : Int) (memory : Outline) :
    r.Shown (FragmentProfile.refresh p elapsed memory) := by
  refine ⟨fun o => ?_, h.known⟩
  have hchart (q : Profile) : (q.attachMemory memory).child? o.node = q.child? o.node := by
    rw [Profile.attachMemory, Profile.child?_enter _ _ _ (Profile.name_chart · memory),
      if_neg o.node_ne_chartNode]
  obtain ⟨label, current, peak, children⟩ := memory
  rw [← h.child o, FragmentProfile.refresh, hchart]
  simp only [Profile.child?, Profile.setTo, Profile.modifyCounter, Profile.children]

-- ---------------------------------------------------------------------------
-- Totals
-- ---------------------------------------------------------------------------

theorem Shown.total_batches (h : r.Shown p) (ho : o ∈ r.operators) :
    o.total Operator.batches p = Word.wrap (r.recordsOf o).length := by
  have hne : ¬ (Operator.batches == Operator.records) = true := by decide
  have hvalue : (r.node o).value? Operator.batches = some (Word.wrap (r.recordsOf o).length) := by
    rw [node, Profile.value?, Profile.counter?, Profile.counters, Assoc.get?_cons, if_neg hne,
      Assoc.get?_cons, if_pos (beq_self_eq_true _), Option.map_some]
  rw [Operator.total, h.child, if_pos ho, Option.bind_some, hvalue, Option.getD_some]

theorem Shown.total_records (h : r.Shown p) (ho : o ∈ r.operators) :
    o.total Operator.records p = Word.wrap (r.recordsOf o).sum := by
  have hvalue : (r.node o).value? Operator.records = some (Word.wrap (r.recordsOf o).sum) := by
    rw [node, Profile.value?, Profile.counter?, Profile.counters, Assoc.get?_cons,
      if_pos (beq_self_eq_true _), Option.map_some]
  rw [Operator.total, h.child, if_pos ho, Option.bind_some, hvalue, Option.getD_some]

end Reports

end FragmentHost

import FragmentHost.Proofs.Memory.Inquiries
import Mathlib.Order.Bounds.Basic

/-!
# The figures of an allocator

An allocator keeps what is in use, the most that ever was, and two running totals that wrap around. They are
written at different points of four operations, a return is cut off at what is in use, and closing clears
the use without a return. What they say all the same:

* the peak is the most that was in use at any point of the run (`isGreatest_peak`);
* the totals count what was moved and not what was asked for: their difference is what is in use, as long as
  no addition at the allocator stopped at the largest word (`net_of_change`), and after it was closed the
  difference stays what the closing call found (`settled_of_life`).

Both are read off the changes that one call can make (`Forest.Change`), from the call that made the
allocator to the last one (`Forest.life_induction`).
-/

namespace FragmentHost

namespace Allocator

/-- What was granted and not returned, as a word. -/
def net (a : Allocator) : Int := Word.wrap (a.allocated - a.deallocated)

theorem net_grant (a : Allocator) (bytes : Int) :
    (a.grant bytes).net = Word.wrap (a.net + bytes) := by
  show Word.wrap (Word.wrap (a.allocated + bytes) - a.deallocated) = _
  rw [sub_eq_add_neg, Word.wrap_wrap_add, net, Word.wrap_wrap_add]
  congr 1
  omega

theorem net_giveBack (a : Allocator) (bytes : Int) :
    (a.giveBack bytes).net = Word.wrap (a.net - (a.current - a.usageWithout bytes)) := by
  show Word.wrap (a.allocated - Word.wrap (a.deallocated + (a.current - a.usageWithout bytes))) = _
  rw [sub_eq_add_neg a.net, net, Word.wrap_wrap_add]
  simp only [Word.wrap, Int.sub_bmod_bmod]
  congr 1
  omega

theorem Sound.wrap_current {a : Allocator} (h : a.Sound) : Word.wrap a.current = a.current := by
  have hnonneg := h.current_nonneg
  exact Word.wrap_of_fits ⟨by unfold Word.smallest; omega, h.current_le⟩

end Allocator

/-- The additions that stopped in a run with one more call. -/
theorem Ledger.saturated_ofRun_concat (calls : List AllocatorCall) (c : AllocatorCall) :
    (ofRun (calls ++ [c])).saturated =
      (ofRun calls).saturated ++ stopping (Forest.performAll {} calls) c := by
  rw [ofRun, postAll, List.foldl_append, ← forest_ofRun]
  rfl

namespace Forest

variable {f : Forest} {c : AllocatorCall} {i : Nat} {a b : Allocator}

-- ---------------------------------------------------------------------------
-- The peak
-- ---------------------------------------------------------------------------

/-- What was in use at allocator `i` at some point of a run. -/
def usages (calls : List AllocatorCall) (i : Nat) : Set Int :=
  { u | ∃ before, before <+: calls ∧ ∃ a, (performAll {} before).get? i = some a ∧ a.current = u }

theorem usages_concat {calls : List AllocatorCall}
    (hb : (performAll {} (calls ++ [c])).get? i = some b) :
    usages (calls ++ [c]) i = insert b.current (usages calls i) := by
  ext u
  simp only [usages, Set.mem_ofPred_eq, Set.mem_insert_iff, List.prefix_concat_iff, or_and_right,
    exists_or, exists_eq_left, hb, Option.some.injEq, exists_eq_left']
  exact or_congr_left eq_comm

/-- Nothing was in use at an allocator that is not there. -/
theorem usages_of_absent {calls : List AllocatorCall} (h : (performAll {} calls).get? i = none) :
    usages calls i = ∅ := by
  refine Set.eq_empty_of_forall_notMem ?_
  rintro u ⟨before, ⟨after, rfl⟩, a, ha, -⟩
  -- allocators stay in the forest
  obtain ⟨b, hb, -⟩ := (evolves_performAll (linked_performAll before) after).1.old i a ha
  rw [← performAll_append, h] at hb
  simp at hb

/-- After a change the peak is the larger of the peak before and of what is in use now. -/
theorem peak_of_change (hs : a.Sound) (h : f.Change c i a b) (hpeak : a.current ≤ a.peak) :
    b.peak = max a.peak b.current := by
  have hnonneg := hs.current_nonneg
  cases h with
  | none => exact (max_eq_left hpeak).symm
  | grant => rfl
  | giveBack bytes hpos _ =>
    have hle : a.usageWithout bytes ≤ a.peak := by
      unfold Allocator.usageWithout
      omega
    exact (max_eq_left hle).symm
  | shut =>
    have hle : (0 : Int) ≤ a.peak := hnonneg.trans hpeak
    exact (max_eq_left hle).symm

/-- The peak is the most that was ever in use. -/
theorem isGreatest_peak : ∀ (calls : List AllocatorCall) (a : Allocator),
    (performAll {} calls).get? i = some a → IsGreatest (usages calls i) a.peak ∧ a.current ≤ a.peak := by
  refine life_induction (motive := fun calls a =>
    IsGreatest (usages calls i) a.peak ∧ a.current ≤ a.peak) ?_ ?_
  · intro calls c a hnone ha hnew
    obtain ⟨hcurrent, hpeak, -⟩ := hnew.unused
    rw [usages_concat ha, usages_of_absent hnone, hcurrent, hpeak]
    exact ⟨by simp, le_rfl⟩
  · rintro calls c a b limit entries dropped ha hchange hb ⟨hgreatest, hle⟩
    have hpeak := peak_of_change (sound_performAll calls i a ha) hchange hle
    rw [usages_concat hb]
    show IsGreatest (insert b.current (usages calls i)) b.peak ∧ b.current ≤ b.peak
    rw [hpeak, max_comm]
    exact ⟨hgreatest.insert b.current, le_max_left ..⟩

-- ---------------------------------------------------------------------------
-- The totals
-- ---------------------------------------------------------------------------

/-- Where no addition stops, what is granted fits into a word. -/
theorem add_le_of_grants (hl : f.Linked) {q : Inquiry} (hq : q ∈ f.grants c)
    (ha : f.get? q.allocator = some a) (hstop : q.allocator ∉ Ledger.stopping f c) :
    a.current + q.bytes ≤ Word.largest := by
  by_contra hlarge
  obtain ⟨r, g, hr, hgranted, hasked⟩ := mem_grants_iff.mp hq
  have hstops := mem_saturating_of_inquiry (hl.climbs_path r.start) hasked ha (by omega)
  refine hstop ?_
  cases c with
  | consume j bytes =>
    obtain rfl := Option.some.inj hr
    rw [answer] at hgranted
    rw [Ledger.stopping, hgranted]
    exact hstops
  | child parent label initial max obeysLimits =>
    obtain rfl := Option.some.inj hr
    obtain ⟨child, hmade⟩ := answer_child_eq_ok_iff.mp hgranted
    rw [Ledger.stopping, hmade]
    exact hstops
  | root | release | limit | close | drop => simp [requestOf?] at hr

/-- The totals of an allocator that stays open go on to agree with what is in use. -/
theorem net_of_change (hl : f.Linked) (hs : f.Sound) (ha : f.get? i = some a) (h : f.Change c i a b)
    (hstop : i ∉ Ledger.stopping f c) (hnet : a.net = a.current) (hopen : b.closed = false) :
    b.net = b.current := by
  have hsound := hs i a ha
  cases h with
  | none => exact hnet
  | grant q hq hj hok =>
    subst hj
    have hroom := add_le_of_grants hl hq ha hstop
    have hpos := pos_of_grants hl hq
    have hafter : (a.grant q.bytes).current = a.current + q.bytes := by
      show a.usageAfter q.bytes = _
      rw [Allocator.usageAfter_eq hsound hpos.le]
      omega
    rw [Allocator.net_grant, hnet, hafter]
    have hnonneg := hsound.current_nonneg
    exact Word.wrap_of_fits ⟨by unfold Word.smallest; omega, hroom⟩
  | giveBack bytes hpos hopen =>
    have hback := (hsound.becomes (.giveBack hpos hopen)).wrap_current
    rw [Allocator.net_giveBack, hnet, sub_sub_cancel]
    exact hback
  | shut => simp [Allocator.shut] at hopen

-- ---------------------------------------------------------------------------
-- Closing
-- ---------------------------------------------------------------------------

/-- The call closes allocator `i` and finds `outstanding` bytes in use there. Closing reports them as a
leak, if there are any; dropping tells how many they were. -/
def Finds (f : Forest) (c : AllocatorCall) (i : Nat) (outstanding : Int) : Prop :=
  ∃ a, f.get? i = some a ∧ a.closed = false ∧ a.current = outstanding ∧
    ((c = .close i ∧ (f.close i).2 =
        if 0 < outstanding then some (.memoryLeak a.label outstanding) else none) ∨
      (c = .drop i ∧ (f.drop i).2 = some outstanding))

theorem finds_of_open (ha : f.get? i = some a) (hopen : a.closed = false)
    (hc : c = .close i ∨ c = .drop i) : f.Finds c i a.current := by
  refine ⟨a, ha, hopen, rfl, hc.imp (fun h => ⟨h, ?_⟩) fun h => ⟨h, ?_⟩⟩
  · rw [close, shut_of_open ha hopen]
    dsimp only
    split
    · rw [ha, Option.map_some]
    · rfl
  · rw [drop, shut_of_open ha hopen]

/-- A closed allocator does not change. -/
theorem Change.eq_of_closed (h : f.Change c i a b) (hclosed : a.closed = true) : b = a := by
  cases h with
  | none => rfl
  | grant q _ _ hok =>
    have hopen := (Allocator.of_refusal?_eq_none hok).1
    exact absurd (hopen.symm.trans hclosed) (by simp)
  | giveBack _ _ hopen => exact absurd (hopen.symm.trans hclosed) (by simp)
  | shut _ hopen => exact absurd (hopen.symm.trans hclosed) (by simp)

/-- An allocator that a change closed has been found as it was. -/
theorem Change.closes (h : f.Change c i a b) (ha : f.get? i = some a) (hopen : a.closed = false)
    (hclosed : b.closed = true) : f.Finds c i a.current ∧ b.net = a.net := by
  cases h with
  | none => exact absurd (hopen.symm.trans hclosed) (by simp)
  | grant => exact absurd (hopen.symm.trans hclosed) (by simp)
  | giveBack => exact absurd (hopen.symm.trans hclosed) (by simp)
  | shut hcall => exact ⟨finds_of_open ha hopen hcall, rfl⟩

/-- The totals of an allocator at which no addition stopped agree with what is in use while it is open, and
with what the call found that closed it. -/
structure Settled (calls : List AllocatorCall) (i : Nat) (a : Allocator) : Prop where
  of_open : a.closed = false → a.net = a.current
  of_closed : a.closed = true → ∃ before c after, calls = before ++ c :: after ∧
    (performAll {} before).Finds c i a.net

theorem settled_of_life : ∀ (calls : List AllocatorCall) (a : Allocator),
    (performAll {} calls).get? i = some a → i ∉ (Ledger.ofRun calls).saturated →
      Settled calls i a := by
  refine life_induction (motive := fun calls a =>
    i ∉ (Ledger.ofRun calls).saturated → Settled calls i a) ?_ ?_
  · intro calls c a _ _ hnew _
    obtain ⟨hcurrent, -, hallocated, hdeallocated⟩ := hnew.unused
    refine ⟨fun _ => ?_, fun hclosed => absurd (hnew.live.1.symm.trans hclosed) (by simp)⟩
    rw [Allocator.net, hallocated, hdeallocated, hcurrent]
    rfl
  · intro calls c a b limit entries dropped ha hchange _ ih hsat
    rw [Ledger.saturated_ofRun_concat, List.mem_append, not_or] at hsat
    have hsettled := ih hsat.1
    by_cases hclosed : a.closed = true
    · -- closed before, by the call that closed it
      obtain rfl := hchange.eq_of_closed hclosed
      refine ⟨fun hopen => absurd (hopen.symm.trans hclosed) (by simp), fun _ => ?_⟩
      obtain ⟨before, d, after, rfl, hfinds⟩ := hsettled.of_closed hclosed
      exact ⟨before, d, after ++ [c], by simp, hfinds⟩
    · have hopen : a.closed = false := by simpa using hclosed
      have hnet := hsettled.of_open hopen
      refine ⟨fun hopenb => ?_, fun hclosedb => ?_⟩
      · have hnetb : b.net = b.current := net_of_change (linked_performAll calls)
          (sound_performAll calls) ha hchange hsat.2 hnet hopenb
        exact hnetb
      · obtain ⟨hfinds, hsame⟩ := hchange.closes ha hopen hclosedb
        refine ⟨calls, c, [], rfl, ?_⟩
        show (performAll {} calls).Finds c i b.net
        rw [hsame, hnet]
        exact hfinds

end Forest

namespace Ledger

-- ---------------------------------------------------------------------------
-- Any run
-- ---------------------------------------------------------------------------

/-- After any run, whatever was called, an allocator has no less than nothing and no more than its ceiling
in use, and its peak is the most that it ever had. Once closed it has nothing in use, and so it stays. If no
addition stopped there, its totals differ by what is in use while it is open, and by what the closing call
found when it is closed. -/
theorem figures_of_allocator (calls : List AllocatorCall) (i : Nat) {a : Allocator}
    (ha : (ofRun calls).forest.get? i = some a) :
    0 ≤ a.current ∧ (0 ≤ a.max → a.current ≤ a.max) ∧
      IsGreatest (Forest.usages calls i) a.peak ∧
      (a.closed = true → a.current = 0 ∧ ∀ (later : List AllocatorCall) (b : Allocator),
        (ofRun (calls ++ later)).forest.get? i = some b → b.closed = true ∧ b.current = 0) ∧
      (i ∉ (ofRun calls).saturated →
        (a.closed = false → Word.wrap (a.allocated - a.deallocated) = a.current) ∧
        (a.closed = true → ∃ before c after, calls = before ++ c :: after ∧
          (ofRun before).forest.Finds c i (Word.wrap (a.allocated - a.deallocated)))) := by
  have hsound := sound_ofRun calls i a ha
  rw [forest_ofRun] at ha
  refine ⟨hsound.current_nonneg, hsound.current_le_max, (Forest.isGreatest_peak calls a ha).1, ?_, ?_⟩
  · intro hclosed
    refine ⟨hsound.current_of_closed hclosed, fun later b hb => ?_⟩
    rw [forest_ofRun, Forest.performAll_append] at hb
    obtain ⟨b', hb', hab⟩ :=
      (Forest.evolves_performAll (Forest.linked_performAll calls) later).1.old i a ha
    obtain rfl := Option.some.inj (hb.symm.trans hb')
    obtain ⟨hclosedb, hcurrent, -⟩ := hab.figures_of_closed hclosed
    exact ⟨hclosedb, hcurrent.trans (hsound.current_of_closed hclosed)⟩
  · intro hsat
    have hsettled := Forest.settled_of_life calls a ha hsat
    refine ⟨hsettled.of_open, fun hclosed => ?_⟩
    obtain ⟨before, c, after, hcalls, hfinds⟩ := hsettled.of_closed hclosed
    exact ⟨before, c, after, hcalls, by rw [forest_ofRun]; exact hfinds⟩

/-- A run with a return beyond what is in use, requests for nothing, an addition that stops, and an
allocator that is closed with bytes in use while one below it goes on. -/
def roughUse : List AllocatorCall :=
  [.root "query" (-1), .child 0 "fragment" 40 300 true, .child 1 "scan" 10 (-1) true, .consume 1 0,
    .consume 1 90, .consume 2 60, .release 2 500, .consume 0 9223372036854775800, .limit 1 20,
    .consume 1 5, .release 1 (-3), .consume 1 (-7), .limit 1 (-1), .consume 1 30, .close 1, .close 1,
    .consume 1 10, .consume 2 8, .drop 2]

/-- The fragment was closed with 130 bytes in use, the most it had was 150. -/
theorem figures_of_allocator_roughUse :
    ∃ a, (ofRun roughUse).forest.get? 1 = some a ∧ a.closed = true ∧ a.peak = 150 ∧
      1 ∉ (ofRun roughUse).saturated ∧ 0 ∈ (ofRun roughUse).saturated ∧
      0 ≤ a.current ∧ (0 ≤ a.max → a.current ≤ a.max) ∧
      IsGreatest (Forest.usages roughUse 1) a.peak ∧
      (a.closed = true → a.current = 0 ∧ ∀ (later : List AllocatorCall) (b : Allocator),
        (ofRun (roughUse ++ later)).forest.get? 1 = some b → b.closed = true ∧ b.current = 0) ∧
      (1 ∉ (ofRun roughUse).saturated →
        (a.closed = false → Word.wrap (a.allocated - a.deallocated) = a.current) ∧
        (a.closed = true → ∃ before c after, roughUse = before ++ c :: after ∧
          (ofRun before).forest.Finds c 1 (Word.wrap (a.allocated - a.deallocated)))) :=
  ⟨_, rfl, by decide +kernel, by decide +kernel, by decide +kernel, by decide +kernel,
    figures_of_allocator roughUse 1 rfl⟩

end Ledger

end FragmentHost

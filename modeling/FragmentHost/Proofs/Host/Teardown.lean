import FragmentHost.Proofs.Host.Wiring
import FragmentHost.Proofs.Memory.Budget
import FragmentHost.Proofs.Memory.Settlement
import Mathlib.Algebra.BigOperators.Ring.Finset

/-!
# The teardown of a context

Closing a context gives back all that its fragment has, and says what went wrong. The pool goes first,
then the incoming buffers, then the allocator; none of the steps depends on the outcome of the ones
before. `Host.TearsDown` states what the first close does, and `tearsDown_of_covered` what it takes: the
root has in use what it holds for the allocator. Runs that return no more to the root than it holds see
to that.

The bytes that the root gets back come in parts, with the buffers and with the allocator. The parts add
up since the root holds for the allocator what it held all along (`Forest.Rests.settle`).
-/

namespace FragmentHost

namespace Arena

/-- The allocator that buffer `b` draws from. -/
def allocatorOf (a : Arena) (b : Nat) : Nat := (a.buffer? b).elim 0 (·.allocator)

theorem repayment_eq (a : Arena) (b : Nat) : a.repayment b =
    if a.isReleased b then [] else [.repay b (a.allocatorOf b) (a.capacity b)] := by
  unfold repayment isReleased allocatorOf capacity
  cases a.buffer? b <;> rfl

/-- Releasing several buffers returns the bytes of each that was not released before. -/
theorem repayments_eq {a : Arena} {bs : List Nat} (hn : bs.Nodup) :
    a.repayments bs = (bs.filter fun b => !a.isReleased b).map fun b =>
      .repay b (a.allocatorOf b) (a.capacity b) := by
  induction bs generalizing a with
  | nil => rfl
  | cons b rest ih =>
    obtain ⟨hb, hrest⟩ := List.nodup_cons.mp hn
    -- the buffers that come later are still as they were
    have hsame : ∀ c ∈ rest, (a.releaseBuffer b).1.buffer? c = a.buffer? c := by
      intro c hc
      have hbc : b ≠ c := fun hbc => hb (hbc ▸ hc)
      rw [buffer?_releaseBuffer, if_neg hbc]
    have hfilter : rest.filter (fun c => !(a.releaseBuffer b).1.isReleased c) =
        rest.filter (fun c => !a.isReleased c) :=
      List.filter_congr fun c hc => by rw [isReleased_congr (hsame c hc)]
    rw [repayments, ih hrest, hfilter, repayment_eq, List.filter_cons]
    have hmap : (rest.filter fun c => !a.isReleased c).map (fun c => Posting.repay c
          ((a.releaseBuffer b).1.allocatorOf c) ((a.releaseBuffer b).1.capacity c)) =
        (rest.filter fun c => !a.isReleased c).map fun c =>
          Posting.repay c (a.allocatorOf c) (a.capacity c) := by
      refine List.map_congr_left fun c hc => ?_
      rw [allocatorOf, capacity, hsame c (List.mem_of_mem_filter hc), ← allocatorOf, ← capacity]
    rw [hmap]
    cases a.isReleased b <;> rfl

/-- Closing a pool returns the bytes of its unreleased buffers, each once, to its allocator. -/
theorem Keeps.closure_eq {a : Arena} {t : Account} (h : a.Keeps t) {p : Nat} {pool : BufferPool}
    (hp : a.pool? p = some pool) :
    ∃ bs : List Nat, bs.Nodup ∧ (∀ b, b ∈ bs ↔ b ∈ a.unreleased t p) ∧
      a.closure p = bs.map fun b => .repay b pool.allocator (a.capacity b) := by
  have hnodup := h.nodup_tracked p
  have hmem : ∀ b, b ∈ ((a.tracked p).getD []).filter (fun b => !a.isReleased b) ↔
      b ∈ a.unreleased t p := by
    intro b
    rw [List.mem_filter, mem_unreleased h, Bool.not_eq_true']
    exact and_congr_left fun hb => h.mem_tracked_iff hb
  refine ⟨_, hnodup.filter _, hmem, ?_⟩
  rw [closure, repayments_eq hnodup]
  refine List.map_congr_left fun b hb => ?_
  obtain ⟨hmaker, -⟩ := (mem_unreleased h).mp ((hmem b).mp hb)
  obtain ⟨x, pool', hx, hp', hallocator⟩ := h.accounted.of_maker? hmaker
  rw [hp, Option.some.injEq] at hp'
  subst hp'
  have hallocatorOf : a.allocatorOf b = x.allocator := by rw [allocatorOf, hx]; rfl
  rw [hallocatorOf, hallocator]

/-- Closing a pool is a run of returns to its allocator. Their sizes add up to those of the unreleased
buffers. -/
theorem Keeps.forest_closePool {a : Arena} {t : Account} (h : a.Keeps t) {p : Nat}
    {pool : BufferPool} (hp : a.pool? p = some pool) :
    ∃ bs : List Nat, bs.Nodup ∧ (∀ b, b ∈ bs ↔ b ∈ a.unreleased t p) ∧
      (a.closePool p).1.forest = a.forest.performAll
        ((bs.map a.capacity).map fun (size : Nat) => .release pool.allocator size) ∧
      ((bs.map a.capacity).sum : Int) = ∑ b ∈ a.unreleased t p, (a.capacity b : Int) := by
  obtain ⟨bs, hnodup, hmem, hclosure⟩ := h.closure_eq hp
  refine ⟨bs, hnodup, hmem, ?_, ?_⟩
  · have hcalls : (a.closure p).calls =
        (bs.map a.capacity).map fun (size : Nat) => .release pool.allocator size := by
      rw [hclosure, Account.calls, List.map_map, List.map_map]
      rfl
    rw [(h.closePool p).accounted.forest_eq, Account.calls_append, Forest.performAll_append,
      ← h.accounted.forest_eq, hcalls]
  · have hset : bs.toFinset = a.unreleased t p := by
      ext b
      rw [List.mem_toFinset, hmem]
    rw [← hset, List.sum_toFinset _ hnodup, Nat.cast_list_sum, List.map_map]
    rfl

end Arena

namespace Host

-- ---------------------------------------------------------------------------
-- The steps of a close
-- ---------------------------------------------------------------------------

/-- The failure with which the release of the incoming buffers of a context ends, if there are any. -/
def incomingFailure (h : Host) (c : Context) : Option Failure :=
  c.incoming.bind fun i => h.incoming[i]?.bind (·.failure)

/-- The host when the pool of a context was closed and nothing else. -/
def withoutPool (h : Host) (c : Context) : Host :=
  { h with arena := (h.arena.closePool c.pool).1 }

theorem deferred_releaseIncoming (h : Host) (c : Context) (d : Deferred) :
    (h.releaseIncoming c d).2.1 = (d.absorb (h.incomingFailure c)).1 := by
  unfold releaseIncoming incomingFailure
  cases c.incoming with
  | none => rfl
  | some i =>
    dsimp only [Option.bind_some]
    cases h.incoming[i]? with
    | none => rfl
    | some b => rfl

theorem incoming_releaseIncoming (h : Host) (c : Context) (d : Deferred) :
    (h.releaseIncoming c d).1.incoming = match c.incoming with
      | none => h.incoming
      | some i => h.incoming.modify i (·.released (h.forest.current c.allocator)) := by
  unfold releaseIncoming
  cases c.incoming with
  | none => rfl
  | some i =>
    dsimp only
    cases hi : h.incoming[i]? with
    | none => rw [List.modify_eq_self (List.getElem?_eq_none_iff.mp hi)]
    | some b => rfl

/-- The parts of what closing an open context leads to. -/
theorem closeContext_of_open {h : Host} {n : Nat} {c : Context} (hc : h.context? n = some c)
    (hopen : c.isClosed = false) :
    (h.closeContext n).1.forest = ((h.withoutPool c).forest.close c.allocator).1 ∧
      (h.closeContext n).1.incoming =
        ((h.withoutPool c).releaseIncoming c c.deferred).1.incoming ∧
      (∃ d, (h.closeContext n).1.context? n = some d ∧ d.isClosed = true ∧ d.incoming = none) ∧
      (h.closeContext n).2 = ((((h.withoutPool c).releaseIncoming c c.deferred).2.1.absorb
        ((h.withoutPool c).forest.close c.allocator).2).1).report? := by
  have hforest : (h.closeContext n).1.forest = ((h.withoutPool c).forest.close c.allocator).1 := by
    rw [forest, arena_closeContext hc hopen]
    rfl
  refine ⟨hforest, ?_⟩
  unfold withoutPool
  rw [← fst_closingOf]
  unfold closeContext
  rw [hc]
  simp only [hopen, Bool.false_eq_true, if_false]
  generalize closingOf h.arena c.pool = closing
  obtain ⟨arena, events⟩ := closing
  obtain ⟨hcontexts, -, harena, -⟩ := releaseIncoming_same { h with arena := arena } c c.deferred
  have hsame : (releaseIncoming { h with arena := arena } c c.deferred).1.forest =
      ({ h with arena := arena } : Host).forest := by
    rw [forest, harena, forest]
  have hcontext : (releaseIncoming { h with arena := arena } c c.deferred).1.context? n = some c := by
    rw [context?, hcontexts]
    exact hc
  refine ⟨rfl, ⟨_, (List.getElem?_modify_eq ..).trans (congrArg _ hcontext), rfl, rfl⟩, ?_⟩
  rw [← hsame]
  rfl

-- ---------------------------------------------------------------------------
-- The teardown
-- ---------------------------------------------------------------------------

/-- What is in use at the allocator of a context apart from the unreleased buffers of its pool. -/
def leak (h : Host) (t : Account) (c : Context) (a : Allocator) : Int :=
  a.current - ∑ b ∈ h.arena.unreleased t c.pool, (h.arena.capacity b : Int)

/-- The failures that the close of a context has to report, in order: those recorded before, that of
the incoming buffers, and the leak. -/
def failures (h : Host) (t : Account) (c : Context) (a : Allocator) : List Failure :=
  c.deferred.toList ++ (h.incomingFailure c).toList ++
    if 0 < h.leak t c a then [.memoryLeak a.label (h.leak t c a)] else []

/-- What the first close of context `c`, with number `n`, does: `a` is its allocator before, and `r` the
root of its environment `e`. -/
structure TearsDown (h : Host) (t : Account) (n : Nat) (c : Context) (e : Environment)
    (a r : Allocator) : Prop where
  /-- All buffers that the pool made are released. -/
  buffers_released : ∀ b, t.maker? b = some c.pool →
    (h.closeContext n).1.arena.isReleased b = true
  /-- For each that was not released before its bytes are returned, and then the allocator is closed. -/
  pool_before_allocator : ∃ bs : List Nat, bs.Nodup ∧
    (∀ b, b ∈ bs ↔ t.maker? b = some c.pool ∧ h.arena.isReleased b = false) ∧
    (h.closeContext n).1.forest = (h.forest.performAll (bs.map fun b =>
      .release c.allocator (h.arena.capacity b))).perform (.close c.allocator)
  /-- The incoming buffers are closed once, between the two: the buffers have left the allocator, and
  what was leaked is still in use. Without incoming buffers nothing is closed. -/
  incoming_closed : (h.closeContext n).1.incoming = match c.incoming with
    | none => h.incoming
    | some i => h.incoming.modify i (·.released (max (h.leak t c a) 0))
  incoming_there : ∀ i, c.incoming = some i → i < h.incoming.length
  allocator_closed : ∃ a', (h.closeContext n).1.forest.get? c.allocator = some a' ∧ a'.closed = true
  /-- The context counts as closed and has no incoming buffers any more. -/
  context_closed : ∃ d, (h.closeContext n).1.context? n = some d ∧ d.isClosed = true ∧
    d.incoming = none
  root_lowered : (h.closeContext n).1.forest.current e.root =
    r.current - max c.fragment.initial a.current
  report_eq : (h.closeContext n).2 = match h.failures t c a with
    | [] => none
    | f :: fs => some (f.withSuppressed fs)

/-- Closing a context tears it down as long as its allocator and the root are open, the root covers what
it holds for the allocator, and its failures were not reported before. -/
theorem tearsDown_of_covered {h : Host} {t : Account} (hk : h.arena.Keeps t) {n : Nat} {c : Context}
    (hc : h.context? n = some c) (hopen : c.isClosed = false) (hdeferred : c.deferred.closed = false)
    (hw : h.WiredTo c) {e : Environment} {a r : Allocator}
    (hrests : h.forest.Rests c.allocator e.root a r) (hinitial : a.initial = c.fragment.initial)
    (hcover : max a.initial a.current ≤ r.current) : h.TearsDown t n c e a r := by
  have hl : h.forest.Linked := hk.accounted.linked
  have hs : h.forest.Sound := hk.accounted.sound
  obtain ⟨pool, hpool, hallocator⟩ := hw.pool
  obtain ⟨bs, hnodup, hmem, hforest, hsum⟩ := hk.forest_closePool hpool
  rw [hallocator] at hforest
  change (h.withoutPool c).forest = _ at hforest
  -- the returns and the closing of the allocator together
  have hsettle := hrests.settle hl hs hcover (bs.map h.arena.capacity) hforest
  have hleft : a.current - ((bs.map h.arena.capacity).sum : Int) = h.leak t c a := by rw [hsum, leak]
  rw [hleft] at hsettle
  obtain ⟨hcurrent, hclose, hclosed, hroot⟩ := hsettle
  obtain ⟨hafter, hincoming, hcontext, hreport⟩ := closeContext_of_open hc hopen
  have hshut : (h.closeContext n).1.forest = ((h.withoutPool c).forest.shut c.allocator).1 := by
    rw [hafter, hclose]
  have hheld : (h.withoutPool c).forest.current c.allocator = max (h.leak t c a) 0 := hcurrent
  constructor
  case buffers_released =>
    intro b hmaker
    rw [arena_closeContext hc hopen]
    show (h.arena.closePool c.pool).1.isReleased b = true
    rw [Arena.isReleased_closePool]
    cases hb : h.arena.isReleased b with
    | true => rfl
    | false => simpa using (hk.mem_tracked_iff hb).mpr hmaker
  case pool_before_allocator =>
    refine ⟨bs, hnodup, fun b => (hmem b).trans (Arena.mem_unreleased hk), ?_⟩
    rw [hafter, hforest, List.map_map]
    rfl
  case incoming_closed =>
    rw [hincoming, incoming_releaseIncoming, hheld]
    rfl
  case incoming_there => exact hw.incoming
  case allocator_closed =>
    rw [hshut]
    exact hclosed
  case context_closed => exact hcontext
  case root_lowered =>
    rw [hshut, hroot, hinitial]
  case report_eq =>
    -- nothing was reported before, so that every failure is recorded
    have hfirst := Deferred.toList_absorb hw.deferred_sound hdeferred (h.incomingFailure c)
    have hsecond := Deferred.toList_absorb (hw.deferred_sound.absorb (h.incomingFailure c)) hfirst.2
      ((h.withoutPool c).forest.close c.allocator).2
    have hleak : ((h.withoutPool c).forest.close c.allocator).2.toList =
        if 0 < h.leak t c a then [.memoryLeak a.label (h.leak t c a)] else [] := by
      rw [hclose]
      split <;> rfl
    have hpool : (h.withoutPool c).incomingFailure c = h.incomingFailure c := rfl
    rw [hreport, deferred_releaseIncoming, hpool, Deferred.report?_eq, hsecond.1, hfirst.1, hleak]
    rfl

/-- In every state that a new process comes to, the first close of a context whose allocator and root
are open and whose failures were not reported before tears the context down. Of the run it is asked only
that no more was returned to the root directly than the root held, and that no addition stopped at the
root; disciplined runs without stopped additions are such runs. -/
theorem first_close_tears_down (process : Process) (calls : List HostCall)
    {h : Host} {t : Account} (hh : h = (Session.ofProcess process).host.actAll calls)
    (ht : t = (Session.ofProcess process).host.account calls) {n : Nat} {c : Context}
    {e : Environment} {a r : Allocator} (hc : h.context? n = some c) (hopen : c.isClosed = false)
    (hdeferred : c.deferred.closed = false) (he : h.environment? c.environment = some e)
    (ha : h.forest.get? c.allocator = some a) (hopena : a.closed = false)
    (hr : h.forest.get? e.root = some r) (hopenr : r.closed = false)
    (hrespects : Ledger.Respects {} e.root t.calls)
    (hsat : e.root ∉ (Ledger.ofRun t.calls).saturated) : h.TearsDown t n c e a r := by
  have hk : h.arena.Keeps t := hh ▸ ht ▸ keeps_ofProcess process calls
  have hw : h.WiredTo c := (hh ▸ wired_ofProcess process calls : h.Wired) n c hc
  obtain ⟨e', a', he', ha', habove, hinitial⟩ := hw.allocator
  obtain rfl : e = e' := Option.some.inj (he.symm.trans he')
  obtain rfl : a = a' := Option.some.inj (ha.symm.trans ha')
  refine tearsDown_of_covered hk hc hopen hdeferred hw ⟨ha, hr, hopena, hopenr, habove⟩ hinitial ?_
  -- what the root holds for the allocator is in the ledger of the run
  have hforest : (Ledger.ofRun t.calls).forest = h.forest := by
    rw [Ledger.forest_ofRun, forest, hk.accounted.forest_eq]
  have hs := Ledger.sound_ofRun t.calls
  have hbal := Ledger.balanced_ofRun hrespects
  have hclaim := hbal.claim_le (hforest ▸ hr) hopenr hsat hs
    (Forest.mem_liveChildren hs (hforest ▸ ha) hopena habove)
  have hclaim' : (Ledger.ofRun t.calls).forest.claim c.allocator = max a.initial a.current := by
    rw [hforest, Forest.claim, ha]
    rfl
  rwa [hclaim'] at hclaim

/-- A run up to a context with a reservation of a hundred bytes. It made two buffers and released one,
it has an operator, bytes of its own and incoming buffers that fail to close, and it was told of a
failure. -/
def leakyRun : List HostCall :=
  let node : Endpoint := ⟨"localhost", 31010, 31011, 31012⟩
  let plan : PlanFragment := ⟨⟨⟨0, 1⟩, 1, 0⟩, 100, -1, none, node, node, 0, "UTC"⟩
  HostCall.plainServices ++ [.root "query" 1000, .consume 0 200,
    .openEnvironment (some 0) node none ⟨0, 0, 0⟩, .openContext 0 plan none 0,
    .attach 0 ⟨"senders", true, some (.execution "broken pipe"), 0, none⟩,
    .child 1 "scan" 10 (-1) true, .getBuffer 0 64, .getBuffer 0 128, .releaseBuffer 0,
    .consume 1 30, .fail 0 (.execution "bad record")]

/-- The host after that run. -/
def leakyHost : Host := (Session.ofProcess {}).host.actAll leakyRun

/-- The account of that run. -/
def leakyAccount : Account := (Session.ofProcess {}).host.account leakyRun

/-- Of the bytes in use one buffer is returned. The other forty, with the reservation of the operator,
are reported last. -/
theorem first_close_tears_down_leakyRun :
    ∃ c e a r, leakyHost.context? 0 = some c ∧ leakyHost.environment? c.environment = some e ∧
      leakyHost.forest.get? c.allocator = some a ∧ leakyHost.forest.get? e.root = some r ∧
      a.current = 168 ∧ r.current = 368 ∧
      leakyHost.failures leakyAccount c a = [.execution "bad record", .execution "broken pipe",
        .memoryLeak "Fragment 1:0" 40] ∧
      leakyHost.TearsDown leakyAccount 0 c e a r :=
  ⟨(leakyHost.context? 0).get (by decide +kernel),
    (leakyHost.environment? 0).get (by decide +kernel),
    (leakyHost.forest.get? 1).get (by decide +kernel),
    (leakyHost.forest.get? 0).get (by decide +kernel),
    by decide +kernel, by decide +kernel, by decide +kernel, by decide +kernel, by decide +kernel,
    by decide +kernel, by decide +kernel,
    first_close_tears_down {} leakyRun rfl rfl (by decide +kernel) (by decide +kernel)
      (by decide +kernel) (by decide +kernel) (by decide +kernel) (by decide +kernel)
      (by decide +kernel) (by decide +kernel) (by decide +kernel) (by decide +kernel)⟩

end Host

end FragmentHost

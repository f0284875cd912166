import FragmentHost.Proofs.Host.Teardown
import FragmentHost.Proofs.Memory.Firewall

/-!
# Closed allocators of a host

A host reaches its allocators in many ways: through handles, through the buffers of pools, through contexts,
and when nobody holds an object any more. `Host.concerns` lists the allocators that a call is about. If all
of them are below a closed allocator, nothing above it changes.

A call that gives several objects up may be about allocators below a closed one and about others: the last
handle below may be what kept those above alive. Such a call is a row of steps, and each step that is about
an allocator below leaves everything above the closed one as it finds it (`Host.Seals.steps`).
-/

namespace FragmentHost

namespace Arena

/-- The allocator that pool `p` draws from, if there is such a pool. -/
def drawsFrom (a : Arena) (p : Nat) : List Nat := (a.pool? p).toList.map (·.allocator)

theorem mem_drawsFrom {a : Arena} {p : Nat} {pool : BufferPool} (hp : a.pool? p = some pool) :
    pool.allocator ∈ a.drawsFrom p := by
  simp [drawsFrom, hp]

/-- What is repaid for a buffer is repaid to the allocator that it drew from. -/
theorem target?_repayment {a : Arena} {b : Nat} {c : AllocatorCall} (hc : c ∈ (a.repayment b).calls) :
    c.target? = some (a.allocatorOf b) := by
  rw [repayment_eq] at hc
  split at hc
  · simp at hc
  · obtain rfl : c = .release (a.allocatorOf b) (a.capacity b) := by
      simpa [Account.calls, Posting.call] using hc
    rfl

theorem target?_drawing {a : Arena} {p size : Nat} {c : AllocatorCall}
    (hc : c ∈ (a.drawing p size).calls) : ∃ i ∈ a.drawsFrom p, c.target? = some i := by
  unfold drawing at hc
  split at hc
  · next pool _ _ hp _ =>
    obtain rfl : c = .consume pool.allocator size := by
      simpa [Account.calls, Posting.call] using hc
    exact ⟨pool.allocator, mem_drawsFrom hp, rfl⟩
  · simp at hc

/-- The buffers of a pool draw from the allocator of the pool. -/
theorem Keeps.allocatorOf_eq {a : Arena} {t : Account} (h : a.Keeps t) {p b : Nat} {pool : BufferPool}
    {bs : List Nat} (hp : a.pool? p = some pool) (hbs : a.tracked p = some bs) (hb : b ∈ bs) :
    a.allocatorOf b = pool.allocator := by
  obtain ⟨x, pool', hx, hp', hallocator⟩ := h.accounted.of_maker? (h.tracks.own p bs hbs b hb)
  rw [hp, Option.some.injEq] at hp'
  subst hp'
  rw [allocatorOf, hx, hallocator]
  rfl

theorem Keeps.target?_exchange {a : Arena} {t : Account} (h : a.Keeps t) {p old size : Nat}
    {c : AllocatorCall} (hc : c ∈ (a.exchange p old size).calls) :
    ∃ i ∈ a.drawsFrom p, c.target? = some i := by
  unfold exchange at hc
  split at hc
  · next pool _ b hp hg =>
    obtain ⟨pool', bs, m, hp', hbs, hold, -⟩ := replaceBuffer_ok hg
    rw [hp, Option.some.injEq] at hp'
    subst hp'
    refine ⟨pool.allocator, mem_drawsFrom hp, ?_⟩
    rw [Account.calls, List.map_cons, List.mem_cons] at hc
    rcases hc with rfl | hc
    · rfl
    · -- the old buffer is one of the pool
      rw [target?_repayment hc, h.allocatorOf_eq hp ((tracked_of_pool? hp).trans hbs) hold]
  · simp at hc

theorem Keeps.target?_closure {a : Arena} {t : Account} (h : a.Keeps t) {p : Nat} {c : AllocatorCall}
    (hc : c ∈ (a.closure p).calls) : ∃ i ∈ a.drawsFrom p, c.target? = some i := by
  cases hp : a.pool? p with
  | none =>
    have hnone : a.closure p = [] := by simp [closure, tracked, hp, repayments]
    simp [hnone] at hc
  | some pool =>
    obtain ⟨bs, -, -, hclosure⟩ := h.closure_eq hp
    rw [hclosure, Account.calls, List.map_map, List.mem_map] at hc
    obtain ⟨b, -, rfl⟩ := hc
    exact ⟨pool.allocator, mem_drawsFrom hp, rfl⟩

end Arena

namespace Host

/-- The allocators that giving up is about: those that unreleased buffers draw from, and those that are
dropped. -/
def givenUp (h : Host) (names : Holders) (buffers allocators : List Nat) : List Nat :=
  ((h.unheldBuffers names buffers).filter fun b => !h.arena.isReleased b).map h.arena.allocatorOf ++
    (h.giveUpBuffers names buffers).unheldAllocators names allocators

/-- The allocators that a call is about: those that are asked for something, closed or given up, and those
from which the buffers draw that the call makes or releases. -/
def concerns (h : Host) : HostCall → List Nat
  | .child parent _ _ _ _ => [parent]
  | .consume allocator _ | .release allocator _ | .limit allocator _ | .closeAllocator allocator =>
    [allocator]
  | .getDefault pool | .getBuffer pool _ | .closePool pool => h.arena.drawsFrom pool
  | .replaceBuffer pool old size left =>
    match h.arena.replaceBuffer pool old size with
    | .ok _ => h.arena.drawsFrom pool
    | .error _ => h.givenUp left [old] (h.drawnFrom old)
  | .releaseBuffer b => [h.arena.allocatorOf b]
  | .openContext environment _ _ _ => (h.rootOf environment).toList
  | .closeContext context =>
    match h.context? context with
    | some c => c.allocator :: h.arena.drawsFrom c.pool
    | none => []
  | .keep names =>
    h.givenUp names (List.range h.arena.buffers.length) (List.range h.forest.nodes.length).reverse
  | .root _ _ | .openPool _ _ _ | .write _ _ _ | .takeIn _ | .openEnvironment _ _ _ _ | .fail _ _ | .cancel _
  | .rootSchema _ | .attach _ _ | .deferFailure _ _ | .takeDeferred _ | .closeDeferred _ | .openCache _
  | .cachedTunnel _ _ | .dataTunnel _ _ | .controlTunnel _ _ | .addOperator _ _ | .elsewhere _ => []

theorem target?_surrender {h : Host} {names : Holders} {buffers allocators : List Nat} (hn : buffers.Nodup)
    {c : AllocatorCall} (hc : c ∈ (h.surrender names buffers allocators).calls) :
    ∃ i ∈ h.givenUp names buffers allocators, c.target? = some i := by
  rw [surrender, Account.calls_append, List.mem_append] at hc
  rcases hc with hc | hc
  · have hnodup : (h.unheldBuffers names buffers).Nodup := hn.filter _
    rw [Arena.repayments_eq hnodup, Account.calls, List.map_map, List.mem_map] at hc
    obtain ⟨b, hb, rfl⟩ := hc
    exact ⟨h.arena.allocatorOf b, List.mem_append_left _ (List.mem_map_of_mem hb), rfl⟩
  · rw [Account.calls, List.map_map, List.mem_map] at hc
    obtain ⟨i, hi, rfl⟩ := hc
    exact ⟨i, List.mem_append_right _ hi, rfl⟩

/-- A call asks something of the allocators that it is about, and of no others. -/
theorem target?_postings {h : Host} {t : Account} (hk : h.arena.Keeps t) {c : HostCall}
    {call : AllocatorCall} (hcall : call ∈ (h.postings c).calls) : ∀ i ∈ call.target?,
      i ∈ h.concerns c := by
  intro i hi
  have hone : ∀ {js : List Nat}, (∃ j ∈ js, call.target? = some j) → i ∈ js := by
    rintro js ⟨j, hj, htarget⟩
    rw [htarget, Option.mem_def, Option.some.injEq] at hi
    exact hi ▸ hj
  cases c with
  | child | consume | release | limit | closeAllocator =>
    simp only [postings, Account.calls_asked, List.mem_singleton] at hcall
    subst hcall
    simpa [concerns, AllocatorCall.target?, eq_comm] using hi
  | root label max =>
    simp only [postings, Account.calls_asked, List.mem_singleton] at hcall
    subst hcall
    simp [AllocatorCall.target?] at hi
  | getDefault pool => exact hone (Arena.target?_drawing hcall)
  | getBuffer pool size => exact hone (Arena.target?_drawing hcall)
  | replaceBuffer pool old size left =>
    rw [postings] at hcall
    rw [concerns]
    cases hg : h.arena.replaceBuffer pool old size with
    | ok made =>
      rw [hg] at hcall
      exact hone (hk.target?_exchange hcall)
    | error refusal =>
      rw [hg] at hcall
      exact hone (target?_surrender (List.nodup_singleton old) hcall)
  | closePool pool => exact hone (hk.target?_closure hcall)
  | releaseBuffer b =>
    have htarget := Arena.target?_repayment hcall
    rw [htarget, Option.mem_def, Option.some.injEq] at hi
    simp [concerns, hi]
  | openEnvironment root endpoint options services =>
    cases root with
    | some r => simp [postings] at hcall
    | none =>
      rw [postings] at hcall
      split at hcall
      · simp only [Account.calls_asked, List.mem_singleton] at hcall
        subst hcall
        simp [AllocatorCall.target?] at hi
      · simp at hcall
  | openContext environment plan session registry =>
    rw [postings] at hcall
    cases he : h.environment? environment with
    | none => simp [he] at hcall
    | some e =>
      cases hprepared : prepare h.zones e plan with
      | error f => simp [he, hprepared] at hcall
      | ok prepared =>
        simp only [he, hprepared, Account.calls_asked, List.mem_singleton] at hcall
        subst hcall
        simpa [concerns, rootOf, he, AllocatorCall.target?, eq_comm] using hi
  | closeContext context =>
    rw [postings] at hcall
    cases hc : h.context? context with
    | none => simp [hc] at hcall
    | some c =>
      cases hclosed : c.isClosed with
      | true => simp [hc, hclosed] at hcall
      | false =>
        simp only [hc, hclosed, Bool.false_eq_true, if_false, Account.calls_append,
          Account.calls_asked, List.mem_append, List.mem_singleton] at hcall
        rw [concerns, hc, List.mem_cons]
        rcases hcall with hcall | rfl
        · exact Or.inr (hone (hk.target?_closure hcall))
        · exact Or.inl (by simpa [AllocatorCall.target?, eq_comm] using hi)
  | keep names => exact hone (target?_surrender List.nodup_range hcall)
  | _ => simp [postings] at hcall

/-- Allocator `n` of `h` is closed, and `g` is a later state. -/
structure Seals (h g : Host) (n : Nat) (a : Allocator) : Prop where
  /-- The allocator is still closed and has nothing in use, and its totals are the ones it was left with. -/
  final : ∃ b, g.forest.get? n = some b ∧ b.closed = true ∧ b.current = 0 ∧ b.peak = a.peak ∧
    b.allocated = a.allocated ∧ b.deallocated = a.deallocated
  refuses : ∀ label initial max obeysLimits,
    ∃ refusal, g.newChild n label initial max obeysLimits = .error refusal
  /-- Its children are the ones that it was left with. -/
  children_old : ∀ i b, g.forest.get? i = some b → b.above.head? = some n →
    ∃ b', h.forest.get? i = some b'
  /-- A call that is about allocators below it changes nothing above it. -/
  calls : ∀ c, (∀ i ∈ g.concerns c, n ∈ g.forest.above i) →
    ∀ p ∈ a.above, (g.act c).forest.get? p = g.forest.get? p
  /-- A call is a row of steps. -/
  replayed : ∀ c, (g.act c).forest = g.forest.performAll (g.postings c).calls
  /-- Also within a call that is about other allocators, a step below changes nothing above. -/
  steps : ∀ c before step after, (g.postings c).calls = before ++ step :: after →
    g.forest.Below n step → ∀ p ∈ a.above,
      (g.forest.performAll (before ++ [step])).get? p = (g.forest.performAll before).get? p

/-- In every state that a new process comes to, a closed allocator is final whatever is called later, no
child is made under it, and whatever is done to the allocators below it stays below it. -/
theorem closed_allocator_seals (process : Process) (calls later : List HostCall) {h : Host}
    (hh : h = (Session.ofProcess process).host.actAll calls) {n : Nat} {a : Allocator}
    (ha : h.forest.get? n = some a) (hclosed : a.closed = true) : h.Seals (h.actAll later) n a := by
  have hk : h.arena.Keeps ((Session.ofProcess process).host.account calls) :=
    hh ▸ keeps_ofProcess process calls
  have hk' := keeps_actAll hk later
  generalize hg : h.actAll later = g at hk' ⊢
  have hl : g.forest.Linked := hk'.accounted.linked
  obtain ⟨b, hb, hab⟩ : ∃ b, g.forest.get? n = some b ∧ a.Evolves b :=
    (hg ▸ evolves_actAll hk later).old n a ha
  obtain ⟨hclosed', hcurrent, hsame⟩ := hab.figures_of_closed hclosed
  -- what is above was made before
  have hle : ∀ p ∈ a.above, p ≤ n := fun p hp => ((hk.accounted.linked n a ha).2.1 p hp).le
  constructor
  case final =>
    have hzero : a.current = 0 := (hk.accounted.sound n a ha).current_of_closed hclosed
    exact ⟨b, hb, hclosed', hcurrent.trans hzero, hsame⟩
  case refuses =>
    intro label initial max obeysLimits
    obtain ⟨refusal, hrefused⟩ := Forest.newChild_of_closed hb hclosed' label initial max obeysLimits
    exact ⟨refusal, by rw [newChild, hrefused]⟩
  case children_old =>
    intro i c hc hn
    rw [← hg, forest_actAll hk later] at hc
    exact Forest.exists_of_head?_above hk.accounted.linked ha hclosed _ hc hn
  case calls =>
    intro c hc p hp
    have hbelow : ∀ call ∈ (g.postings c).calls, g.forest.Below n call :=
      fun call hcall i hi => hc i (target?_postings hk' hcall i hi)
    rw [forest_act hk' c]
    exact Forest.get?_performAll_of_closed hl hb hclosed' hbelow p (hle p hp)
  case replayed => exact forest_act hk'
  case steps =>
    intro c before step after _ hstep p hp
    obtain ⟨hev, hl'⟩ := Forest.evolves_performAll hl before
    obtain ⟨b', hb', hbb'⟩ := hev.old n b hb
    have hsealed := Forest.get?_perform_of_closed hl' hb' (hbb'.figures_of_closed hclosed').1
      (hstep.evolves hev) p (hle p hp)
    rw [Forest.performAll_append]
    exact hsealed

/-- A fragment with a scan below it, which has a buffer, is closed while bytes are in use at both. -/
def fragmentClosed : List HostCall :=
  [.root "query" 500, .child 0 "fragment" 100 (-1) true, .child 1 "scan" 20 (-1) true,
    .openPool "scan" 2 16, .getBuffer 0 64, .consume 1 80, .closeAllocator 1]

/-- The scan goes on, and is closed in the end. -/
def scanGoesOn : List HostCall :=
  [.releaseBuffer 0, .getBuffer 0 16, .child 2 "filter" 4 (-1) true, .release 2 500, .closeAllocator 2]

theorem closed_allocator_seals_scanGoesOn :
    ∃ h a, h = (Session.ofProcess {}).host.actAll fragmentClosed ∧ h.forest.get? 1 = some a ∧
      a.closed = true ∧ a.peak = 144 ∧ h.Seals (h.actAll scanGoesOn) 1 a :=
  ⟨(Session.ofProcess {}).host.actAll fragmentClosed,
    (((Session.ofProcess {}).host.actAll fragmentClosed).forest.get? 1).get (by decide +kernel), rfl,
    by decide +kernel, by decide +kernel, by decide +kernel,
    closed_allocator_seals {} fragmentClosed scanGoesOn rfl (by decide +kernel) (by decide +kernel)⟩

end Host

end FragmentHost

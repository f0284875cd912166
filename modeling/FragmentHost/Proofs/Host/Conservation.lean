import FragmentHost.Proofs.Host.Runs
import FragmentHost.Session.Run

/-!
# Conservation of buffers

The bytes of a buffer are taken once and given back at most once, whichever way the buffer is given up
and whoever else holds it. What is known of every state (`Arena.Conserved`) follows from what every call
preserves (`Arena.Keeps`); what is known of every single call (`Host.Settles`) compares the account
before and after it.
-/

namespace FragmentHost

namespace Account

/-- The bytes drawn for buffer `b`. -/
def granted (t : Account) (b : Nat) : Int := ((t.drawn b).map fun x => (x.bytes : Int)).sum

/-- The bytes returned for buffer `b`. -/
def returned (t : Account) (b : Nat) : Int := ((t.repaid b).map fun x => (x.bytes : Int)).sum

end Account

namespace Arena

/-- The buffers that pool `p` made. -/
def madeBy (a : Arena) (t : Account) (p : Nat) : Finset Nat :=
  (Finset.range a.buffers.length).filter fun b => t.maker? b = some p

/-- The buffers that pool `p` made and that are not released. -/
def unreleased (a : Arena) (t : Account) (p : Nat) : Finset Nat :=
  (a.madeBy t p).filter fun b => a.isReleased b = false

/-- The size of buffer `b`. -/
def capacity (a : Arena) (b : Nat) : Nat := (a.buffer? b).elim 0 (·.capacity)

/-- What the account and the pools say about the buffers of an arena. -/
structure Conserved (a : Arena) (t : Account) : Prop where
  /-- The account lists all that was asked of the allocators. -/
  replayed : a.forest = Forest.performAll {} t.calls
  /-- The bytes of a buffer were drawn once, by a pool on its allocator. -/
  drawn_once : ∀ b x, a.buffer? b = some x → ∃ p pool, a.pool? p = some pool ∧
    pool.allocator = x.allocator ∧ t.drawn b = [.draw b p x.allocator x.capacity]
  /-- They were returned once if the buffer is released, and not at all otherwise. -/
  repaid_once : ∀ b x, a.buffer? b = some x →
    t.repaid b = if x.isReleased then [.repay b x.allocator x.capacity] else []
  /-- Nothing was drawn or returned for a buffer that is not there. -/
  absent : ∀ b, a.buffer? b = none → t.drawn b = [] ∧ t.repaid b = []
  /-- An open pool tracks its unreleased buffers and none of another pool. -/
  tracked_open : ∀ p bs, a.tracked p = some bs →
    (∀ b ∈ a.unreleased t p, b ∈ bs) ∧ (∀ b ∈ bs, t.maker? b = some p)
  /-- The size of an open pool is the number of its unreleased buffers. -/
  size_open : ∀ p bs, a.tracked p = some bs → a.poolSize p = (a.unreleased t p).card
  /-- A closed pool has size zero and no unreleased buffers. -/
  closed : ∀ p, a.tracked p = none → a.poolSize p = 0 ∧ a.unreleased t p = ∅
  /-- What the buffers of a pool were granted and did not return is the size of the unreleased ones. -/
  balance : ∀ p, ∑ b ∈ a.madeBy t p, (t.granted b - t.returned b) =
    ∑ b ∈ a.unreleased t p, (a.capacity b : Int)

theorem mem_unreleased {a : Arena} {t : Account} (h : a.Keeps t) {p b : Nat} :
    b ∈ a.unreleased t p ↔ t.maker? b = some p ∧ a.isReleased b = false := by
  rw [unreleased, Finset.mem_filter, madeBy, Finset.mem_filter, Finset.mem_range]
  constructor
  · rintro ⟨⟨-, hmaker⟩, hreleased⟩
    exact ⟨hmaker, hreleased⟩
  · rintro ⟨hmaker, hreleased⟩
    obtain ⟨x, -, hb, -⟩ := h.accounted.of_maker? hmaker
    exact ⟨⟨lt_length_of_buffer? hb, hmaker⟩, hreleased⟩

/-- Among unreleased buffers, a pool tracks exactly its own. -/
theorem Keeps.mem_tracked_iff {a : Arena} {t : Account} (h : a.Keeps t) {p b : Nat}
    (hb : a.isReleased b = false) : b ∈ (a.tracked p).getD [] ↔ t.maker? b = some p := by
  constructor
  · intro hmem
    cases hbs : a.tracked p with
    | none => simp [hbs] at hmem
    | some bs =>
      rw [hbs] at hmem
      exact h.tracks.own p bs hbs b hmem
  · intro hmaker
    obtain ⟨bs, hbs, hmem⟩ := h.tracks.all p b hmaker hb (by simp)
    rw [hbs]
    exact hmem

/-- A pool counts its unreleased buffers; nothing is left to count for a closed one. -/
theorem Keeps.poolSize_eq {a : Arena} {t : Account} (h : a.Keeps t) (p : Nat) :
    a.poolSize p = (a.unreleased t p).card := by
  have hsize : a.poolSize p = (((a.tracked p).getD []).filter fun b => !a.isReleased b).length := by
    rw [poolSize, ← tracked]
    cases a.tracked p <;> rfl
  rw [hsize, ← List.toFinset_card_of_nodup ((h.nodup_tracked p).filter _)]
  congr 1
  ext b
  rw [List.mem_toFinset, List.mem_filter, mem_unreleased h, Bool.not_eq_true']
  exact and_congr_left fun hb => h.mem_tracked_iff hb

/-- A released buffer has returned what it was granted, an unreleased one has returned nothing. -/
theorem Accounted.granted_sub_returned {a : Arena} {t : Account} (h : a.Accounted t) {b : Nat}
    {x : Buffer} (hb : a.buffer? b = some x) :
    t.granted b - t.returned b = if a.isReleased b = false then (a.capacity b : Int) else 0 := by
  obtain ⟨p, -, -, -, hdrawn⟩ := h.drawn_eq b x hb
  have hcapacity : a.capacity b = x.capacity := by rw [capacity, hb]; rfl
  rw [Account.granted, Account.returned, hdrawn, h.repaid_eq b x hb, isReleased_of_buffer? hb,
    hcapacity]
  cases x.isReleased <;> simp [Posting.bytes]

theorem Keeps.conserved {a : Arena} {t : Account} (h : a.Keeps t) : a.Conserved t where
  replayed := h.accounted.forest_eq
  drawn_once := h.accounted.drawn_eq
  repaid_once := h.accounted.repaid_eq
  absent := h.accounted.absent
  tracked_open := by
    intro p bs hbs
    refine ⟨fun b hb => ?_, h.tracks.own p bs hbs⟩
    obtain ⟨hmaker, hreleased⟩ := (mem_unreleased h).mp hb
    have hmem := (h.mem_tracked_iff hreleased).mpr hmaker
    rwa [hbs] at hmem
  size_open := fun p _ _ => h.poolSize_eq p
  closed := by
    intro p hp
    have hnone : a.unreleased t p = ∅ := by
      refine Finset.eq_empty_of_forall_notMem fun b hb => ?_
      obtain ⟨hmaker, hreleased⟩ := (mem_unreleased h).mp hb
      have hmem := (h.mem_tracked_iff hreleased).mpr hmaker
      rw [hp] at hmem
      simp at hmem
    exact ⟨by rw [h.poolSize_eq, hnone, Finset.card_empty], hnone⟩
  balance := by
    intro p
    rw [unreleased, Finset.sum_filter]
    refine Finset.sum_congr rfl fun b hb => ?_
    obtain ⟨-, hmaker⟩ := Finset.mem_filter.mp hb
    obtain ⟨x, -, hx, -⟩ := h.accounted.of_maker? hmaker
    exact h.accounted.granted_sub_returned hx

-- ---------------------------------------------------------------------------
-- From one account to a longer one
-- ---------------------------------------------------------------------------

section

variable {a g : Arena} {t u : Account} {b : Nat} {x : Buffer}

/-- A buffer that is there stays there: its bytes are in the account. -/
theorem Accounted.buffer?_stays (h : a.Accounted t) (hg : g.Accounted (t ++ u))
    (hb : a.buffer? b = some x) : ∃ y, g.buffer? b = some y := by
  cases hb' : g.buffer? b with
  | some y => exact ⟨y, rfl⟩
  | none =>
    obtain ⟨p, -, -, -, hdrawn⟩ := h.drawn_eq b x hb
    have hnone := (hg.absent b hb').1
    rw [Account.drawn_append, hdrawn] at hnone
    simp at hnone

/-- Bytes are drawn for new buffers and for no others. -/
theorem Accounted.drawn_ne_nil_iff (h : a.Accounted t) (hg : g.Accounted (t ++ u)) :
    u.drawn b ≠ [] ↔ a.buffer? b = none ∧ g.buffer? b ≠ none := by
  cases hb' : g.buffer? b with
  | none =>
    have hnone := (hg.absent b hb').1
    rw [Account.drawn_append, List.append_eq_nil_iff] at hnone
    simp [hnone.2]
  | some y =>
    obtain ⟨q, -, -, -, hafter⟩ := hg.drawn_eq b y hb'
    rw [Account.drawn_append] at hafter
    cases hb : a.buffer? b with
    | none =>
      rw [(h.absent b hb).1, List.nil_append] at hafter
      simp [hafter]
    | some x =>
      -- drawn before, so not drawn again
      obtain ⟨p, -, -, -, hbefore⟩ := h.drawn_eq b x hb
      rw [hbefore, List.cons_append, List.nil_append, List.cons.injEq] at hafter
      simp [hafter.2]

/-- Bytes are returned for a buffer when it becomes released. -/
theorem Accounted.repaid_ne_nil_iff (h : a.Accounted t) (hg : g.Accounted (t ++ u))
    (hb : a.isReleased b = false) : u.repaid b ≠ [] ↔ g.isReleased b = true := by
  obtain ⟨x, hx, hreleased⟩ := exists_buffer?_of_not_released hb
  obtain ⟨y, hy⟩ := h.buffer?_stays hg hx
  have hafter := hg.repaid_eq b y hy
  rw [Account.repaid_append, h.repaid_eq b x hx, hreleased] at hafter
  rw [isReleased_of_buffer? hy]
  cases hy' : y.isReleased <;> simp_all

/-- What was released stays so: its bytes are not taken out of the account again. -/
theorem Accounted.still_released (h : a.Accounted t) (hg : g.Accounted (t ++ u))
    (hx : a.buffer? b = some x) (hreleased : x.isReleased = true) : g.isReleased b = true := by
  obtain ⟨y, hy⟩ := h.buffer?_stays hg hx
  have hafter := hg.repaid_eq b y hy
  rw [Account.repaid_append, h.repaid_eq b x hx, hreleased] at hafter
  rw [isReleased_of_buffer? hy]
  cases hy' : y.isReleased <;> simp_all

/-- A new buffer for which nothing was returned is not released. -/
theorem Accounted.new_unreleased (h : a.Accounted t) (hg : g.Accounted (t ++ u))
    (hb : a.buffer? b = none) (hx : g.buffer? b = some x) (hu : u.repaid b = []) :
    x.isReleased = false := by
  have hafter := hg.repaid_eq b x hx
  rw [Account.repaid_append, (h.absent b hb).2, hu] at hafter
  cases hx' : x.isReleased <;> simp_all

end

-- ---------------------------------------------------------------------------
-- Single releases
-- ---------------------------------------------------------------------------

/-- Nothing is returned for a buffer that was released before or is not there. -/
theorem repaid_repayment_of_released {a : Arena} {b : Nat} (hb : a.isReleased b = true) (c : Nat) :
    (a.repayment c).repaid b = [] := by
  by_cases hcb : c = b
  · subst hcb
    unfold repayment
    cases hx : a.buffer? c with
    | none => rfl
    | some x =>
      rw [isReleased_of_buffer? hx] at hb
      simp [hb, Account.repaid]
  · exact repaid_repayment_of_ne a hcb

theorem repaid_repayments_of_released {a : Arena} {b : Nat} (hb : a.isReleased b = true)
    (cs : List Nat) : (a.repayments cs).repaid b = [] := by
  induction cs generalizing a with
  | nil => rfl
  | cons c rest ih =>
    have hstill : (a.releaseBuffer c).1.isReleased b = true := by
      rw [isReleased_releaseBuffer, hb, Bool.true_or]
    rw [repayments, Account.repaid_append, repaid_repayment_of_released hb, ih hstill,
      List.append_nil]

/-- Of several buffers, each that was not released before returns its bytes. -/
theorem repaid_repayments_ne_nil_iff {a : Arena} {b : Nat} (hb : a.isReleased b = false)
    (cs : List Nat) : (a.repayments cs).repaid b ≠ [] ↔ b ∈ cs := by
  induction cs generalizing a with
  | nil => simp [repayments, Account.repaid]
  | cons c rest ih =>
    rw [repayments, Account.repaid_append, List.mem_cons]
    by_cases hcb : c = b
    · subst hcb
      obtain ⟨x, hx, hreleased⟩ := exists_buffer?_of_not_released hb
      simp [repayment, hx, hreleased, Account.repaid, Posting.repays]
    · have hstill : (a.releaseBuffer c).1.isReleased b = false := by
        rw [isReleased_releaseBuffer, hb]
        simpa using hcb
      rw [repaid_repayment_of_ne a hcb, List.nil_append, ih hstill]
      simp [Ne.symm hcb]

theorem repaid_repayment_ne_nil_iff {a : Arena} {b : Nat} (hb : a.isReleased b = false) (c : Nat) :
    (a.repayment c).repaid b ≠ [] ↔ c = b := by
  have hone := repaid_repayments_ne_nil_iff hb [c]
  rw [repayments, repayments, List.append_nil, List.mem_singleton] at hone
  rw [hone, eq_comm]

theorem repaid_drawing (a : Arena) (p size b : Nat) : (a.drawing p size).repaid b = [] := by
  unfold drawing
  split <;> rfl

/-- What is returned in a replacement is returned for the old buffer. -/
theorem repaid_exchange (a : Arena) (p old size b : Nat) :
    (a.exchange p old size).repaid b =
      match a.replaceBuffer p old size with
      | .ok _ => (a.repayment old).repaid b
      | .error _ => [] := by
  unfold exchange
  cases hp : a.pool? p with
  | none =>
    have hrefused : ∃ refusal, a.replaceBuffer p old size = .error refusal := by
      rw [replaceBuffer, hp]
      exact ⟨_, rfl⟩
    obtain ⟨refusal, hrefused⟩ := hrefused
    rw [hrefused]
    rfl
  | some pool => cases a.replaceBuffer p old size <;> rfl

end Arena

/-- A call gives buffer `b` up: it releases the buffer, it asks for another one in its place and is granted
that or gives the last handle away, it closes the pool that made the buffer, by itself or with a context, or it
leaves nobody who holds the buffer. -/
def HostCall.frees (h : Host) (t : Account) (b : Nat) : HostCall → Prop
  | .releaseBuffer c => c = b
  | .replaceBuffer p old size left =>
    old = b ∧ ((∃ made, h.arena.replaceBuffer p old size = .ok made) ∨ b ∉ h.heldBuffers left)
  | .closePool p => t.maker? b = some p
  | .closeContext n => ∃ c, h.context? n = some c ∧ c.isClosed = false ∧ t.maker? b = some c.pool
  | .keep names => b ∉ h.heldBuffers names
  | .root _ _ | .child _ _ _ _ _ | .consume _ _ | .release _ _ | .limit _ _ | .closeAllocator _
  | .openPool _ _ _ | .getDefault _ | .getBuffer _ _ | .write _ _ _ | .takeIn _
  | .openEnvironment _ _ _ _ | .openContext _ _ _ _ | .fail _ _ | .cancel _ | .rootSchema _ | .attach _ _
  | .deferFailure _ _ | .takeDeferred _ | .closeDeferred _ | .openCache _ | .cachedTunnel _ _
  | .dataTunnel _ _ | .controlTunnel _ _ | .addOperator _ _ | .elsewhere _ => False

namespace Host

theorem repaid_asked_map {α : Type} (call : α → AllocatorCall) (xs : List α) (b : Nat) :
    Account.repaid (xs.map fun i => .asked (call i)) b = [] := by
  rw [Account.repaid, List.filter_eq_nil_iff]
  intro x hx
  obtain ⟨i, -, rfl⟩ := List.mem_map.mp hx
  simp [Posting.repays]

/-- Giving up returns the bytes of the buffers among those given up that nobody holds. -/
theorem repaid_surrender (h : Host) (names : Holders) (buffers allocators : List Nat) (b : Nat) :
    (h.surrender names buffers allocators).repaid b =
      (h.arena.repayments (h.unheldBuffers names buffers)).repaid b := by
  rw [surrender, Account.repaid_append, repaid_asked_map, List.append_nil]

theorem repaid_surrender_ne_nil_iff {h : Host} {b : Nat} (hb : h.arena.isReleased b = false)
    (names : Holders) (buffers allocators : List Nat) :
    (h.surrender names buffers allocators).repaid b ≠ [] ↔ b ∈ buffers ∧ b ∉ h.heldBuffers names := by
  rw [repaid_surrender, Arena.repaid_repayments_ne_nil_iff hb, unheldBuffers, List.mem_filter]
  simp

/-- Nothing is returned for a buffer that was released before. -/
theorem repaid_postings_of_released {h : Host} {b : Nat} (hb : h.arena.isReleased b = true)
    (c : HostCall) : (h.postings c).repaid b = [] := by
  cases c with
  | getDefault pool => exact Arena.repaid_drawing _ _ _ b
  | getBuffer pool size => exact Arena.repaid_drawing _ _ _ b
  | replaceBuffer pool old size left =>
    rw [postings]
    split
    · next made hg =>
      rw [Arena.repaid_exchange, hg]
      exact Arena.repaid_repayment_of_released hb old
    · rw [repaid_surrender, Arena.repaid_repayments_of_released hb]
  | releaseBuffer c => exact Arena.repaid_repayment_of_released hb c
  | closePool pool => exact Arena.repaid_repayments_of_released hb _
  | openEnvironment root endpoint options services =>
    cases root with
    | some r => rfl
    | none =>
      rw [postings]
      split <;> rfl
  | openContext environment plan session registry =>
    rw [postings]
    split
    · split <;> rfl
    · rfl
  | closeContext context =>
    rw [postings]
    split
    · split
      · rfl
      · rw [Account.repaid_append, Arena.closure, Arena.repaid_repayments_of_released hb]
        rfl
    · rfl
  | keep names =>
    rw [postings, repaid_surrender, Arena.repaid_repayments_of_released hb]
  | _ => rfl

/-- For an unreleased buffer something is returned by the calls that give it up and by no other. -/
theorem repaid_postings_ne_nil_iff {h : Host} {t : Account} (hk : h.arena.Keeps t) {b : Nat}
    (hb : h.arena.isReleased b = false) (c : HostCall) :
    (h.postings c).repaid b ≠ [] ↔ c.frees h t b := by
  cases c with
  | getDefault pool => simp [postings, HostCall.frees, Arena.repaid_drawing]
  | getBuffer pool size => simp [postings, HostCall.frees, Arena.repaid_drawing]
  | replaceBuffer pool old size left =>
    rw [postings, HostCall.frees]
    cases hg : h.arena.replaceBuffer pool old size with
    | error refusal =>
      dsimp only
      rw [repaid_surrender_ne_nil_iff hb, List.mem_singleton, eq_comm (a := b)]
      simp
    | ok made =>
      dsimp only
      rw [Arena.repaid_exchange, hg]
      simpa using Arena.repaid_repayment_ne_nil_iff hb old
  | releaseBuffer c => exact Arena.repaid_repayment_ne_nil_iff hb c
  | closePool pool =>
    rw [postings, HostCall.frees, Arena.closure, Arena.repaid_repayments_ne_nil_iff hb]
    exact hk.mem_tracked_iff hb
  | openEnvironment root endpoint options services =>
    cases root with
    | some r => simp [postings, HostCall.frees, Account.repaid]
    | none =>
      rw [postings, HostCall.frees]
      split <;> simp [Account.repaid, Posting.repays]
  | openContext environment plan session registry =>
    rw [postings, HostCall.frees]
    split
    · split <;> simp [Account.repaid, Posting.repays]
    · simp [Account.repaid]
  | closeContext context =>
    rw [postings, HostCall.frees]
    cases hc : h.context? context with
    | none => simp [Account.repaid]
    | some c =>
      cases hclosed : c.isClosed with
      | true => simp [hclosed, Account.repaid]
      | false =>
        simp only [hclosed, Bool.false_eq_true, if_false, Account.repaid_append,
          Account.repaid_asked, List.append_nil]
        rw [Arena.closure, Arena.repaid_repayments_ne_nil_iff hb, hk.mem_tracked_iff hb]
        simp [hclosed]
  | keep names =>
    obtain ⟨x, hx, -⟩ := Arena.exists_buffer?_of_not_released hb
    rw [postings, HostCall.frees, repaid_surrender_ne_nil_iff hb, List.mem_range]
    simp [Arena.lt_length_of_buffer? hx]
  | _ => simp [postings, HostCall.frees, Account.repaid, Posting.repays]

/-- What a call does to the buffers of a host. -/
structure Settles (h : Host) (t : Account) (c : HostCall) : Prop where
  /-- Bytes are drawn for the buffers that the call makes and for no others. -/
  drawn_iff : ∀ b, (h.postings c).drawn b ≠ [] ↔
    h.arena.buffer? b = none ∧ (h.act c).arena.buffer? b ≠ none
  /-- A new buffer is not released. -/
  new_unreleased : ∀ b x, h.arena.buffer? b = none → (h.act c).arena.buffer? b = some x →
    x.isReleased = false
  /-- A buffer becomes released when it is given up, and then only. -/
  released_iff : ∀ b, h.arena.isReleased b = false →
    ((h.act c).arena.isReleased b = true ↔ c.frees h t b)
  /-- What was released stays so. -/
  still_released : ∀ b x, h.arena.buffer? b = some x → x.isReleased = true →
    (h.act c).arena.isReleased b = true
  /-- Bytes are returned for the buffers that become released and for no others. -/
  repaid_iff : ∀ b, (h.postings c).repaid b ≠ [] ↔
    h.arena.isReleased b = false ∧ (h.act c).arena.isReleased b = true
  /-- A pool that is there is closed once it was closed by itself or with its context. -/
  pool_closed_iff : ∀ p pool, h.arena.pool? p = some pool →
    ((h.act c).arena.tracked p = none ↔ h.arena.tracked p = none ∨ p ∈ h.closing c)

theorem settles {h : Host} {t : Account} (hk : h.arena.Keeps t) (c : HostCall) :
    h.Settles t c := by
  have ha := hk.accounted
  have hg := (keeps_act hk c).accounted
  constructor
  case drawn_iff => exact fun b => ha.drawn_ne_nil_iff hg
  case new_unreleased =>
    intro b x hb hx
    have hgone : h.arena.isReleased b = true := by rw [Arena.isReleased, hb]
    exact ha.new_unreleased hg hb hx (repaid_postings_of_released hgone c)
  case released_iff =>
    intro b hb
    rw [← ha.repaid_ne_nil_iff hg hb, repaid_postings_ne_nil_iff hk hb]
  case still_released => exact fun b x hx hreleased => ha.still_released hg hx hreleased
  case repaid_iff =>
    intro b
    cases hb : h.arena.isReleased b with
    | true => simp [repaid_postings_of_released hb]
    | false => simp [ha.repaid_ne_nil_iff hg hb]
  case pool_closed_iff =>
    intro p pool hp
    obtain ⟨pool', hp', -, hclosed⟩ := poolsStay_act h c p pool hp
    rw [Arena.tracked_of_pool? hp', hclosed, Arena.tracked_of_pool? hp]

theorem keeps_ofProcess (process : Process) (calls : List HostCall) :
    ((Session.ofProcess process).host.actAll calls).arena.Keeps
      ((Session.ofProcess process).host.account calls) :=
  keeps_actAll (t := []) Arena.keeps_empty calls

/-- In every state that a new process comes to, the bytes of each buffer were drawn once and returned at
most once, and the pools track what is left; and every further call draws bytes for the buffers that it
makes alone, and returns bytes for exactly those that it gives up for the first time. -/
theorem buffers_conserved (process : Process) (calls : List HostCall) :
    ((Session.ofProcess process).host.actAll calls).arena.Conserved
        ((Session.ofProcess process).host.account calls) ∧
      ∀ c, ((Session.ofProcess process).host.actAll calls).Settles
        ((Session.ofProcess process).host.account calls) c :=
  ⟨(keeps_ofProcess process calls).conserved, settles (keeps_ofProcess process calls)⟩

end Host

end FragmentHost

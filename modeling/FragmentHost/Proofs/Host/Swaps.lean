import FragmentHost.Proofs.Host.Numbers

/-!
# Buffers in the place of others

A pool that is asked for a buffer in place of another one makes the new one, strikes the old one off and
releases it (`Arena.Replaced`). The other buffers stay as they are, and the new one has a number that the pool
never used.

Whether a pool may replace a buffer depends on what it tracks. A buffer that its holder released is struck off
when the pool makes the next one, and not before. As long as the old buffer is unreleased, the new one takes its
place: the pool counts as many buffers as before, and what it holds changes by the difference of the sizes. If
the old buffer was released and not yet struck off, the request is granted as well, and the pool has one buffer
more (`pool_grows_after_early_release`).
-/

namespace FragmentHost

namespace Arena

/-- The bytes that pool `p` drew from its allocator and did not return. -/
def holding (a : Arena) (t : Account) (p : Nat) : Int :=
  ∑ b ∈ a.madeBy t p, (t.granted b - t.returned b)

/-- Buffer `b` of `size` bytes was made in place of buffer `old` of pool `p`, and the other buffers are as they
were. The accounts are those before and after. -/
structure Replaced (a g : Arena) (t u : Account) (p old b size : Nat) : Prop where
  /-- The pool made the old buffer and tracked it. -/
  owned : t.maker? old = some p ∧ old ∈ (a.tracked p).getD []
  /-- Now the old buffer is released and the pool does not track it. -/
  gone : g.isReleased old = true ∧ old ∉ (g.tracked p).getD []
  /-- The pool made the new buffer and tracks it. -/
  new : u.maker? b = some p ∧ b ∈ (g.tracked p).getD []
  /-- The new buffer has the size asked for, is not released and holds zeros. -/
  blank : ∃ x contents, g.buffer? b = some x ∧ x.capacity = size ∧ x.contents = some contents ∧
    ∀ i, contents.byteAt i = 0
  /-- No buffer that the pool ever made has the number of the new one. -/
  unused : ∀ x c y, g.buffer? b = some x → t.maker? c = some p → a.buffer? c = some y → y.id ≠ x.id
  /-- Other buffers have the contents, the size and the number that they had. -/
  others : ∀ c, c ≠ old → c ≠ b → g.buffer? c = a.buffer? c
  /-- Pools track the other unreleased buffers that they tracked. -/
  others_tracked : ∀ q c, c ≠ old → c ≠ b → a.isReleased c = false →
    (c ∈ (g.tracked q).getD [] ↔ c ∈ (a.tracked q).getD [])
  /-- The pool tracks no released buffer any more. -/
  pruned : ∀ c ∈ (g.tracked p).getD [], g.isReleased c = false
  /-- The new bytes were drawn, and then those of the old buffer returned, if they were not before. -/
  asked : ∃ pool, a.pool? p = some pool ∧ g.forest = a.forest.performAll
    (.consume pool.allocator size ::
      if a.isReleased old then [] else [.release pool.allocator (a.capacity old)])
  /-- For an unreleased buffer, one goes and one comes. -/
  swap : a.isReleased old = false →
    g.poolSize p = a.poolSize p ∧ g.holding u p = a.holding t p + size - a.capacity old
  /-- For a released one, only the new one comes. -/
  growth : a.isReleased old = true →
    g.poolSize p = a.poolSize p + 1 ∧ g.holding u p = a.holding t p + size

variable {a g : Arena} {t : Account} {p old b size : Nat}

-- ---------------------------------------------------------------------------
-- Buffers and pools after a replacement
-- ---------------------------------------------------------------------------

/-- The new buffer is none that the pools track. -/
theorem Keeps.ne_of_replaceBuffer (h : a.Keeps t) (hg : a.replaceBuffer p old size = .ok (g, b)) :
    old ≠ b := by
  obtain ⟨pool, bs, m, hp, hbs, hold, hm, -⟩ := replaceBuffer_ok hg
  exact h.ne_of_makeBuffer hm ((tracked_of_pool? hp).trans hbs) hold

theorem Keeps.buffer?_replaceBuffer (h : a.Keeps t) {pool : BufferPool} (hp : a.pool? p = some pool)
    (hg : a.replaceBuffer p old size = .ok (g, b)) (c : Nat) :
    g.buffer? c =
      if c = b then some { id := pool.nextId, capacity := size, allocator := pool.allocator }
      else if old = c then (a.buffer? c).map fun x => { x with contents := none }
      else a.buffer? c := by
  have hne := h.ne_of_replaceBuffer hg
  obtain ⟨pool', bs, m, hp', -, -, hm, rfl⟩ := replaceBuffer_ok hg
  obtain rfl : pool = pool' := Option.some.inj (hp.symm.trans hp')
  have hmade : (m.modifyPool p fun x =>
      { x with tracked := x.tracked.map (·.filter (· ≠ old)) }).buffer? c = m.buffer? c := rfl
  show ((m.modifyPool p fun x =>
    { x with tracked := x.tracked.map (·.filter (· ≠ old)) }).releaseBuffer old).1.buffer? c = _
  rw [buffer?_releaseBuffer, hmade, buffer?_makeBuffer hm]
  by_cases hcb : c = b
  · have hold : old ≠ c := fun hc => hne (hc.trans hcb)
    rw [if_neg hold, if_pos hcb, if_pos hcb]
  · rw [if_neg hcb, if_neg hcb]

/-- After a replacement the pool tracks the new buffer and what it tracked of unreleased ones. -/
theorem tracked_replaceBuffer (hg : a.replaceBuffer p old size = .ok (g, b)) :
    ∃ bs, a.tracked p = some bs ∧
      g.tracked p = some ((bs.filter (· ≠ old)).filter (fun c => !g.isReleased c) ++ [b]) := by
  obtain ⟨pool, bs, m, hp, hbs, -, hm, rfl⟩ := replaceBuffer_ok hg
  have htracked : a.tracked p = some bs := (tracked_of_pool? hp).trans hbs
  obtain ⟨pool', hp', hpool'⟩ := Option.bind_eq_some_iff.mp ((tracked_makeBuffer hm p).trans htracked)
  generalize hk : ((m.modifyPool p fun x =>
    { x with tracked := x.tracked.map (·.filter (· ≠ old)) }).releaseBuffer old).1 = k
  have hstruck : k.pool? p = some { pool' with tracked := some (bs.filter (· ≠ old)) } := by
    rw [← hk, pool?, pools_releaseBuffer, ← pool?, pool?_modifyPool, if_pos rfl, hp', Option.map_some,
      hpool']
    rfl
  refine ⟨bs, htracked, ?_⟩
  rw [track, tracked_modifyPool_self hstruck]
  rfl

theorem Keeps.isReleased_replaceBuffer (h : a.Keeps t) (hg : a.replaceBuffer p old size = .ok (g, b))
    (c : Nat) : g.isReleased c = if c = b then false else a.isReleased c || old == c := by
  obtain ⟨pool, -, -, hp, -⟩ := replaceBuffer_ok hg
  have hbuffer := h.buffer?_replaceBuffer hp hg c
  by_cases hcb : c = b
  · rw [if_pos hcb] at hbuffer ⊢
    rw [isReleased_of_buffer? hbuffer]
    rfl
  · rw [if_neg hcb] at hbuffer ⊢
    by_cases hold : old = c
    · rw [if_pos hold] at hbuffer
      rw [isReleased, hbuffer]
      cases a.buffer? c <;> simp [Buffer.isReleased, hold]
    · rw [if_neg hold] at hbuffer
      rw [isReleased_congr hbuffer]
      simp [hold]

-- ---------------------------------------------------------------------------
-- What a pool counts and holds
-- ---------------------------------------------------------------------------

theorem Keeps.maker?_replaceBuffer (h : a.Keeps t) (hg : a.replaceBuffer p old size = .ok (g, b)) (c : Nat) :
    Account.maker? (t ++ a.exchange p old size) c = if c = b then some p else t.maker? c := by
  obtain ⟨pool, -, m, hp, -, -, hm, -⟩ := replaceBuffer_ok hg
  rw [append_exchange t hp hg, Account.maker?_append (drawn_repayment a old c)]
  split
  · next hcb => rw [hcb, h.accounted.maker?_make hm]
  · next hcb => exact Account.maker?_append_draw_of_ne t hcb p pool.allocator size

/-- The new buffer joins the unreleased ones of the pool, and the old one is none of them. -/
theorem Keeps.unreleased_replaceBuffer (h : a.Keeps t) (hg : a.replaceBuffer p old size = .ok (g, b)) :
    g.unreleased (t ++ a.exchange p old size) p = insert b ((a.unreleased t p).erase old) := by
  ext c
  rw [Finset.mem_insert, Finset.mem_erase, mem_unreleased h, mem_unreleased (h.replaceBuffer hg),
    h.maker?_replaceBuffer hg, h.isReleased_replaceBuffer hg]
  by_cases hcb : c = b
  · simp [hcb]
  · rw [if_neg hcb, if_neg hcb, Bool.or_eq_false_iff, beq_eq_false_iff_ne, ne_comm]
    tauto

/-- The new buffer is none of those that the pool had made. -/
theorem Keeps.not_mem_unreleased_of_replaceBuffer (h : a.Keeps t)
    (hg : a.replaceBuffer p old size = .ok (g, b)) : b ∉ (a.unreleased t p).erase old := by
  intro hb
  obtain ⟨hmaker, -⟩ := (mem_unreleased h).mp (Finset.mem_of_mem_erase hb)
  obtain ⟨x, -, hx, -⟩ := h.accounted.of_maker? hmaker
  obtain ⟨_, _, _, -, -, -, hm, -⟩ := replaceBuffer_ok hg
  obtain ⟨-, -, rfl, -⟩ := makeBuffer_ok hm
  exact absurd (lt_length_of_buffer? hx) (Nat.lt_irrefl _)

theorem Keeps.holding_eq (h : a.Keeps t) (p : Nat) :
    a.holding t p = ∑ b ∈ a.unreleased t p, (a.capacity b : Int) :=
  h.conserved.balance p

theorem Keeps.capacity_replaceBuffer (h : a.Keeps t) (hg : a.replaceBuffer p old size = .ok (g, b))
    (c : Nat) : g.capacity c = if c = b then size else a.capacity c := by
  obtain ⟨pool, -, -, hp, -⟩ := replaceBuffer_ok hg
  rw [capacity, h.buffer?_replaceBuffer hp hg c, capacity]
  split
  · rfl
  · split
    · cases a.buffer? c <;> rfl
    · rfl

theorem Keeps.poolSize_replaceBuffer (h : a.Keeps t) (hg : a.replaceBuffer p old size = .ok (g, b)) :
    g.poolSize p = ((a.unreleased t p).erase old).card + 1 := by
  rw [(h.replaceBuffer hg).poolSize_eq, h.unreleased_replaceBuffer hg,
    Finset.card_insert_of_notMem (h.not_mem_unreleased_of_replaceBuffer hg)]

theorem Keeps.holding_replaceBuffer (h : a.Keeps t) (hg : a.replaceBuffer p old size = .ok (g, b)) :
    g.holding (t ++ a.exchange p old size) p =
      size + ∑ c ∈ (a.unreleased t p).erase old, (a.capacity c : Int) := by
  have hb := h.not_mem_unreleased_of_replaceBuffer hg
  rw [(h.replaceBuffer hg).holding_eq, h.unreleased_replaceBuffer hg, Finset.sum_insert hb,
    h.capacity_replaceBuffer hg, if_pos rfl]
  congr 1
  refine Finset.sum_congr rfl fun c hc => ?_
  have hcb : c ≠ b := fun hcb => hb (hcb ▸ hc)
  rw [h.capacity_replaceBuffer hg, if_neg hcb]

-- ---------------------------------------------------------------------------
-- Replacements
-- ---------------------------------------------------------------------------

theorem Keeps.forest_replaceBuffer (h : a.Keeps t) {pool : BufferPool} (hp : a.pool? p = some pool)
    (hg : a.replaceBuffer p old size = .ok (g, b)) :
    g.forest = a.forest.performAll (.consume pool.allocator size ::
      if a.isReleased old then [] else [.release pool.allocator (a.capacity old)]) := by
  obtain ⟨_, bs, _, hp', hbs, hold, -, -⟩ := replaceBuffer_ok hg
  obtain rfl := Option.some.inj (hp.symm.trans hp')
  have hmaker := h.tracks.own p bs ((tracked_of_pool? hp).trans hbs) old hold
  obtain ⟨x, y, hx, hy, hallocator⟩ := h.accounted.of_maker? hmaker
  obtain rfl := Option.some.inj (hp.symm.trans hy)
  have hrepayment : (a.repayment old).calls =
      if a.isReleased old then [] else [.release pool.allocator (a.capacity old)] := by
    rw [repayment, hx, isReleased_of_buffer? hx, capacity, hx, hallocator]
    cases hreleased : x.isReleased <;> simp [hreleased, Account.calls, Posting.call]
  rw [(h.replaceBuffer hg).accounted.forest_eq, append_exchange t hp hg, Account.calls_append,
    Account.calls_append, Forest.performAll_append, Forest.performAll_append, ← h.accounted.forest_eq,
    hrepayment]
  rfl

theorem Keeps.replaced (h : a.Keeps t) (hn : a.Numbered t) (hg : a.replaceBuffer p old size = .ok (g, b)) :
    a.Replaced g t (t ++ a.exchange p old size) p old b size := by
  have hne := h.ne_of_replaceBuffer hg
  have hreleased := h.isReleased_replaceBuffer hg
  have hmaker := h.maker?_replaceBuffer hg
  obtain ⟨pool, bs, -, hp, hbs, hold, -, -⟩ := replaceBuffer_ok hg
  have hbuffer := h.buffer?_replaceBuffer hp hg
  obtain ⟨bs', hbs', htracked⟩ := tracked_replaceBuffer hg
  obtain rfl : bs = bs' := Option.some.inj (hbs.symm.trans ((tracked_of_pool? hp).symm.trans hbs'))
  have howned := h.tracks.own p bs hbs' old hold
  constructor
  case owned => exact ⟨howned, by rwa [hbs']⟩
  case gone =>
    refine ⟨by simp [hreleased, hne], ?_⟩
    simp [htracked, hne]
  case new =>
    refine ⟨by rw [hmaker, if_pos rfl], ?_⟩
    simp [htracked]
  case blank =>
    refine ⟨_, [], (hbuffer b).trans (if_pos rfl), rfl, rfl, Contents.byteAt_nil⟩
  case unused =>
    intro x c y hx hc hy
    obtain rfl : _ = x := Option.some.inj (((hbuffer b).trans (if_pos rfl)).symm.trans hx)
    exact Nat.ne_of_lt (hn c y p pool hy hc hp)
  case others =>
    intro c hco hcb
    rw [hbuffer, if_neg hcb, if_neg (Ne.symm hco)]
  case others_tracked =>
    intro q c hco hcb hc
    have hc' : g.isReleased c = false := by
      rw [hreleased, if_neg hcb, hc]
      simpa using Ne.symm hco
    rw [(h.replaceBuffer hg).mem_tracked_iff hc', h.mem_tracked_iff hc, hmaker, if_neg hcb]
  case pruned =>
    intro c hc
    rw [htracked, Option.getD_some, List.mem_append, List.mem_filter, List.mem_singleton] at hc
    rcases hc with ⟨-, hc⟩ | rfl
    · simpa using hc
    · rw [hreleased, if_pos rfl]
  case asked => exact ⟨pool, hp, h.forest_replaceBuffer hp hg⟩
  case swap =>
    intro hlive
    have hmem : old ∈ a.unreleased t p := (mem_unreleased h).mpr ⟨howned, hlive⟩
    constructor
    · rw [h.poolSize_replaceBuffer hg, h.poolSize_eq, Finset.card_erase_add_one hmem]
    · rw [h.holding_replaceBuffer hg, h.holding_eq, ← Finset.add_sum_erase _ _ hmem]
      omega
  case growth =>
    intro hearly
    have hmem : old ∉ a.unreleased t p := fun hmem => by
      simp [((mem_unreleased h).mp hmem).2] at hearly
    constructor
    · rw [h.poolSize_replaceBuffer hg, h.poolSize_eq, Finset.erase_eq_of_notMem hmem]
    · rw [h.holding_replaceBuffer hg, h.holding_eq, Finset.erase_eq_of_notMem hmem, add_comm]

end Arena

namespace Host

/-- In every state that a new process comes to, a granted request for a buffer in place of another one makes a
new buffer and releases the old one, and leaves the others alone. The pool counts as many buffers as before if
the old one was unreleased. If its holder had released it, and the pool did not strike it off yet, the pool
counts one more. -/
theorem replacement_takes_place (process : Process) (calls : List HostCall) {p old size b : Nat}
    (left : Holders) {g : Arena}
    (h : ((Session.ofProcess process).host.actAll calls).arena.replaceBuffer p old size = .ok (g, b)) :
    ((Session.ofProcess process).host.actAll (calls ++ [.replaceBuffer p old size left])).arena = g ∧
      ((Session.ofProcess process).host.actAll calls).arena.Replaced g
        ((Session.ofProcess process).host.account calls)
        ((Session.ofProcess process).host.account (calls ++ [.replaceBuffer p old size left])) p old b size := by
  have hkeeps := keeps_ofProcess process calls
  have hnumbered := numbered_ofProcess process calls
  rw [account_append, account, account, List.append_nil, actAll_append, actAll_cons, actAll_nil, postings, act,
    replaceBuffer, h]
  exact ⟨rfl, hkeeps.replaced hnumbered h⟩

/-- Two pools whose buffers carry the same numbers. One buffer was written, and one was released by its holder
before the pool made another. -/
def twoPools : List HostCall :=
  [.root "query" (-1), .child 0 "scan" 0 (-1) true, .child 0 "sort" 0 (-1) true,
    .openPool "0:0" 1 256, .openPool "1:1" 2 256, .getBuffer 0 16, .getBuffer 1 40, .getBuffer 0 32,
    .write 2 0 [7, 255], .releaseBuffer 0, .getDefault 0]

/-- The arena after `twoPools`, and then with a larger buffer in place of one of the first pool. -/
theorem replacement_takes_place_twoPools :
    let h := (Session.ofProcess {}).host.actAll twoPools
    let swap : HostCall := .replaceBuffer 0 2 128 { pools := [0, 1] }
    ∃ g, h.arena.replaceBuffer 0 2 128 = .ok (g, 4) ∧
      ((Session.ofProcess {}).host.actAll (twoPools ++ [swap])).arena = g ∧
      h.arena.Replaced g ((Session.ofProcess {}).host.account twoPools)
        ((Session.ofProcess {}).host.account (twoPools ++ [swap])) 0 2 4 128 := by
  intro h swap
  have hgranted : h.arena.replaceBuffer 0 2 128 =
      .ok (((Session.ofProcess {}).host.actAll (twoPools ++ [swap])).arena, 4) := by
    decide +kernel
  exact ⟨_, hgranted, replacement_takes_place {} twoPools { pools := [0, 1] } hgranted⟩

/-- A buffer is released by its holder, and the pool makes none after that. -/
def earlyRelease : List HostCall :=
  [.root "query" (-1), .child 0 "scan" 0 (-1) true, .openPool "0:0" 1 256, .getBuffer 0 8, .releaseBuffer 0]

/-- Not every replacement is a swap. A buffer that its holder released is replaced as well, and the pool, which
counted none, counts one. If the pool makes one more buffer before, the same request is refused. -/
theorem pool_grows_after_early_release :
    (∃ g, ((Session.ofProcess {}).host.actAll earlyRelease).arena.replaceBuffer 0 0 16 = .ok (g, 1) ∧
      ((Session.ofProcess {}).host.actAll earlyRelease).arena.isReleased 0 = true ∧
      ((Session.ofProcess {}).host.actAll earlyRelease).arena.poolSize 0 = 0 ∧ g.poolSize 0 = 1) ∧
    ((Session.ofProcess {}).host.actAll (earlyRelease ++ [.getBuffer 0 8])).arena.replaceBuffer 0 0 16 =
      .error (.invalidArgument "buffer 0 is not managed by 0:0") := by
  refine ⟨⟨((Session.ofProcess {}).host.actAll
    (earlyRelease ++ [.replaceBuffer 0 0 16 { pools := [0] }])).arena, ?_⟩, ?_⟩
  · decide +kernel
  · decide +kernel

end Host

end FragmentHost

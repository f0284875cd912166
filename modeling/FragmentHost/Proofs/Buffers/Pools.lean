import FragmentHost.Proofs.Buffers.Account

/-!
# What pools keep track of

An open pool tracks every buffer that it made and that is not released, and no buffer of another pool;
a closed pool has left no buffer unreleased. `Arena.Tracks` says so up to some exempt buffers, since in
the middle of an operation a new buffer is not tracked yet and an old one not any more. Each operation
on pools is taken apart into steps: a buffer is made, the pool strikes one off, a buffer is released, the
pool takes one on. Together with a right account, `Arena.Keeps` is what all of them preserve.
-/

namespace FragmentHost

namespace Arena

/-- The buffers that pool `p` tracks, or nothing if it is closed or not there. -/
def tracked (a : Arena) (p : Nat) : Option (List Nat) := (a.pool? p).bind (·.tracked)

/-- Every pool tracks those of its buffers that are not released and no other pool's buffers; the exempt
ones need not be tracked. -/
structure Tracks (a : Arena) (t : Account) (exempt : List Nat) : Prop where
  nodup : ∀ p bs, a.tracked p = some bs → bs.Nodup
  own : ∀ p bs, a.tracked p = some bs → ∀ b ∈ bs, t.maker? b = some p
  all : ∀ p b, t.maker? b = some p → a.isReleased b = false → b ∉ exempt →
    ∃ bs, a.tracked p = some bs ∧ b ∈ bs

/-- The account of the arena is right, and its pools track their buffers. -/
structure Keeps (a : Arena) (t : Account) : Prop where
  accounted : a.Accounted t
  tracks : a.Tracks t []

/-- A pool tracks nothing twice; a closed one tracks nothing. -/
theorem Keeps.nodup_tracked {a : Arena} {t : Account} (h : a.Keeps t) (p : Nat) :
    ((a.tracked p).getD []).Nodup := by
  cases hbs : a.tracked p with
  | none => exact List.nodup_nil
  | some bs => exact h.tracks.nodup p bs hbs

theorem tracked_of_pool? {a : Arena} {p : Nat} {pool : BufferPool} (hp : a.pool? p = some pool) :
    a.tracked p = pool.tracked := by
  rw [tracked, hp]
  rfl

theorem tracked_modifyPool_of_ne (a : Arena) {p q : Nat} (h : p ≠ q)
    (change : BufferPool → BufferPool) : (a.modifyPool p change).tracked q = a.tracked q := by
  rw [tracked, pool?_modifyPool, if_neg h, tracked]

theorem tracked_modifyPool_self {a : Arena} {p : Nat} {pool : BufferPool}
    (hp : a.pool? p = some pool) (change : BufferPool → BufferPool) :
    (a.modifyPool p change).tracked p = (change pool).tracked := by
  rw [tracked, pool?_modifyPool, if_pos rfl, hp]
  rfl

-- ---------------------------------------------------------------------------
-- Steps
-- ---------------------------------------------------------------------------

/-- Pools that stay as they are keep track as long as nothing is made and nothing comes back that was
released. -/
theorem Tracks.keep {a g : Arena} {t u : Account} {exempt left : List Nat}
    (h : a.Tracks t exempt) (hpools : g.pools = a.pools) (hmade : ∀ b, u.drawn b = [])
    (hreleased : ∀ b, g.isReleased b = false →
      a.isReleased b = false ∧ (b ∈ exempt → b ∈ left)) : g.Tracks (t ++ u) left := by
  have htracked : ∀ p, g.tracked p = a.tracked p := fun p => by
    rw [tracked, pool?, hpools, ← pool?, tracked]
  refine ⟨fun p bs hbs => h.nodup p bs (htracked p ▸ hbs), fun p bs hbs b hb => ?_, ?_⟩
  · rw [Account.maker?_append (hmade b)]
    exact h.own p bs (htracked p ▸ hbs) b hb
  · intro p b hmaker hb hleft
    rw [Account.maker?_append (hmade b)] at hmaker
    obtain ⟨hold, hexempt⟩ := hreleased b hb
    rw [htracked]
    exact h.all p b hmaker hold fun hmem => hleft (hexempt hmem)

/-- A change of one pool. What it does not track any more has to be exempt. -/
theorem Tracks.retrack {a : Arena} {t : Account} {exempt left : List Nat} {p : Nat}
    {pool : BufferPool} {bs : List Nat} (h : a.Tracks t exempt) (hp : a.pool? p = some pool)
    (hbs : pool.tracked = some bs) (change : BufferPool → BufferPool)
    (hnodup : ∀ cs, (change pool).tracked = some cs → cs.Nodup)
    (hown : ∀ cs, (change pool).tracked = some cs → ∀ b ∈ cs, t.maker? b = some p)
    (hleft : ∀ b, b ∉ left → b ∉ exempt ∨ t.maker? b = some p)
    (hall : ∀ b, a.isReleased b = false → b ∉ left → b ∈ bs ∨ b ∈ exempt →
      ∃ cs, (change pool).tracked = some cs ∧ b ∈ cs) : (a.modifyPool p change).Tracks t left := by
  have hself := tracked_modifyPool_self hp change
  refine ⟨?_, ?_, ?_⟩
  · intro q cs hcs
    by_cases hpq : p = q
    · subst hpq
      exact hnodup cs (hself ▸ hcs)
    · exact h.nodup q cs (tracked_modifyPool_of_ne a hpq change ▸ hcs)
  · intro q cs hcs
    by_cases hpq : p = q
    · subst hpq
      exact hown cs (hself ▸ hcs)
    · exact h.own q cs (tracked_modifyPool_of_ne a hpq change ▸ hcs)
  · intro q b hmaker hreleased hb
    have hreleased' : a.isReleased b = false := hreleased
    by_cases hpq : p = q
    · subst hpq
      rw [hself]
      refine hall b hreleased' hb ?_
      by_cases hexempt : b ∈ exempt
      · exact Or.inr hexempt
      · obtain ⟨cs, hcs, hmem⟩ := h.all p b hmaker hreleased' hexempt
        rw [tracked_of_pool? hp, hbs, Option.some.injEq] at hcs
        exact Or.inl (hcs ▸ hmem)
    · -- buffers of other pools are not concerned
      rw [tracked_modifyPool_of_ne a hpq]
      refine h.all q b hmaker hreleased' ?_
      rcases hleft b hb with hexempt | hmaker'
      · exact hexempt
      · rw [hmaker, Option.some.injEq] at hmaker'
        exact absurd hmaker'.symm hpq

/-- What a granted request for a buffer does: the bytes are drawn from the allocator of the pool, and
the buffer is added. -/
theorem makeBuffer_ok {a g : Arena} {p b size : Nat} {pool : BufferPool}
    (h : a.makeBuffer p pool size = .ok (g, b)) :
    ∃ f, a.forest.consume pool.allocator size = .ok f ∧ b = a.buffers.length ∧
      g = ({ a with
        forest := f
        buffers := a.buffers ++
          [{ id := pool.nextId, capacity := size, allocator := pool.allocator }] } :
        Arena).modifyPool p fun x => { x with nextId := x.nextId + 1 } := by
  unfold makeBuffer at h
  split at h
  · simp at h
  · cases hf : a.forest.consume pool.allocator size with
    | error refusal => simp [hf] at h
    | ok f =>
      simp only [hf, Except.ok.injEq, Prod.mk.injEq] at h
      obtain ⟨rfl, rfl⟩ := h
      exact ⟨f, rfl, by simp, rfl⟩

/-- What keeps a pool from making a buffer: the size, or the allocators. -/
theorem makeBuffer_error {a : Arena} {p size : Nat} {pool : BufferPool} {refusal : Failure}
    (h : a.makeBuffer p pool size = .error refusal) :
    Word.largest < size ∧
        refusal = .invalidArgument ("buffer size " ++ toString size ++ " is too large") ∨
      a.forest.consume pool.allocator size = .error refusal := by
  unfold makeBuffer at h
  split at h
  · next hsize => exact Or.inl ⟨hsize, (Except.error.inj h).symm⟩
  · cases hf : a.forest.consume pool.allocator size with
    | error found => exact Or.inr (by simpa [hf] using h)
    | ok f => simp [hf] at h

theorem buffer?_makeBuffer {a g : Arena} {p b size : Nat} {pool : BufferPool}
    (h : a.makeBuffer p pool size = .ok (g, b)) (c : Nat) :
    g.buffer? c =
      if c = b then some { id := pool.nextId, capacity := size, allocator := pool.allocator }
      else a.buffer? c := by
  obtain ⟨f, -, rfl, rfl⟩ := makeBuffer_ok h
  unfold modifyPool buffer?
  rcases Nat.lt_trichotomy c a.buffers.length with hc | rfl | hc
  · rw [if_neg (by omega), List.getElem?_append_left hc]
  · simp
  · rw [if_neg (by omega), List.getElem?_eq_none (by simp; omega), List.getElem?_eq_none (by omega)]

theorem pool?_makeBuffer {a g : Arena} {p b size : Nat} {pool : BufferPool}
    (h : a.makeBuffer p pool size = .ok (g, b)) (q : Nat) :
    g.pool? q =
      if p = q then (a.pool? q).map fun x => { x with nextId := x.nextId + 1 } else a.pool? q := by
  obtain ⟨f, -, -, rfl⟩ := makeBuffer_ok h
  exact pool?_modifyPool _ p q _

theorem poolsStay_makeBuffer {a g : Arena} {p b size : Nat} {pool : BufferPool}
    (h : a.makeBuffer p pool size = .ok (g, b)) : a.PoolsStay g [] := by
  obtain ⟨f, -, -, rfl⟩ := makeBuffer_ok h
  exact poolsStay_modifyPool _ p fun _ => ⟨rfl, Iff.rfl⟩

/-- Making a buffer leaves what the pools track. -/
theorem tracked_makeBuffer {a g : Arena} {p b size : Nat} {pool : BufferPool}
    (h : a.makeBuffer p pool size = .ok (g, b)) (q : Nat) : g.tracked q = a.tracked q := by
  rw [tracked, pool?_makeBuffer h, tracked]
  split
  · cases a.pool? q <;> rfl
  · rfl

theorem isReleased_makeBuffer {a g : Arena} {p b size : Nat} {pool : BufferPool}
    (h : a.makeBuffer p pool size = .ok (g, b)) {c : Nat} (hc : c ≠ b) :
    g.isReleased c = a.isReleased c := by
  apply isReleased_congr
  rw [buffer?_makeBuffer h, if_neg hc]

theorem Accounted.make {a g : Arena} {t : Account} (h : a.Accounted t) {p b size : Nat}
    {pool : BufferPool} (hp : a.pool? p = some pool) (hg : a.makeBuffer p pool size = .ok (g, b)) :
    g.Accounted (t ++ [.draw b p pool.allocator size]) := by
  have hbuffer := buffer?_makeBuffer hg
  -- the number is new, so that nothing was drawn or returned for it so far
  have hnone : a.buffer? b = none := by
    obtain ⟨-, -, rfl, -⟩ := makeBuffer_ok hg
    exact buffer?_eq_none_iff.mpr le_rfl
  have hdrawn : ∀ c, Account.drawn [.draw b p pool.allocator size] c =
      if b = c then [.draw b p pool.allocator size] else [] := by
    intro c
    by_cases hbc : b = c <;> simp [Account.drawn, Posting.draws, hbc]
  have hpools := poolsStay_makeBuffer hg
  refine ⟨?_, ?_, ?_, ?_⟩
  · obtain ⟨f, hf, -, rfl⟩ := makeBuffer_ok hg
    rw [Account.calls_append, Forest.performAll_append, ← h.forest_eq]
    show f = a.forest.perform (.consume pool.allocator size)
    rw [Forest.perform, hf]
  · intro c x hc
    rw [hbuffer] at hc
    split at hc
    · next hcb =>
      obtain ⟨y, hy, hallocator, -⟩ := hpools p pool hp
      refine ⟨p, y, hy, ?_, ?_⟩
      · rw [hallocator, ← Option.some.inj hc]
      · rw [Account.drawn_append, hcb, (h.absent b hnone).1, hdrawn, if_pos rfl,
          ← Option.some.inj hc]
        rfl
    · next hcb =>
      obtain ⟨q, x', hq, hallocator, hdrawn'⟩ := h.drawn_eq c x hc
      obtain ⟨y, hy, hallocator', -⟩ := hpools q x' hq
      refine ⟨q, y, hy, hallocator'.trans hallocator, ?_⟩
      rw [Account.drawn_append, hdrawn', hdrawn, if_neg (Ne.symm hcb), List.append_nil]
  · intro c x hc
    have hnew : Account.repaid [.draw b p pool.allocator size] c = [] := rfl
    rw [Account.repaid_append, hnew, List.append_nil]
    rw [hbuffer] at hc
    split at hc
    · next hcb =>
      rw [hcb, (h.absent b hnone).2, ← Option.some.inj hc]
      rfl
    · exact h.repaid_eq c x hc
  · intro c hc
    rw [hbuffer] at hc
    split at hc
    · simp at hc
    · next hcb =>
      obtain ⟨hdrawn', hrepaid⟩ := h.absent c hc
      rw [Account.drawn_append, Account.repaid_append, hdrawn', hrepaid, hdrawn,
        if_neg (Ne.symm hcb)]
      exact ⟨rfl, rfl⟩

/-- A new buffer is not tracked at first, and none of the tracked ones is new. -/
theorem Tracks.make {a g : Arena} {t : Account} (h : a.Tracks t []) (ht : a.Accounted t)
    {p b size : Nat} {pool : BufferPool} (hg : a.makeBuffer p pool size = .ok (g, b)) :
    g.Tracks (t ++ [.draw b p pool.allocator size]) [b] := by
  -- what has a maker was there before
  have hold : ∀ c q, t.maker? c = some q → c ≠ b := by
    rintro c q hmaker rfl
    obtain ⟨x, -, hx, -⟩ := ht.of_maker? hmaker
    obtain ⟨-, -, rfl, -⟩ := makeBuffer_ok hg
    exact absurd (lt_length_of_buffer? hx) (Nat.lt_irrefl _)
  have hmaker : ∀ c, c ≠ b →
      Account.maker? (t ++ [.draw b p pool.allocator size]) c = t.maker? c :=
    fun c hcb => Account.maker?_append_draw_of_ne t hcb p pool.allocator size
  refine ⟨?_, ?_, ?_⟩
  · intro q cs hcs
    exact h.nodup q cs (tracked_makeBuffer hg q ▸ hcs)
  · intro q cs hcs c hc
    have hmade := h.own q cs (tracked_makeBuffer hg q ▸ hcs) c hc
    rw [hmaker c (hold c q hmade), hmade]
  · intro q c hmade hreleased hexempt
    have hcb : c ≠ b := by simpa using hexempt
    rw [hmaker c hcb] at hmade
    rw [isReleased_makeBuffer hg hcb] at hreleased
    rw [tracked_makeBuffer hg]
    exact h.all q c hmade hreleased (by simp)

/-- A new buffer of pool `p` is taken on, and released ones are struck off. -/
theorem Tracks.track {a : Arena} {t : Account} {p b : Nat} (h : a.Tracks t [b])
    {bs : List Nat} (hbs : a.tracked p = some bs) (hb : b ∉ bs) (hmaker : t.maker? b = some p) :
    (a.track p b).Tracks t [] := by
  obtain ⟨pool, hp, hpool⟩ := Option.bind_eq_some_iff.mp hbs
  have htracked : ∀ cs, (pool.tracked.map fun bs => bs.filter (fun x => !a.isReleased x) ++ [b]) =
      some cs → cs = bs.filter (fun x => !a.isReleased x) ++ [b] := by
    intro cs hcs
    rw [hpool, Option.map_some, Option.some.injEq] at hcs
    exact hcs.symm
  refine h.retrack hp hpool _ ?_ ?_ ?_ ?_
  · intro cs hcs
    rw [htracked cs hcs, List.nodup_append]
    refine ⟨(h.nodup p bs hbs).filter _, by simp, ?_⟩
    rintro x hx y hy rfl
    rw [List.mem_singleton] at hy
    exact hb (hy ▸ List.mem_of_mem_filter hx)
  · intro cs hcs c hc
    rw [htracked cs hcs, List.mem_append, List.mem_singleton] at hc
    rcases hc with hc | rfl
    · exact h.own p bs hbs c (List.mem_of_mem_filter hc)
    · exact hmaker
  · intro c _
    by_cases hcb : c = b
    · exact Or.inr (hcb ▸ hmaker)
    · exact Or.inl (by simpa using hcb)
  · intro c hreleased _ hc
    refine ⟨bs.filter (fun x => !a.isReleased x) ++ [b], by rw [hpool]; rfl, ?_⟩
    rw [List.mem_append, List.mem_filter]
    rcases hc with hc | hc
    · exact Or.inl ⟨hc, by simp [hreleased]⟩
    · exact Or.inr hc

theorem poolsStay_track (a : Arena) (p b : Nat) : a.PoolsStay (a.track p b) [] :=
  poolsStay_modifyPool a p fun _ => ⟨rfl, Option.map_eq_none_iff⟩

theorem accounted_track {a : Arena} {t : Account} (h : a.Accounted t) (p b : Nat) :
    (a.track p b).Accounted t :=
  h.repool rfl rfl (poolsStay_track a p b)

-- ---------------------------------------------------------------------------
-- Operations
-- ---------------------------------------------------------------------------

/-- What is drawn when pool `p` is asked for a buffer of `size` bytes now. -/
def drawing (a : Arena) (p size : Nat) : Account :=
  match a.pool? p, a.getBuffer p size with
  | some pool, .ok (_, b) => [.draw b p pool.allocator size]
  | _, _ => []

/-- What is drawn and returned when pool `p` is asked for a buffer in place of `old` now. -/
def exchange (a : Arena) (p old size : Nat) : Account :=
  match a.pool? p, a.replaceBuffer p old size with
  | some pool, .ok (_, b) => .draw b p pool.allocator size :: a.repayment old
  | _, _ => []

/-- What is returned when pool `p` is closed now. -/
def closure (a : Arena) (p : Nat) : Account := a.repayments ((a.tracked p).getD [])

theorem keeps_empty : Keeps {} [] :=
  ⟨accounted_empty, by constructor <;> simp [tracked, pool?, Account.maker?, Account.drawn]⟩

theorem Keeps.ask {a : Arena} {t : Account} (h : a.Keeps t) (c : AllocatorCall) :
    ({ a with forest := a.forest.perform c } : Arena).Keeps (t ++ [.asked c]) :=
  ⟨h.accounted.ask c, h.tracks.keep rfl (fun _ => rfl) fun _ hb => ⟨hb, id⟩⟩

theorem Keeps.release {a : Arena} {t : Account} (h : a.Keeps t) (b : Nat) :
    (a.releaseBuffer b).1.Keeps (t ++ a.repayment b) := by
  refine ⟨h.accounted.release b, h.tracks.keep (pools_releaseBuffer a b) (drawn_repayment a b) ?_⟩
  intro c hc
  rw [isReleased_releaseBuffer, Bool.or_eq_false_iff] at hc
  exact ⟨hc.1, id⟩

/-- The released buffers need no exemption any more. -/
theorem Tracks.releaseAll {a : Arena} {t : Account} {bs : List Nat} (h : a.Tracks t bs) :
    (a.releaseAll bs).1.Tracks (t ++ a.repayments bs) [] := by
  refine h.keep (pools_releaseAll a bs) (drawn_repayments a bs) fun c hc => ?_
  rw [isReleased_releaseAll, Bool.or_eq_false_iff] at hc
  refine ⟨hc.1, fun hmem => ?_⟩
  rw [List.contains_iff_mem.mpr hmem] at hc
  simp at hc

theorem Tracks.mono {a : Arena} {t : Account} {exempt more : List Nat} (h : a.Tracks t exempt)
    (hmore : ∀ b ∈ exempt, b ∈ more) : a.Tracks t more :=
  ⟨h.nodup, h.own, fun p b hmaker hb hexempt =>
    h.all p b hmaker hb fun hmem => hexempt (hmore b hmem)⟩

theorem Keeps.releaseAll {a : Arena} {t : Account} (h : a.Keeps t) (bs : List Nat) :
    (a.releaseAll bs).1.Keeps (t ++ a.repayments bs) :=
  ⟨h.accounted.releaseAll bs, (h.tracks.mono (by simp)).releaseAll⟩

/-- Writing into a buffer, or any other change that neither releases it nor turns it into another. -/
theorem Keeps.write {a : Arena} {t : Account} (h : a.Keeps t) {b : Nat} {x y : Buffer}
    (hb : a.buffer? b = some x) (hy : y.allocator = x.allocator ∧ y.capacity = x.capacity ∧
      y.isReleased = x.isReleased) : (a.modifyBuffer b fun _ => y).Keeps t := by
  have hbuffer : ∀ c z, (a.modifyBuffer b fun _ => y).buffer? c = some z →
      ∃ x', a.buffer? c = some x' ∧ z.allocator = x'.allocator ∧ z.capacity = x'.capacity ∧
        z.isReleased = x'.isReleased := by
    intro c z hz
    rw [buffer?_modifyBuffer] at hz
    split at hz
    · next hbc =>
      rw [← hbc, hb, Option.map_some, Option.some.injEq] at hz
      exact ⟨x, hbc ▸ hb, hz ▸ hy⟩
    · exact ⟨z, hz, rfl, rfl, rfl⟩
  have hreleased : ∀ c, (a.modifyBuffer b fun _ => y).isReleased c = a.isReleased c := by
    intro c
    cases hc : (a.modifyBuffer b fun _ => y).buffer? c with
    | none =>
      rw [buffer?_eq_none_iff] at hc
      have hc' : a.buffer? c = none := buffer?_eq_none_iff.mpr (by simpa [modifyBuffer] using hc)
      rw [isReleased, isReleased, hc', buffer?_eq_none_iff.mpr hc]
    | some z =>
      obtain ⟨x', hx', -, -, hsame⟩ := hbuffer c z hc
      rw [isReleased_of_buffer? hc, isReleased_of_buffer? hx', hsame]
  constructor
  · refine ⟨h.accounted.forest_eq, ?_, ?_, ?_⟩
    · intro c z hz
      obtain ⟨x', hx', hallocator, hcapacity, -⟩ := hbuffer c z hz
      rw [hallocator, hcapacity]
      exact h.accounted.drawn_eq c x' hx'
    · intro c z hz
      obtain ⟨x', hx', hallocator, hcapacity, hsame⟩ := hbuffer c z hz
      rw [hallocator, hcapacity, hsame]
      exact h.accounted.repaid_eq c x' hx'
    · intro c hc
      refine h.accounted.absent c (buffer?_eq_none_iff.mpr ?_)
      simpa [modifyBuffer] using buffer?_eq_none_iff.mp hc
  · have hkeep : (a.modifyBuffer b fun _ => y).Tracks (t ++ []) [] :=
      h.tracks.keep rfl (fun _ => rfl) fun c hc => ⟨hreleased c ▸ hc, id⟩
    rwa [List.append_nil] at hkeep

theorem pool?_openPool (a : Arena) (owner : String) (allocator defaultSize q : Nat) :
    (a.openPool owner allocator defaultSize).1.pool? q =
      if q = a.pools.length then some { owner, allocator, defaultSize } else a.pool? q := by
  unfold openPool pool?
  rcases Nat.lt_trichotomy q a.pools.length with hq | rfl | hq
  · rw [if_neg (by omega), List.getElem?_append_left hq]
  · simp
  · rw [if_neg (by omega), List.getElem?_eq_none (by simp; omega), List.getElem?_eq_none (by omega)]

theorem poolsStay_openPool (a : Arena) (owner : String) (allocator defaultSize : Nat) :
    a.PoolsStay (a.openPool owner allocator defaultSize).1 [] := by
  intro q x hq
  have hlt : q < a.pools.length := (List.getElem?_eq_some_iff.mp hq).1
  exact ⟨x, by rw [pool?_openPool, if_neg (Nat.ne_of_lt hlt), hq], rfl, by simp⟩

/-- A new pool has made no buffer yet. -/
theorem Keeps.openPool {a : Arena} {t : Account} (h : a.Keeps t) (owner : String)
    (allocator defaultSize : Nat) : (a.openPool owner allocator defaultSize).1.Keeps t := by
  have hpool := pool?_openPool a owner allocator defaultSize
  have hnone : a.pool? a.pools.length = none := List.getElem?_eq_none le_rfl
  have htracked : ∀ q bs, (a.openPool owner allocator defaultSize).1.tracked q = some bs →
      bs = [] ∨ a.tracked q = some bs := by
    intro q bs hbs
    rw [tracked, hpool] at hbs
    split at hbs
    · exact Or.inl (Option.some.inj hbs).symm
    · exact Or.inr hbs
  constructor
  · exact h.accounted.repool rfl rfl (poolsStay_openPool a owner allocator defaultSize)
  · refine ⟨fun q bs hbs => ?_, fun q bs hbs => ?_, ?_⟩
    · rcases htracked q bs hbs with rfl | hold
      · exact List.nodup_nil
      · exact h.tracks.nodup q bs hold
    · rcases htracked q bs hbs with rfl | hold
      · simp
      · exact h.tracks.own q bs hold
    · intro q b hmaker hb hexempt
      obtain ⟨bs, hbs, hmem⟩ := h.tracks.all q b hmaker hb hexempt
      refine ⟨bs, ?_, hmem⟩
      have hne : q ≠ a.pools.length := by
        rintro rfl
        rw [tracked, hnone] at hbs
        simp at hbs
      rw [tracked, hpool, if_neg hne, ← tracked, hbs]

theorem getBuffer_ok {a g : Arena} {p b size : Nat} (h : a.getBuffer p size = .ok (g, b)) :
    ∃ pool bs m, a.pool? p = some pool ∧ pool.tracked = some bs ∧
      a.makeBuffer p pool size = .ok (m, b) ∧ g = m.track p b := by
  unfold getBuffer at h
  cases hp : a.pool? p with
  | none => simp [hp] at h
  | some pool =>
    cases hbs : pool.tracked with
    | none => simp [hp, hbs] at h
    | some bs =>
      cases hm : a.makeBuffer p pool size with
      | error refusal => simp [hp, hbs, hm] at h
      | ok made =>
        simp only [hp, hbs, hm, Except.ok.injEq, Prod.mk.injEq] at h
        obtain ⟨rfl, rfl⟩ := h
        exact ⟨pool, bs, made.1, rfl, hbs, hm, rfl⟩

theorem replaceBuffer_ok {a g : Arena} {p old b size : Nat}
    (h : a.replaceBuffer p old size = .ok (g, b)) :
    ∃ pool bs m, a.pool? p = some pool ∧ pool.tracked = some bs ∧ old ∈ bs ∧
      a.makeBuffer p pool size = .ok (m, b) ∧
      g = ((m.modifyPool p fun x =>
        { x with tracked := x.tracked.map (·.filter (· ≠ old)) }).releaseBuffer old).1.track p b := by
  unfold replaceBuffer at h
  cases hp : a.pool? p with
  | none => simp [hp] at h
  | some pool =>
    cases hold : a.buffer? old with
    | none => simp [hp, hold] at h
    | some x =>
      cases hbs : pool.tracked with
      | none => simp [hp, hold, hbs] at h
      | some bs =>
        cases hmem : bs.contains old with
        | false =>
          simp only [hp, hold, hbs, hmem] at h
          simp at h
        | true =>
          cases hm : a.makeBuffer p pool size with
          | error refusal =>
            simp only [hp, hold, hbs, hmem, hm] at h
            simp at h
          | ok made =>
            simp only [hp, hold, hbs, hm, hmem, if_true, Except.ok.injEq, Prod.mk.injEq] at h
            obtain ⟨rfl, rfl⟩ := h
            exact ⟨pool, bs, made.1, rfl, hbs, List.contains_iff_mem.mp hmem, hm, rfl⟩

theorem drawing_eq {a g : Arena} {p b size : Nat} {pool : BufferPool} (hp : a.pool? p = some pool)
    (hg : a.getBuffer p size = .ok (g, b)) : a.drawing p size = [.draw b p pool.allocator size] := by
  rw [drawing, hp, hg]

theorem append_exchange (t : Account) {a g : Arena} {p old b size : Nat} {pool : BufferPool}
    (hp : a.pool? p = some pool) (hg : a.replaceBuffer p old size = .ok (g, b)) :
    t ++ a.exchange p old size = t ++ [.draw b p pool.allocator size] ++ a.repayment old := by
  rw [exchange, hp, hg, List.append_assoc]
  rfl

/-- What a pool tracks was made before. -/
theorem Keeps.ne_of_makeBuffer {a g : Arena} {t : Account} (h : a.Keeps t) {p b size : Nat}
    {pool : BufferPool} (hg : a.makeBuffer p pool size = .ok (g, b)) {q : Nat} {bs : List Nat}
    (hbs : a.tracked q = some bs) {c : Nat} (hc : c ∈ bs) : c ≠ b := by
  obtain ⟨x, -, hx, -⟩ := h.accounted.of_maker? (h.tracks.own q bs hbs c hc)
  obtain ⟨-, -, rfl, -⟩ := makeBuffer_ok hg
  exact Nat.ne_of_lt (lt_length_of_buffer? hx)

theorem Accounted.maker?_make {a g : Arena} {t : Account} (h : a.Accounted t) {p b size : Nat}
    {pool : BufferPool} (hg : a.makeBuffer p pool size = .ok (g, b)) :
    Account.maker? (t ++ [.draw b p pool.allocator size]) b = some p := by
  have hnone : a.buffer? b = none := by
    obtain ⟨-, -, rfl, -⟩ := makeBuffer_ok hg
    exact buffer?_eq_none_iff.mpr le_rfl
  rw [Account.maker?, Account.drawn_append, (h.absent b hnone).1]
  simp [Account.drawn, Posting.draws, Posting.pool?]

theorem Keeps.getBuffer {a g : Arena} {t : Account} (h : a.Keeps t) {p b size : Nat}
    (hg : a.getBuffer p size = .ok (g, b)) : g.Keeps (t ++ a.drawing p size) := by
  obtain ⟨pool, bs, m, hp, hbs, hm, rfl⟩ := getBuffer_ok hg
  have htracked : a.tracked p = some bs := (tracked_of_pool? hp).trans hbs
  rw [drawing_eq hp hg]
  refine ⟨accounted_track (h.accounted.make hp hm) p b, ?_⟩
  refine (h.tracks.make h.accounted hm).track ((tracked_makeBuffer hm p).trans htracked) ?_
    (h.accounted.maker?_make hm)
  exact fun hb => h.ne_of_makeBuffer hm htracked hb rfl

theorem poolsStay_strike (a : Arena) (p old : Nat) :
    a.PoolsStay (a.modifyPool p fun x =>
      { x with tracked := x.tracked.map (·.filter (· ≠ old)) }) [] :=
  poolsStay_modifyPool a p fun _ => ⟨rfl, Option.map_eq_none_iff⟩

/-- Pool `p` strikes buffer `old` off, which then counts as exempt. -/
theorem Tracks.strike {a : Arena} {t : Account} {p : Nat} {exempt bs : List Nat}
    (h : a.Tracks t exempt) (hbs : a.tracked p = some bs) (old : Nat) :
    (a.modifyPool p fun x => { x with tracked := x.tracked.map (·.filter (· ≠ old)) }).Tracks t
      (old :: exempt) := by
  obtain ⟨pool, hp, hpool⟩ := Option.bind_eq_some_iff.mp hbs
  have htracked : ∀ cs, (pool.tracked.map (·.filter (· ≠ old))) = some cs →
      cs = bs.filter (· ≠ old) := by
    intro cs hcs
    rw [hpool, Option.map_some, Option.some.injEq] at hcs
    exact hcs.symm
  refine h.retrack hp hpool _ ?_ ?_ ?_ ?_
  · intro cs hcs
    rw [htracked cs hcs]
    exact (h.nodup p bs hbs).filter _
  · intro cs hcs c hc
    rw [htracked cs hcs] at hc
    exact h.own p bs hbs c (List.mem_of_mem_filter hc)
  · intro c hc
    rw [List.mem_cons, not_or] at hc
    exact Or.inl hc.2
  · intro c _ hleft hc
    rw [List.mem_cons, not_or] at hleft
    refine ⟨bs.filter (· ≠ old), by rw [hpool]; rfl, ?_⟩
    rw [List.mem_filter]
    exact ⟨hc.resolve_right hleft.2, by simpa using hleft.1⟩

theorem Keeps.replaceBuffer {a g : Arena} {t : Account} (h : a.Keeps t) {p old b size : Nat}
    (hg : a.replaceBuffer p old size = .ok (g, b)) : g.Keeps (t ++ a.exchange p old size) := by
  obtain ⟨pool, bs, m, hp, hbs, hold, hm, rfl⟩ := replaceBuffer_ok hg
  have htracked : a.tracked p = some bs := (tracked_of_pool? hp).trans hbs
  have htracked' : m.tracked p = some bs := (tracked_makeBuffer hm p).trans htracked
  have hne : old ≠ b := h.ne_of_makeBuffer hm htracked hold
  generalize hk : (m.modifyPool p fun x =>
    { x with tracked := x.tracked.map (·.filter (· ≠ old)) }) = k
  -- making the new buffer leaves the old one as it is
  have hrepayment : a.repayment old = k.repayment old := by
    subst hk
    have hsame : m.buffer? old = a.buffer? old := by rw [buffer?_makeBuffer hm, if_neg hne]
    rw [repayment, ← hsame]
    rfl
  rw [append_exchange t hp hg, hrepayment]
  -- made and struck off, then released, then taken on: `b` is exempt until the end
  have haccounted : k.Accounted (t ++ [.draw b p pool.allocator size]) :=
    (h.accounted.make hp hm).repool (hk ▸ rfl) (hk ▸ rfl)
      (hk ▸ poolsStay_strike m p old)
  have hstruck : k.Tracks (t ++ [.draw b p pool.allocator size]) [old, b] :=
    hk ▸ (h.tracks.make h.accounted hm).strike htracked' old
  have hreleased : (k.releaseBuffer old).1.Tracks
      (t ++ [.draw b p pool.allocator size] ++ k.repayment old) [b] := by
    refine hstruck.keep (pools_releaseBuffer k old) (drawn_repayment k old) fun c hc => ?_
    rw [isReleased_releaseBuffer, Bool.or_eq_false_iff, beq_eq_false_iff_ne] at hc
    refine ⟨hc.1, fun hmem => ?_⟩
    rcases List.mem_cons.mp hmem with rfl | hmem
    · exact absurd rfl hc.2
    · exact hmem
  have hleft : (k.releaseBuffer old).1.tracked p = some (bs.filter (· ≠ old)) := by
    obtain ⟨pool', hp', hpool'⟩ := Option.bind_eq_some_iff.mp htracked'
    rw [tracked, pool?, pools_releaseBuffer, ← pool?, ← tracked, ← hk, tracked_modifyPool_self hp',
      hpool']
    rfl
  refine ⟨accounted_track (haccounted.release old) p b, hreleased.track hleft ?_ ?_⟩
  · exact fun hb => h.ne_of_makeBuffer hm htracked (List.mem_of_mem_filter hb) rfl
  · rw [Account.maker?_append (drawn_repayment k old b), h.accounted.maker?_make hm]

theorem fst_closePool_of_none {a : Arena} {p : Nat} (hp : a.tracked p = none) :
    a.closePool p = (a, none) := by
  rw [tracked] at hp
  rw [closePool, hp]

theorem fst_closePool {a : Arena} {p : Nat} {bs : List Nat} (hbs : a.tracked p = some bs) :
    (a.closePool p).1 = ((a.modifyPool p fun x => { x with tracked := none }).releaseAll bs).1 := by
  rw [tracked] at hbs
  rw [closePool, hbs]

/-- What is returned for buffers does not depend on the pools. -/
theorem repayments_congr {a g : Arena} (hbuffers : g.buffers = a.buffers)
    (hforest : g.forest = a.forest) (bs : List Nat) : g.repayments bs = a.repayments bs := by
  induction bs generalizing a g with
  | nil => rfl
  | cons b rest ih =>
    have hb : g.buffer? b = a.buffer? b := by rw [buffer?, hbuffers, buffer?]
    rw [repayments, repayments, repayment, hb, ← repayment]
    congr 1
    cases hx : a.buffer? b with
    | none =>
      rw [releaseBuffer_of_none hx, releaseBuffer_of_none (hb.trans hx)]
      exact ih hbuffers hforest
    | some x =>
      cases hr : x.isReleased with
      | true =>
        rw [releaseBuffer_of_released hx hr, releaseBuffer_of_released (hb.trans hx) hr]
        exact ih hbuffers hforest
      | false =>
        rw [releaseBuffer_of_unreleased hx hr, releaseBuffer_of_unreleased (hb.trans hx) hr]
        apply ih
        · show g.buffers.modify b _ = a.buffers.modify b _
          rw [hbuffers]
        · show g.forest.release _ _ = a.forest.release _ _
          rw [hforest]

/-- A pool that is closed strikes everything off at once, and everything it tracked is released. -/
theorem Keeps.closePool {a : Arena} {t : Account} (h : a.Keeps t) (p : Nat) :
    (a.closePool p).1.Keeps (t ++ a.closure p) := by
  cases hbs : a.tracked p with
  | none =>
    rw [fst_closePool_of_none hbs, closure, hbs]
    simpa [repayments] using h
  | some bs =>
    obtain ⟨pool, hp, hpool⟩ := Option.bind_eq_some_iff.mp hbs
    rw [fst_closePool hbs, closure, hbs, Option.getD_some,
      ← repayments_congr (a := a) (g := a.modifyPool p fun x => { x with tracked := none }) rfl rfl]
    have haccounted : (a.modifyPool p fun x => { x with tracked := none }).Accounted t :=
      h.accounted.repool rfl rfl (poolsStay_closing a p)
    -- until they are released, all that it tracked are exempt
    have hstruck : (a.modifyPool p fun x => { x with tracked := none }).Tracks t bs := by
      refine h.tracks.retrack hp hpool _ (by simp) (by simp) (fun _ _ => Or.inl (by simp)) ?_
      intro b _ hb hmem
      exact absurd (hmem.resolve_right (by simp)) hb
    exact ⟨haccounted.releaseAll bs, hstruck.releaseAll⟩

/-- Closing a pool releases what it tracked. -/
theorem isReleased_closePool (a : Arena) (p c : Nat) :
    (a.closePool p).1.isReleased c = (a.isReleased c || ((a.tracked p).getD []).contains c) := by
  cases hbs : a.tracked p with
  | none =>
    rw [fst_closePool_of_none hbs]
    simp
  | some bs =>
    rw [fst_closePool hbs, isReleased_releaseAll, Option.getD_some]
    rfl

-- ---------------------------------------------------------------------------
-- Pools stay on their allocators
-- ---------------------------------------------------------------------------

theorem poolsStay_getBuffer {a g : Arena} {p b size : Nat} (hg : a.getBuffer p size = .ok (g, b)) :
    a.PoolsStay g [] := by
  obtain ⟨pool, bs, m, -, -, hm, rfl⟩ := getBuffer_ok hg
  exact (poolsStay_makeBuffer hm).trans (poolsStay_track m p b)

theorem poolsStay_replaceBuffer {a g : Arena} {p old b size : Nat}
    (hg : a.replaceBuffer p old size = .ok (g, b)) : a.PoolsStay g [] := by
  obtain ⟨pool, bs, m, -, -, -, hm, rfl⟩ := replaceBuffer_ok hg
  have hstruck := (poolsStay_makeBuffer hm).trans (poolsStay_strike m p old)
  have hreleased := hstruck.trans (poolsStay_of_eq (pools_releaseBuffer _ old))
  exact hreleased.trans (poolsStay_track _ p b)

theorem poolsStay_closePool (a : Arena) (p : Nat) : a.PoolsStay (a.closePool p).1 [p] := by
  cases hbs : a.tracked p with
  | none =>
    -- a pool that was closed before counts as closing again
    rw [fst_closePool_of_none hbs]
    intro q x hq
    refine ⟨x, hq, rfl, ?_⟩
    rw [List.mem_singleton, iff_self_or]
    rintro rfl
    rwa [tracked_of_pool? hq] at hbs
  | some bs =>
    rw [fst_closePool hbs]
    exact (poolsStay_closing a p).trans (poolsStay_of_eq (pools_releaseAll _ bs))

end Arena

end FragmentHost

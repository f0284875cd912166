import FragmentHost.Proofs.Host.Conservation

/-!
# The numbers of buffers

A pool numbers its buffers in the order in which it makes them. Buffers are released and struck off, but the
number of the next one stays above those of all that the pool ever made (`Arena.Numbered`). It moves on when a
buffer is made and at no other time (`Arena.SameNumbers`), so that what is above stays above over any run
(`Host.numbered_actAll`).
-/

namespace FragmentHost

namespace Arena

/-- Of the buffers that a pool made, each has a number below that of the next one. -/
def Numbered (a : Arena) (t : Account) : Prop :=
  ∀ b x p pool, a.buffer? b = some x → t.maker? b = some p → a.pool? p = some pool →
    x.id < pool.nextId

/-- No pool moves on to another number, and each buffer was there with the number that it has. -/
structure SameNumbers (a g : Arena) : Prop where
  pools : ∀ p x, a.pool? p = some x → ∃ y, g.pool? p = some y ∧ y.nextId = x.nextId
  buffers : ∀ b y, g.buffer? b = some y → ∃ x, a.buffer? b = some x ∧ x.id = y.id

section

variable {a g k : Arena} {t u : Account} {p b size : Nat} {pool : BufferPool}

-- ---------------------------------------------------------------------------
-- What keeps the numbers
-- ---------------------------------------------------------------------------

theorem sameNumbers_of_eq (hpools : g.pools = a.pools) (hbuffers : g.buffers = a.buffers) :
    a.SameNumbers g where
  pools p x hp := ⟨x, by rw [pool?, hpools, ← pool?, hp], rfl⟩
  buffers b y hb := ⟨y, by rw [buffer?, ← hbuffers, ← buffer?, hb], rfl⟩

theorem SameNumbers.trans (hag : a.SameNumbers g) (hgk : g.SameNumbers k) : a.SameNumbers k where
  pools p x hp := by
    obtain ⟨y, hy, hyx⟩ := hag.pools p x hp
    obtain ⟨z, hz, hzy⟩ := hgk.pools p y hy
    exact ⟨z, hz, hzy.trans hyx⟩
  buffers b z hb := by
    obtain ⟨y, hy, hyz⟩ := hgk.buffers b z hb
    obtain ⟨x, hx, hxy⟩ := hag.buffers b y hy
    exact ⟨x, hx, hxy.trans hyz⟩

theorem sameNumbers_modifyPool (a : Arena) (p : Nat) {change : BufferPool → BufferPool}
    (h : ∀ x, (change x).nextId = x.nextId) : a.SameNumbers (a.modifyPool p change) where
  pools q x hq := by
    rw [pool?_modifyPool, hq]
    split
    · exact ⟨change x, rfl, h x⟩
    · exact ⟨x, rfl, rfl⟩
  buffers b y hb := ⟨y, hb, rfl⟩

theorem sameNumbers_modifyBuffer (a : Arena) (b : Nat) {change : Buffer → Buffer}
    (h : ∀ x, a.buffer? b = some x → (change x).id = x.id) : a.SameNumbers (a.modifyBuffer b change) where
  pools q x hq := ⟨x, hq, rfl⟩
  buffers c y hc := by
    rw [buffer?_modifyBuffer] at hc
    split at hc
    · next hbc =>
      subst hbc
      obtain ⟨x, hx, rfl⟩ := Option.map_eq_some_iff.mp hc
      exact ⟨x, hx, (h x hx).symm⟩
    · exact ⟨y, hc, rfl⟩

theorem sameNumbers_releaseBuffer (a : Arena) (b : Nat) : a.SameNumbers (a.releaseBuffer b).1 where
  pools p x hp := ⟨x, by rw [pool?, pools_releaseBuffer, ← pool?, hp], rfl⟩
  buffers c y hc := by
    rw [buffer?_releaseBuffer] at hc
    split at hc
    · obtain ⟨x, hx, rfl⟩ := Option.map_eq_some_iff.mp hc
      exact ⟨x, hx, rfl⟩
    · exact ⟨y, hc, rfl⟩

theorem sameNumbers_releaseAll (a : Arena) (bs : List Nat) : a.SameNumbers (a.releaseAll bs).1 := by
  induction bs generalizing a with
  | nil => exact sameNumbers_of_eq rfl rfl
  | cons b rest ih => exact (sameNumbers_releaseBuffer a b).trans (ih (a.releaseBuffer b).1)

theorem sameNumbers_openPool (a : Arena) (owner : String) (allocator defaultSize : Nat) :
    a.SameNumbers (a.openPool owner allocator defaultSize).1 where
  pools p x hp := by
    have hlt : p < a.pools.length := (List.getElem?_eq_some_iff.mp hp).1
    exact ⟨x, by rw [pool?_openPool, if_neg (Nat.ne_of_lt hlt), hp], rfl⟩
  buffers b y hb := ⟨y, hb, rfl⟩

theorem sameNumbers_closePool (a : Arena) (p : Nat) : a.SameNumbers (a.closePool p).1 := by
  cases hbs : a.tracked p with
  | none =>
    rw [fst_closePool_of_none hbs]
    exact sameNumbers_of_eq rfl rfl
  | some bs =>
    have hstruck : a.SameNumbers (a.modifyPool p fun x => { x with tracked := none }) :=
      sameNumbers_modifyPool a p fun _ => rfl
    rw [fst_closePool hbs]
    exact hstruck.trans (sameNumbers_releaseAll _ bs)

theorem sameNumbers_track (a : Arena) (p b : Nat) : a.SameNumbers (a.track p b) :=
  sameNumbers_modifyPool a p fun _ => rfl

/-- What happens to the buffers of a replacement once the new one is made. -/
theorem sameNumbers_exchange (a : Arena) (p old b : Nat) :
    a.SameNumbers (((a.modifyPool p fun x =>
      { x with tracked := x.tracked.map (·.filter (· ≠ old)) }).releaseBuffer old).1.track p b) := by
  have hstruck : a.SameNumbers (a.modifyPool p fun x =>
      { x with tracked := x.tracked.map (·.filter (· ≠ old)) }) :=
    sameNumbers_modifyPool a p fun _ => rfl
  exact (hstruck.trans (sameNumbers_releaseBuffer _ old)).trans (sameNumbers_track _ p b)

-- ---------------------------------------------------------------------------
-- Numbers stay below the next one
-- ---------------------------------------------------------------------------

theorem numbered_empty : Numbered {} [] := fun b x _ _ hb => by simp [buffer?] at hb

theorem Numbered.keep (h : a.Numbered t) (ha : a.Accounted t) (hg : g.Accounted (t ++ u))
    (hs : a.SameNumbers g) : g.Numbered (t ++ u) := by
  intro b y p pool hb hmaker hp
  obtain ⟨x, hx, hid⟩ := hs.buffers b y hb
  -- the buffer was there, so that nothing is drawn for it now
  have hdrawn : u.drawn b = [] := by
    by_contra hne
    have hnone := ((ha.drawn_ne_nil_iff hg).mp hne).1
    simp [hx] at hnone
  rw [Account.maker?_append hdrawn] at hmaker
  obtain ⟨-, before, -, hbefore, -⟩ := ha.of_maker? hmaker
  obtain ⟨after, hafter, hnext⟩ := hs.pools p before hbefore
  obtain rfl : after = pool := Option.some.inj (hafter.symm.trans hp)
  rw [← hid, hnext]
  exact h b x p before hx hmaker hbefore

/-- The new buffer has the number that was the next one. -/
theorem Numbered.make (h : a.Numbered t) (ht : a.Accounted t) (hp : a.pool? p = some pool)
    (hg : a.makeBuffer p pool size = .ok (g, b)) :
    g.Numbered (t ++ [.draw b p pool.allocator size]) := by
  intro c x q after hc hmaker hq
  rw [buffer?_makeBuffer hg] at hc
  rw [pool?_makeBuffer hg] at hq
  split at hc
  · next hcb =>
    obtain rfl : p = q := by
      rw [hcb, ht.maker?_make hg] at hmaker
      exact Option.some.inj hmaker
    rw [if_pos rfl, hp] at hq
    rw [← Option.some.inj hc, ← Option.some.inj hq]
    exact Nat.lt_succ_self pool.nextId
  · next hcb =>
    rw [Account.maker?_append_draw_of_ne t hcb] at hmaker
    split at hq
    · next hpq =>
      obtain ⟨before, hbefore, rfl⟩ := Option.map_eq_some_iff.mp hq
      exact Nat.lt_succ_of_lt (h c x q before hc hmaker hbefore)
    · exact h c x q after hc hmaker hq

theorem Numbered.getBuffer (h : a.Numbered t) (hk : a.Keeps t) (hg : a.getBuffer p size = .ok (g, b)) :
    g.Numbered (t ++ a.drawing p size) := by
  have hg' := (hk.getBuffer hg).accounted
  obtain ⟨pool, bs, m, hp, -, hm, rfl⟩ := getBuffer_ok hg
  rw [drawing_eq hp hg] at hg' ⊢
  have hmade := h.make hk.accounted hp hm
  have hkept := hmade.keep (u := []) (hk.accounted.make hp hm) (by rwa [List.append_nil])
    (sameNumbers_track m p b)
  rwa [List.append_nil] at hkept

theorem Numbered.replaceBuffer {old : Nat} (h : a.Numbered t) (hk : a.Keeps t)
    (hg : a.replaceBuffer p old size = .ok (g, b)) : g.Numbered (t ++ a.exchange p old size) := by
  have hg' := (hk.replaceBuffer hg).accounted
  obtain ⟨pool, bs, m, hp, -, -, hm, rfl⟩ := replaceBuffer_ok hg
  rw [append_exchange t hp hg] at hg' ⊢
  exact (h.make hk.accounted hp hm).keep (hk.accounted.make hp hm) hg' (sameNumbers_exchange m p old b)

end

end Arena

/-- A call that asks a pool for a buffer. -/
def HostCall.wantsBuffer : HostCall → Bool
  | .getDefault _ | .getBuffer _ _ | .replaceBuffer _ _ _ _ => true
  | _ => false

namespace Host

variable {h : Host} {t : Account}

-- ---------------------------------------------------------------------------
-- Runs
-- ---------------------------------------------------------------------------

theorem sameNumbers_writeBuffer (h : Host) (b start : Nat) (bytes : List UInt8) :
    h.arena.SameNumbers (h.writeBuffer b start bytes).arena := by
  unfold writeBuffer
  cases hb : h.arena.buffer? b with
  | none => exact Arena.sameNumbers_of_eq rfl rfl
  | some x =>
    dsimp only
    cases hx : x.write start bytes with
    | error refusal => exact Arena.sameNumbers_of_eq rfl rfl
    | ok written =>
      refine Arena.sameNumbers_modifyBuffer _ b fun y hy => ?_
      obtain rfl : x = y := Option.some.inj (hb.symm.trans hy)
      unfold Buffer.write at hx
      split at hx
      · simp at hx
      · split at hx <;> obtain rfl := Except.ok.inj hx <;> rfl

theorem sameNumbers_openContext (h : Host) (environment : Nat) (e : Environment) (plan : PlanFragment)
    (session : Option UserSession) (registry : Nat) :
    h.arena.SameNumbers (h.openContext environment e plan session registry).1.arena := by
  cases hp : prepare h.zones e plan with
  | error f =>
    rw [openContext_of_prepare_error hp]
    exact Arena.sameNumbers_of_eq rfl rfl
  | ok prepared =>
    rcases arena_openContext environment session registry hp rfl with harena | ⟨allocator, size, harena⟩
    · rw [harena]
      exact Arena.sameNumbers_of_eq rfl rfl
    · rw [harena]
      refine Arena.SameNumbers.trans ?_ (Arena.sameNumbers_openPool _ _ _ _)
      exact Arena.sameNumbers_of_eq rfl rfl

theorem sameNumbers_openEnvironment (h : Host) (root : Option Nat) (endpoint : Endpoint)
    (options : Option OptionStack) (services : Services) :
    h.arena.SameNumbers (h.act (.openEnvironment root endpoint options services)).arena := by
  rw [act]
  split
  · rw [(writes_openEnvironment _ _ endpoint options services).arena_eq rfl]
    cases root <;> exact Arena.sameNumbers_of_eq rfl rfl
  · exact Arena.sameNumbers_of_eq rfl rfl

/-- Giving up releases buffers, and makes none. -/
theorem sameNumbers_giveUp (h : Host) (names : Holders) (buffers allocators : List Nat) :
    h.arena.SameNumbers ((h.giveUpBuffers names buffers).giveUpAllocators names allocators).arena := by
  obtain ⟨f, hf⟩ := arena_giveUpAllocators_eq (h.giveUpBuffers names buffers) names allocators
  rw [hf]
  exact (Arena.sameNumbers_releaseAll h.arena (h.unheldBuffers names buffers)).trans
    (Arena.sameNumbers_of_eq rfl rfl)

theorem sameNumbers_closeContext (h : Host) (n : Nat) :
    h.arena.SameNumbers (h.closeContext n).1.arena := by
  cases hc : h.context? n with
  | none =>
    rw [closeContext, hc]
    exact Arena.sameNumbers_of_eq rfl rfl
  | some c =>
    cases hclosed : c.isClosed with
    | true =>
      rw [closeContext, hc]
      simp only [hclosed, if_true]
      exact Arena.sameNumbers_of_eq rfl rfl
    | false =>
      rw [arena_closeContext hc hclosed]
      exact (Arena.sameNumbers_closePool h.arena c.pool).trans (Arena.sameNumbers_of_eq rfl rfl)

/-- A call that asks for no buffer keeps the numbers. -/
theorem sameNumbers_act (h : Host) {c : HostCall} (hc : c.wantsBuffer = false) :
    h.arena.SameNumbers (h.act c).arena := by
  cases c with
  | getDefault | getBuffer | replaceBuffer => simp [HostCall.wantsBuffer] at hc
  | child parent label initial max obeysLimits =>
    rw [arena_child]
    exact Arena.sameNumbers_of_eq rfl rfl
  | consume allocator bytes =>
    rw [arena_consume]
    exact Arena.sameNumbers_of_eq rfl rfl
  | openPool owner allocator defaultSize =>
    exact Arena.sameNumbers_openPool h.arena owner allocator defaultSize
  | releaseBuffer b => exact Arena.sameNumbers_releaseBuffer h.arena b
  | write b start bytes => exact sameNumbers_writeBuffer h b start bytes
  | closePool pool =>
    have harena : (h.closePool pool).arena = (h.arena.closePool pool).1 := fst_closingOf h.arena pool
    rw [act, harena]
    exact Arena.sameNumbers_closePool h.arena pool
  | openEnvironment root endpoint options services =>
    exact sameNumbers_openEnvironment h root endpoint options services
  | openContext environment plan session registry =>
    rw [act]
    split
    · exact sameNumbers_openContext h environment _ plan session registry
    · exact Arena.sameNumbers_of_eq rfl rfl
  | closeContext context => exact sameNumbers_closeContext h context
  | keep names => exact sameNumbers_giveUp h names _ _
  | root | release | limit | closeAllocator => exact Arena.sameNumbers_of_eq rfl rfl
  | _ =>
    rw [arena_act h rfl]
    exact Arena.sameNumbers_of_eq rfl rfl

/-- The outcome of a request for a buffer. -/
theorem numbered_orSame {u : Account} {outcome : Except Failure (Arena × Nat)} (hn : h.arena.Numbered t)
    (hok : ∀ g b, outcome = .ok (g, b) → g.Numbered (t ++ u))
    (herror : ∀ refusal, outcome = .error refusal → u = []) :
    (h.orSame (h.ofArena outcome)).arena.Numbered (t ++ u) := by
  cases ho : outcome with
  | error refusal =>
    rw [herror refusal ho, List.append_nil]
    exact hn
  | ok made => exact hok made.1 made.2 ho

theorem numbered_getBuffer (hk : h.arena.Keeps t) (hn : h.arena.Numbered t) (p size : Nat) :
    (h.orSame (h.getBuffer p size)).arena.Numbered (t ++ h.arena.drawing p size) := by
  refine numbered_orSame hn (fun g b hg => hn.getBuffer hk hg) fun refusal hg => ?_
  rw [Arena.drawing, hg]
  cases h.arena.pool? p <;> rfl

theorem numbered_replaceBuffer (hk : h.arena.Keeps t) (hn : h.arena.Numbered t) (p old size : Nat)
    (left : Holders) : (h.act (.replaceBuffer p old size left)).arena.Numbered
      (t ++ h.postings (.replaceBuffer p old size left)) := by
  have hkept := (keeps_act hk (.replaceBuffer p old size left)).accounted
  rw [act, postings, replaceBuffer] at hkept ⊢
  cases hg : h.arena.replaceBuffer p old size with
  | ok made => exact hn.replaceBuffer hk hg
  | error refusal =>
    rw [hg] at hkept
    exact hn.keep hk.accounted hkept (sameNumbers_giveUp h left [old] _)

theorem numbered_act (hk : h.arena.Keeps t) (hn : h.arena.Numbered t) (c : HostCall) :
    (h.act c).arena.Numbered (t ++ h.postings c) := by
  cases hc : c.wantsBuffer with
  | false => exact hn.keep hk.accounted (keeps_act hk c).accounted (sameNumbers_act h hc)
  | true =>
    cases c with
    | getDefault pool => exact numbered_getBuffer hk hn pool _
    | getBuffer pool size => exact numbered_getBuffer hk hn pool size
    | replaceBuffer pool old size left => exact numbered_replaceBuffer hk hn pool old size left
    | _ => simp [HostCall.wantsBuffer] at hc

theorem numbered_actAll (hk : h.arena.Keeps t) (hn : h.arena.Numbered t) (calls : List HostCall) :
    (h.actAll calls).arena.Numbered (t ++ h.account calls) := by
  induction calls generalizing h t with
  | nil => simpa [account] using hn
  | cons c calls ih =>
    rw [account, ← List.append_assoc]
    exact ih (keeps_act hk c) (numbered_act hk hn c)

theorem numbered_ofProcess (process : Process) (calls : List HostCall) :
    ((Session.ofProcess process).host.actAll calls).arena.Numbered
      ((Session.ofProcess process).host.account calls) :=
  numbered_actAll (t := []) Arena.keeps_empty Arena.numbered_empty calls

end Host

end FragmentHost

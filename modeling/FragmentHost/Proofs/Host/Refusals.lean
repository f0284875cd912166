import FragmentHost.Proofs.Host.Forgetting
import FragmentHost.Proofs.Memory.Atomicity

/-!
# Refused buffers leave no trace

A pool that is asked for a buffer looks whether it may, draws the bytes from its allocators, takes a number,
makes the buffer, and, where the buffer is in place of another, strikes the old one off and releases it. The
answer to a refused request is no arena, so that by its form nothing is left behind. Here a request is carried
out as these steps on one arena that is written in place (`Arena.carryOut`), bytes included: what was written
stays written if a later step is refused.

The two agree (`Arena.carryOut_eq`). No step that writes comes before the last one that may be refused, and the
allocators, which write on their own account, leave nothing behind where they refuse. A refused request
therefore ends in the arena that it found, the buffer to be replaced included.

The handle of that buffer is given away with the request all the same, and a refusal drops it
(`Host.carryOut`). As long as somebody else holds the buffer, and a living pool that tracks it does, that changes
nothing either. If it was the last handle, the buffer goes with it, as it would have gone without the request
(`Host.LetGo`).
-/

namespace FragmentHost

/-- What a pool can be asked for. -/
inductive BufferRequest where
  | default (pool : Nat)
  | sized (pool size : Nat)
  /-- A handle of the old buffer is given away with the request; `left` are the others. -/
  | inPlaceOf (old pool size : Nat) (left : Holders)
  deriving DecidableEq, Repr

namespace BufferRequest

/-- The request as a call. -/
def call : BufferRequest → HostCall
  | .default pool => .getDefault pool
  | .sized pool size => .getBuffer pool size
  | .inPlaceOf old pool size left => .replaceBuffer pool old size left

/-- The pool that is asked. -/
def pool : BufferRequest → Nat
  | .default p | .sized p _ | .inPlaceOf _ p _ _ => p

/-- The buffer to be replaced. -/
def old? : BufferRequest → Option Nat
  | .default _ | .sized _ _ => none
  | .inPlaceOf old _ _ _ => some old

end BufferRequest

namespace Arena

/-- The size that is asked for. -/
def wanted (a : Arena) : BufferRequest → Nat
  | .default p => (a.pool? p).elim 0 (·.defaultSize)
  | .sized _ size | .inPlaceOf _ _ size _ => size

-- ---------------------------------------------------------------------------
-- Requests in steps
-- ---------------------------------------------------------------------------

/-- A buffer made step by step: bytes are drawn along the path of the allocator, then the pool moves on to its
next number, then the buffer is there. -/
def makeInPlace (a : Arena) (p : Nat) (pool : BufferPool) (size : Nat) : Arena × Except Failure Nat :=
  if Word.largest < size then
    (a, .error (.invalidArgument ("buffer size " ++ toString size ++ " is too large")))
  else
    match a.forest.carryOut (.bytes pool.allocator size) with
    -- whatever the allocators wrote stays written
    | (f, some refusal) => ({ a with forest := f }, .error refusal)
    | (f, none) =>
      let a := { a with forest := f }
      let a := a.modifyPool p fun x => { x with nextId := x.nextId + 1 }
      ({ a with buffers := a.buffers ++
        [{ id := pool.nextId, capacity := size, allocator := pool.allocator }] }, .ok a.buffers.length)

def getInPlace (a : Arena) (p size : Nat) : Arena × Except Failure Nat :=
  match a.pool? p with
  | none => (a, .error (.closed "buffer manager"))
  | some pool =>
    match pool.tracked with
    | none => (a, .error pool.refusal)
    | some _ =>
      match a.makeInPlace p pool size with
      | (g, .error refusal) => (g, .error refusal)
      | (g, .ok b) => (g.track p b, .ok b)

def replaceInPlace (a : Arena) (p old size : Nat) : Arena × Except Failure Nat :=
  match a.pool? p, a.buffer? old with
  | some pool, some buffer =>
    match pool.tracked with
    | none => (a, .error pool.refusal)
    | some bs =>
      if bs.contains old then
        match a.makeInPlace p pool size with
        | (g, .error refusal) => (g, .error refusal)
        | (g, .ok b) =>
          let g := g.modifyPool p fun x => { x with tracked := x.tracked.map (·.filter (· ≠ old)) }
          let g := (g.releaseBuffer old).1
          (g.track p b, .ok b)
      else (a, .error (pool.foreign buffer))
  | _, _ => (a, .error (.closed "buffer manager"))

/-- A request carried out in steps: the arena that was written in, and the new buffer or the refusal. -/
def carryOut (a : Arena) : BufferRequest → Arena × Except Failure Nat
  | .default p => a.getInPlace p ((a.pool? p).elim 0 (·.defaultSize))
  | .sized p size => a.getInPlace p size
  | .inPlaceOf old p size _ => a.replaceInPlace p old size

/-- The answer to a request: the arena with the new buffer, or the refusal. -/
def answer (a : Arena) : BufferRequest → Except Failure (Arena × Nat)
  | .default p => a.getDefault p
  | .sized p size => a.getBuffer p size
  | .inPlaceOf old p size _ => a.replaceBuffer p old size

/-- Where a request that is answered leaves arena `a`, and the new buffer or the refusal. -/
def settled (a : Arena) : Except Failure (Arena × Nat) → Arena × Except Failure Nat
  | .ok (g, b) => (g, .ok b)
  | .error refusal => (a, .error refusal)

-- ---------------------------------------------------------------------------
-- The steps and the answer agree
-- ---------------------------------------------------------------------------

variable {a : Arena}

theorem makeInPlace_eq (hl : a.forest.Linked) (p : Nat) (pool : BufferPool) (size : Nat) :
    a.makeInPlace p pool size = a.settled (a.makeBuffer p pool size) := by
  unfold makeInPlace makeBuffer
  by_cases hsize : Word.largest < size
  · rw [if_pos hsize, if_pos hsize]
    rfl
  · rw [if_neg hsize, if_neg hsize, Forest.carryOut_eq hl, Forest.answer]
    cases a.forest.consume pool.allocator size with
    | error refusal => rfl
    | ok f =>
      simp only [Forest.settled, settled, modifyPool, List.length_append, List.length_singleton,
        Nat.add_sub_cancel]

theorem getInPlace_eq (hl : a.forest.Linked) (p size : Nat) :
    a.getInPlace p size = a.settled (a.getBuffer p size) := by
  unfold getInPlace getBuffer
  cases a.pool? p with
  | none => rfl
  | some pool =>
    dsimp only
    cases pool.tracked with
    | none => rfl
    | some bs =>
      dsimp only
      rw [makeInPlace_eq hl]
      cases a.makeBuffer p pool size <;> rfl

theorem replaceInPlace_eq (hl : a.forest.Linked) (p old size : Nat) :
    a.replaceInPlace p old size = a.settled (a.replaceBuffer p old size) := by
  unfold replaceInPlace replaceBuffer
  cases a.pool? p with
  | none => rfl
  | some pool =>
    cases a.buffer? old with
    | none => rfl
    | some x =>
      dsimp only
      cases pool.tracked with
      | none => rfl
      | some bs =>
        dsimp only
        cases bs.contains old with
        | false => rfl
        | true =>
          rw [if_pos rfl, if_pos rfl, makeInPlace_eq hl]
          cases a.makeBuffer p pool size <;> rfl

/-- A request carried out in steps ends where its answer says. -/
theorem carryOut_eq (hl : a.forest.Linked) (r : BufferRequest) : a.carryOut r = a.settled (a.answer r) := by
  cases r with
  | default p => exact getInPlace_eq hl p _
  | sized p size => exact getInPlace_eq hl p size
  | inPlaceOf old p size left => exact replaceInPlace_eq hl p old size

-- ---------------------------------------------------------------------------
-- Reasons
-- ---------------------------------------------------------------------------

/-- The reasons for which a request is refused. -/
inductive Refuses (a : Arena) (r : BufferRequest) : Failure → Prop where
  /-- The pool, or the buffer to be replaced, was never made. -/
  | unknown (h : a.pool? r.pool = none ∨ ∃ old, r.old? = some old ∧ a.buffer? old = none) :
    Refuses a r (.closed "buffer manager")
  /-- The pool is closed. -/
  | closed {pool : BufferPool} (hp : a.pool? r.pool = some pool) (hclosed : pool.tracked = none) :
    Refuses a r pool.refusal
  /-- The pool does not track the buffer to be replaced: another pool made it, or it was struck off. -/
  | untracked {pool : BufferPool} {bs : List Nat} {x : Buffer} {old : Nat} (hr : r.old? = some old)
    (hp : a.pool? r.pool = some pool) (hbs : pool.tracked = some bs) (hx : a.buffer? old = some x)
    (hold : old ∉ bs) : Refuses a r (pool.foreign x)
  /-- The size is no word. -/
  | tooLarge (h : Word.largest < a.wanted r) :
    Refuses a r (.invalidArgument ("buffer size " ++ toString (a.wanted r) ++ " is too large"))
  /-- An allocator on the way to the root refused. -/
  | refused {pool : BufferPool} {refusal : Failure} (hp : a.pool? r.pool = some pool)
    (h : a.forest.consume pool.allocator (a.wanted r) = .error refusal) : Refuses a r refusal

variable {p old size : Nat} {refusal : Failure} {r : BufferRequest}

theorem refuses_of_makeBuffer {pool : BufferPool} (hp : a.pool? r.pool = some pool)
    (h : a.makeBuffer p pool (a.wanted r) = .error refusal) : a.Refuses r refusal := by
  rcases makeBuffer_error h with ⟨hlarge, rfl⟩ | hrefused
  · exact .tooLarge hlarge
  · exact .refused hp hrefused

theorem refuses_of_getBuffer (h : a.getBuffer r.pool (a.wanted r) = .error refusal) :
    a.Refuses r refusal := by
  unfold getBuffer at h
  cases hp : a.pool? r.pool with
  | none =>
    obtain rfl : _ = refusal := by simpa [hp] using h
    exact .unknown (Or.inl hp)
  | some pool =>
    cases hbs : pool.tracked with
    | none =>
      obtain rfl : pool.refusal = refusal := by simpa [hp, hbs] using h
      exact .closed hp hbs
    | some bs =>
      cases hm : a.makeBuffer r.pool pool (a.wanted r) with
      | error found =>
        obtain rfl : found = refusal := by simpa [hp, hbs, hm] using h
        exact refuses_of_makeBuffer hp hm
      | ok made => simp [hp, hbs, hm] at h

theorem refuses_of_replaceBuffer (hr : r.old? = some old)
    (h : a.replaceBuffer r.pool old (a.wanted r) = .error refusal) : a.Refuses r refusal := by
  unfold replaceBuffer at h
  cases hp : a.pool? r.pool with
  | none =>
    obtain rfl : _ = refusal := by simpa [hp] using h
    exact .unknown (Or.inl hp)
  | some pool =>
    cases hx : a.buffer? old with
    | none =>
      obtain rfl : _ = refusal := by simpa [hp, hx] using h
      exact .unknown (Or.inr ⟨old, hr, hx⟩)
    | some x =>
      cases hbs : pool.tracked with
      | none =>
        obtain rfl : pool.refusal = refusal := by simpa [hp, hx, hbs] using h
        exact .closed hp hbs
      | some bs =>
        by_cases hold : old ∈ bs
        · cases hm : a.makeBuffer r.pool pool (a.wanted r) with
          | error found =>
            obtain rfl : found = refusal := by simpa [hp, hx, hbs, hold, hm] using h
            exact refuses_of_makeBuffer hp hm
          | ok made => simp [hp, hx, hbs, hold, hm] at h
        · obtain rfl : pool.foreign x = refusal := by simpa [hp, hx, hbs, hold] using h
          exact .untracked hr hp hbs hx hold

theorem refuses_of_answer (h : a.answer r = .error refusal) : a.Refuses r refusal := by
  cases r with
  | default p => exact refuses_of_getBuffer (r := .default p) h
  | sized p size => exact refuses_of_getBuffer (r := .sized p size) h
  | inPlaceOf old p size left => exact refuses_of_replaceBuffer (r := .inPlaceOf old p size left) rfl h

end Arena

namespace Host

-- ---------------------------------------------------------------------------
-- Handles that are given away
-- ---------------------------------------------------------------------------

/-- The host after a refusal: the handle that came with the request is dropped. -/
def afterRefusal (h : Host) : BufferRequest → Host
  | .default _ | .sized _ _ => h
  | .inPlaceOf old _ _ left => h.dropBuffer left old

/-- A request carried out in steps: the host that was written in, and the new buffer or the refusal. -/
def carryOut (h : Host) (r : BufferRequest) : Host × Except Failure Nat :=
  match h.arena.carryOut r with
  | (a, .ok b) => ({ h with arena := a }, .ok b)
  | (a, .error refusal) => (afterRefusal { h with arena := a } r, .error refusal)

/-- The buffer of which the last handle is given away with the request, if there is one. -/
def orphan? (h : Host) : BufferRequest → Option (Nat × Holders)
  | .default _ | .sized _ _ => none
  | .inPlaceOf old _ _ left => if old ∈ h.heldBuffers left then none else some (old, left)

/-- From `h` to `g`, the last handle of buffer `b` was dropped, where `left` are the handles that are left. -/
structure LetGo (h g : Host) (b : Nat) (left : Holders) : Prop where
  released : g.arena.isReleased b = true
  others : ∀ c, c ≠ b → g.arena.buffer? c = h.arena.buffer? c
  /-- Pools track what they tracked, and their next buffers have the same numbers. -/
  pools_eq : g.arena.pools = h.arena.pools
  counts : ∀ p ∈ h.heldPools left, g.arena.poolSize p = h.arena.poolSize p
  /-- The bytes are returned, unless they were before. Then the allocators are dropped that the buffer drew
  from and that nobody else holds. -/
  forest_eq : g.forest = h.forest.performAll ((h.arena.repayment b).calls ++
    (h.unheldAllocators left (h.drawnFrom b)).map .drop)
  rest_eq : g = { h with arena := g.arena, journal := g.journal }

variable {h g : Host} {b : Nat} {left : Holders} {r : BufferRequest} {refusal : Failure}

theorem giveUpAllocators_of_held {allocators : List Nat}
    (hheld : ∀ i ∈ allocators, i ∈ h.heldAllocators left) : h.giveUpAllocators left allocators = h := by
  unfold giveUpAllocators
  generalize h.heldAllocators left = held at hheld
  induction allocators with
  | nil => rfl
  | cons i rest ih =>
    have hi := List.contains_iff_mem.mpr (hheld i (List.mem_cons_self ..))
    rw [List.foldl_cons, hi, Bool.true_or, if_pos rfl]
    exact ih fun j hj => hheld j (List.mem_cons_of_mem i hj)

/-- A handle that is not the last one may go. -/
theorem dropBuffer_of_held (hb : b ∈ h.heldBuffers left) : h.dropBuffer left b = h := by
  have hbuffers : h.giveUpBuffers left [b] = h := by
    have hnone : h.unheldBuffers left [b] = [] := by simp [unheldBuffers, hb]
    show { h with arena := (h.arena.releaseAll (h.unheldBuffers left [b])).1 } = h
    rw [hnone]
    rfl
  rw [dropBuffer, hbuffers]
  refine giveUpAllocators_of_held fun i hi => ?_
  cases hx : h.arena.buffer? b with
  | none => simp [hx] at hi
  | some x =>
    rw [hx] at hi
    refine held_of_mem_path_allocatorOf (Arena.lt_length_of_buffer? hx) hb ?_
    rwa [Arena.allocatorOf, hx]

/-- What is written of memory and the log alone is nothing else. -/
theorem Writes.rest_eq (hw : Writes [.memory, .journal] h g) :
    g = { h with arena := g.arena, journal := g.journal } := by
  induction hw with
  | refl => rfl
  | @tail k g _ hlast ih =>
    obtain ⟨p, hp, hs⟩ := hlast
    rcases List.mem_pair.mp hp with rfl | rfl
    · cases hs with
      | memory a => exact congrArg (fun k : Host => { k with arena := a }) ih
      | adjust hc => nomatch hc
    · cases hs with
      | journal j => exact congrArg (fun k : Host => { k with journal := j }) ih
      | adjust hc => nomatch hc

/-- The last handle takes the buffer with it. -/
theorem letGo_dropBuffer (hl : h.forest.Linked) (hb : b ∉ h.heldBuffers left) :
    h.LetGo (h.dropBuffer left b) b left := by
  have hlost : h.unheldBuffers left [b] = [b] := by simp [unheldBuffers, hb]
  have harena : (h.dropBuffer left b).arena =
      (h.arena.releaseBuffer b).1.dropAll (h.unheldAllocators left (h.drawnFrom b)) := by
    rw [arena_dropBuffer hl, hlost]
    rfl
  have hbuffer : ∀ c, (h.dropBuffer left b).arena.buffer? c = (h.arena.releaseBuffer b).1.buffer? c := by
    rw [harena]
    exact fun _ => rfl
  have hothers : ∀ c, c ≠ b → (h.dropBuffer left b).arena.buffer? c = h.arena.buffer? c := by
    intro c hc
    rw [hbuffer, Arena.buffer?_releaseBuffer, if_neg (Ne.symm hc)]
  have hpools : (h.dropBuffer left b).arena.pools = h.arena.pools := by
    rw [harena]
    exact Arena.pools_releaseBuffer h.arena b
  constructor
  case released =>
    rw [Arena.isReleased_congr (hbuffer b), Arena.isReleased_releaseBuffer, beq_self_eq_true, Bool.or_true]
  case others => exact hothers
  case pools_eq => exact hpools
  case counts =>
    intro p hp
    unfold Arena.poolSize Arena.pool?
    rw [hpools, ← Arena.pool?]
    cases htracked : (h.arena.pool? p).bind (·.tracked) with
    | none => rfl
    | some bs =>
      dsimp only
      congr 1
      refine List.filter_congr fun c hc => ?_
      -- the pool is held, and so is what it tracks
      have hne : c ≠ b := by
        rintro rfl
        refine hb (List.mem_append_right _ (List.mem_flatMap.mpr ⟨p, hp, ?_⟩))
        rwa [htracked]
      rw [Arena.isReleased_congr (hothers c hne)]
  case forest_eq =>
    rw [forest, harena, Forest.performAll_append, forest, ← Arena.forest_releaseBuffer]
    rfl
  case rest_eq => exact (writes_dropBuffer h left b).rest_eq

-- ---------------------------------------------------------------------------
-- Refused requests
-- ---------------------------------------------------------------------------

/-- A call ends where its steps end. -/
theorem act_eq_carryOut (hl : h.forest.Linked) (r : BufferRequest) : h.act r.call = (h.carryOut r).1 := by
  rw [carryOut, Arena.carryOut_eq hl]
  cases r with
  | default p =>
    rw [BufferRequest.call, act, getDefault, Arena.answer]
    cases h.arena.getDefault p <;> rfl
  | sized p size =>
    rw [BufferRequest.call, act, getBuffer, Arena.answer]
    cases h.arena.getBuffer p size <;> rfl
  | inPlaceOf old p size left =>
    rw [BufferRequest.call, act, replaceBuffer, Arena.answer]
    cases h.arena.replaceBuffer p old size <;> rfl

/-- In every state that a new process comes to, a request for a buffer that is refused for any reason ends, step
by step, in the very host that it found: pools track and count what they did, buffers are released or not and
hold the bytes that they held, every figure of every allocator is the one it was. Only where the last handle of a
buffer was given away with the request, that buffer is let go. Whatever comes later goes on from there. -/
theorem refused_buffer_leaves_no_trace (process : Process) (calls : List HostCall) {h : Host}
    (hh : h = (Session.ofProcess process).host.actAll calls) (r : BufferRequest) {g : Host}
    {refusal : Failure} (hr : h.carryOut r = (g, .error refusal)) :
    h.arena.Refuses r refusal ∧ (h.orphan? r = none → g = h) ∧
      (∀ b left, h.orphan? r = some (b, left) → h.LetGo g b left) ∧
      ∀ later, (Session.ofProcess process).host.actAll (calls ++ r.call :: later) = g.actAll later := by
  have hl : h.forest.Linked := hh ▸ (keeps_ofProcess process calls).accounted.linked
  have hact := act_eq_carryOut hl r
  rw [hr] at hact
  rw [carryOut, Arena.carryOut_eq hl] at hr
  cases ha : h.arena.answer r with
  | ok made =>
    rw [ha] at hr
    simp [Arena.settled] at hr
  | error found =>
    rw [ha] at hr
    obtain ⟨rfl, hfound⟩ := Prod.mk.inj hr
    obtain rfl := Except.error.inj hfound
    refine ⟨Arena.refuses_of_answer ha, fun hnone => ?_, fun b left hlast => ?_, fun later => ?_⟩
    · cases r with
      | default | sized => rfl
      | inPlaceOf old p size left =>
        refine dropBuffer_of_held ?_
        by_contra hheld
        simp [orphan?, hheld] at hnone
    · cases r with
      | default | sized => simp [orphan?] at hlast
      | inPlaceOf old p size left =>
        rw [orphan?] at hlast
        split at hlast
        · simp at hlast
        · next hheld =>
          obtain ⟨rfl, rfl⟩ := Prod.mk.inj (Option.some.inj hlast)
          exact letGo_dropBuffer hl hheld
    · rw [actAll_append, actAll_cons, ← hh, hact]

/-- Two pools of one query whose root has a ceiling. A buffer of the first one was written, and others were
released. -/
def crowdedPools : List HostCall :=
  [.root "query" 100, .child 0 "fragment" 0 (-1) true, .child 1 "scan" 0 (-1) true,
    .openPool "0:0" 2 256, .openPool "1:1" 1 8, .getBuffer 0 16, .getBuffer 0 32, .getDefault 1,
    .write 1 4 [7, 255], .releaseBuffer 0]

/-- The host after that run. -/
def crowdedHost : Host := (Session.ofProcess {}).host.actAll crowdedPools

/-- The root refuses a buffer in place of the written one after two allocators below it had let the request
pass. The only handle of the written one was given away, and its pool holds it. -/
theorem refused_buffer_leaves_no_trace_crowdedPools :
    let r : BufferRequest := .inPlaceOf 1 0 61 { pools := [0, 1] }
    let refusal : Failure :=
      .outOfMemory "allocator query cannot grant 61 bytes: 40 in use, max reservation 100"
    ∃ g, crowdedHost.carryOut r = (g, .error refusal) ∧ crowdedHost.arena.Refuses r refusal ∧
      g = crowdedHost ∧
      ∀ later, (Session.ofProcess {}).host.actAll (crowdedPools ++ r.call :: later) = g.actAll later := by
  intro r refusal
  have hrefused : (crowdedHost.carryOut r).2 = .error refusal := by decide +kernel
  have hcarried : crowdedHost.carryOut r = ((crowdedHost.carryOut r).1, .error refusal) :=
    Prod.ext rfl hrefused
  obtain ⟨hreason, hsame, -, hlater⟩ :=
    refused_buffer_leaves_no_trace {} crowdedPools (h := crowdedHost) rfl r hcarried
  exact ⟨_, hcarried, hreason, hsame (by decide +kernel), hlater⟩

/-- A pool is dropped while one of its buffers is held by name, next to a pool that stays. -/
def foreignHandle : List HostCall :=
  [.root "query" 100, .child 0 "scan" 0 (-1) true, .openPool "0:0" 1 256, .openPool "1:1" 1 256,
    .getBuffer 0 8, .keep { allocators := [0, 1], pools := [1], buffers := [0] }]

/-- Not every refused request leaves all as it was. The pool that stays does not know the buffer and refuses to
replace it, and with the last handle the buffer is released and its bytes are returned. -/
theorem last_handle_goes_with_refusal :
    let h := (Session.ofProcess {}).host.actAll foreignHandle
    let after := h.carryOut (.inPlaceOf 0 1 16 { allocators := [0, 1], pools := [1] })
    after.2 = .error (.invalidArgument "buffer 0 is not managed by 1:1") ∧
      h.arena.isReleased 0 = false ∧ h.forest.current 1 = 8 ∧ h.forest.current 0 = 8 ∧
      after.1.arena.isReleased 0 = true ∧ after.1.forest.current 1 = 0 ∧ after.1.forest.current 0 = 0 := by
  decide +kernel

end Host

end FragmentHost

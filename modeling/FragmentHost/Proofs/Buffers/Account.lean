import FragmentHost.Buffers.Arena
import FragmentHost.Proofs.Memory.Ledger

/-!
# The account of an arena

An account lists what was asked of the allocators of an arena, in order, and for which buffer. It is not
part of the arena; it is written along with a run in order to say what the run did. `Arena.Accounted`
says that an account is right:

* replaying it on the empty forest gives the forest of the arena, so that nothing was asked of an
  allocator that the account does not list;
* the bytes of every buffer were drawn exactly once, from the allocator of the pool that made it;
* they were returned exactly once if the buffer was released and never if it was not.

`Arena.Tracks` says that pools keep track of their buffers. In the middle of an operation some buffers
are exempt: one that was just made and one that is about to be released are not tracked.
-/

namespace FragmentHost

/-- One entry of an account. -/
inductive Posting where
  /-- Asked by a holder of the allocator. -/
  | asked (call : AllocatorCall)
  /-- Drawn by a pool for a new buffer. -/
  | draw (buffer pool allocator capacity : Nat)
  /-- Returned for a buffer that was released. -/
  | repay (buffer allocator capacity : Nat)
  deriving DecidableEq, Repr

namespace Posting

/-- What was asked of the allocator. -/
def call : Posting → AllocatorCall
  | .asked c => c
  | .draw _ _ allocator capacity => .consume allocator capacity
  | .repay _ allocator capacity => .release allocator capacity

/-- The bytes of buffer `b` were drawn. -/
def draws (b : Nat) : Posting → Bool
  | .draw buffer _ _ _ => buffer == b
  | .asked _ | .repay _ _ _ => false

/-- The bytes of buffer `b` were returned. -/
def repays (b : Nat) : Posting → Bool
  | .repay buffer _ _ => buffer == b
  | .asked _ | .draw _ _ _ _ => false

/-- The pool that drew. -/
def pool? : Posting → Option Nat
  | .draw _ pool _ _ => some pool
  | .asked _ | .repay _ _ _ => none

/-- The bytes drawn or returned for a buffer. -/
def bytes : Posting → Nat
  | .draw _ _ _ capacity | .repay _ _ capacity => capacity
  | .asked _ => 0

end Posting

/-- What was asked of the allocators, the earliest first. -/
abbrev Account := List Posting

namespace Account

/-- The account as a run of calls. -/
def calls (t : Account) : List AllocatorCall := t.map Posting.call

/-- The postings that drew bytes for buffer `b`. -/
def drawn (t : Account) (b : Nat) : Account := t.filter (Posting.draws b)

/-- The postings that returned bytes of buffer `b`. -/
def repaid (t : Account) (b : Nat) : Account := t.filter (Posting.repays b)

/-- The pool that drew the bytes of buffer `b`. -/
def maker? (t : Account) (b : Nat) : Option Nat := (t.drawn b).head?.bind Posting.pool?

@[simp] theorem calls_append (t u : Account) : calls (t ++ u) = calls t ++ calls u := by
  simp [calls]

@[simp] theorem calls_nil : calls [] = [] := rfl

@[simp] theorem calls_asked (c : AllocatorCall) : calls [.asked c] = [c] := rfl

@[simp] theorem drawn_append (t u : Account) (b : Nat) :
    drawn (t ++ u) b = drawn t b ++ drawn u b := by
  simp [drawn]

@[simp] theorem repaid_append (t u : Account) (b : Nat) :
    repaid (t ++ u) b = repaid t b ++ repaid u b := by
  simp [repaid]

@[simp] theorem drawn_asked (c : AllocatorCall) (b : Nat) : drawn [.asked c] b = [] := rfl

@[simp] theorem repaid_asked (c : AllocatorCall) (b : Nat) : repaid [.asked c] b = [] := rfl

/-- What draws nothing more for a buffer leaves its maker. -/
theorem maker?_append {t u : Account} {b : Nat} (h : u.drawn b = []) :
    maker? (t ++ u) b = t.maker? b := by
  rw [maker?, drawn_append, h, List.append_nil, maker?]

/-- A drawing for one buffer leaves the makers of the others. -/
theorem maker?_append_draw_of_ne (t : Account) {b c : Nat} (hc : c ≠ b) (p allocator capacity : Nat) :
    maker? (t ++ [.draw b p allocator capacity]) c = t.maker? c :=
  maker?_append (by simp [drawn, Posting.draws, Ne.symm hc])

end Account

namespace Arena

-- ---------------------------------------------------------------------------
-- Places
-- ---------------------------------------------------------------------------

theorem buffer?_modifyBuffer (a : Arena) (b c : Nat) (change : Buffer → Buffer) :
    (a.modifyBuffer b change).buffer? c =
      if b = c then (a.buffer? c).map change else a.buffer? c := by
  unfold modifyBuffer buffer?
  rw [List.getElem?_modify]
  split <;> simp_all

theorem pool?_modifyPool (a : Arena) (p q : Nat) (change : BufferPool → BufferPool) :
    (a.modifyPool p change).pool? q = if p = q then (a.pool? q).map change else a.pool? q := by
  unfold modifyPool pool?
  rw [List.getElem?_modify]
  split <;> simp_all

theorem buffer?_eq_none_iff {a : Arena} {b : Nat} : a.buffer? b = none ↔ a.buffers.length ≤ b :=
  List.getElem?_eq_none_iff

theorem lt_length_of_buffer? {a : Arena} {b : Nat} {x : Buffer} (h : a.buffer? b = some x) :
    b < a.buffers.length :=
  (List.getElem?_eq_some_iff.mp h).1

theorem isReleased_of_buffer? {a : Arena} {b : Nat} {x : Buffer} (h : a.buffer? b = some x) :
    a.isReleased b = x.isReleased := by
  rw [isReleased, h]

/-- What is not released is there. -/
theorem exists_buffer?_of_not_released {a : Arena} {b : Nat} (h : a.isReleased b = false) :
    ∃ x, a.buffer? b = some x ∧ x.isReleased = false := by
  cases hb : a.buffer? b with
  | none => simp [isReleased, hb] at h
  | some x => exact ⟨x, rfl, by rw [← isReleased_of_buffer? hb, h]⟩

/-- Only the buffers decide what is released. -/
theorem isReleased_congr {a g : Arena} {b : Nat} (h : g.buffer? b = a.buffer? b) :
    g.isReleased b = a.isReleased b := by
  rw [isReleased, h, isReleased]

-- ---------------------------------------------------------------------------
-- Releases
-- ---------------------------------------------------------------------------

/-- What is returned when buffer `b` is released now. -/
def repayment (a : Arena) (b : Nat) : Account :=
  match a.buffer? b with
  | some x => if x.isReleased then [] else [.repay b x.allocator x.capacity]
  | none => []

/-- What is returned when several buffers are released now, one after the other. -/
def repayments (a : Arena) : List Nat → Account
  | [] => []
  | b :: rest => a.repayment b ++ repayments (a.releaseBuffer b).1 rest

theorem pools_releaseBuffer (a : Arena) (b : Nat) : (a.releaseBuffer b).1.pools = a.pools := by
  unfold releaseBuffer
  split
  · rfl
  · split <;> rfl

theorem releaseBuffer_of_none {a : Arena} {b : Nat} (hb : a.buffer? b = none) :
    a.releaseBuffer b = (a, false) := by
  rw [releaseBuffer, hb]

/-- A released buffer is not released again. -/
theorem releaseBuffer_of_released {a : Arena} {b : Nat} {x : Buffer} (hb : a.buffer? b = some x)
    (hx : x.isReleased = true) : a.releaseBuffer b = (a, false) := by
  rw [releaseBuffer, hb]
  simp [hx]

theorem releaseBuffer_of_unreleased {a : Arena} {b : Nat} {x : Buffer} (hb : a.buffer? b = some x)
    (hx : x.isReleased = false) :
    a.releaseBuffer b = ({ a.modifyBuffer b (fun x => { x with contents := none }) with
      forest := a.forest.release x.allocator x.capacity }, true) := by
  rw [releaseBuffer, hb]
  simp [hx]

theorem buffer?_releaseBuffer (a : Arena) (b c : Nat) :
    (a.releaseBuffer b).1.buffer? c =
      if b = c then (a.buffer? c).map fun x => { x with contents := none } else a.buffer? c := by
  cases hb : a.buffer? b with
  | none =>
    rw [releaseBuffer_of_none hb]
    split
    · next hbc => simp [← hbc, hb]
    · rfl
  | some x =>
    cases hx : x.isReleased with
    | false =>
      rw [releaseBuffer_of_unreleased hb hx]
      exact buffer?_modifyBuffer a b c _
    | true =>
      -- a released buffer has no contents already
      have hnone : x.contents = none := by simpa [Buffer.isReleased] using hx
      rw [releaseBuffer_of_released hb hx]
      split
      · next hbc =>
        rw [← hbc, hb, Option.map_some, ← hnone]
      · rfl

theorem isReleased_releaseBuffer (a : Arena) (b c : Nat) :
    (a.releaseBuffer b).1.isReleased c = (a.isReleased c || b == c) := by
  by_cases hbc : b = c
  · subst hbc
    rw [isReleased, buffer?_releaseBuffer, if_pos rfl]
    cases a.buffer? b <;> simp [Buffer.isReleased]
  · have hsame : (a.releaseBuffer b).1.buffer? c = a.buffer? c := by
      rw [buffer?_releaseBuffer, if_neg hbc]
    rw [isReleased_congr hsame]
    simp [hbc]

theorem forest_releaseBuffer (a : Arena) (b : Nat) :
    (a.releaseBuffer b).1.forest = a.forest.performAll (a.repayment b).calls := by
  unfold releaseBuffer repayment
  cases a.buffer? b with
  | none => rfl
  | some x =>
    dsimp only
    split <;> rfl

theorem drawn_repayment (a : Arena) (b c : Nat) : (a.repayment b).drawn c = [] := by
  unfold repayment
  split
  · split <;> rfl
  · rfl

theorem repaid_repayment_of_ne (a : Arena) {b c : Nat} (h : b ≠ c) :
    (a.repayment b).repaid c = [] := by
  unfold repayment
  split
  · split
    · rfl
    · simp [Account.repaid, Posting.repays, h]
  · rfl

theorem fst_releaseAll_cons (a : Arena) (b : Nat) (rest : List Nat) :
    (a.releaseAll (b :: rest)).1 = ((a.releaseBuffer b).1.releaseAll rest).1 := rfl

theorem pools_releaseAll (a : Arena) (bs : List Nat) : (a.releaseAll bs).1.pools = a.pools := by
  induction bs generalizing a with
  | nil => rfl
  | cons b rest ih => rw [fst_releaseAll_cons, ih, pools_releaseBuffer]

theorem isReleased_releaseAll (a : Arena) (bs : List Nat) (c : Nat) :
    (a.releaseAll bs).1.isReleased c = (a.isReleased c || bs.contains c) := by
  induction bs generalizing a with
  | nil => simp [releaseAll]
  | cons b rest ih =>
    rw [fst_releaseAll_cons, ih, isReleased_releaseBuffer, List.contains_cons, Bool.or_assoc,
      BEq.comm]

theorem drawn_repayments (a : Arena) (bs : List Nat) (c : Nat) : (a.repayments bs).drawn c = [] := by
  induction bs generalizing a with
  | nil => rfl
  | cons b rest ih => rw [repayments, Account.drawn_append, drawn_repayment, ih, List.append_nil]

-- ---------------------------------------------------------------------------
-- Pools stay on their allocators
-- ---------------------------------------------------------------------------

/-- Every pool of `a` is in `g`, on the same allocator. The pools that are closed in `g` are those that
were closed in `a` and the given ones. -/
def PoolsStay (a g : Arena) (closing : List Nat) : Prop :=
  ∀ p x, a.pool? p = some x → ∃ y, g.pool? p = some y ∧ y.allocator = x.allocator ∧
    (y.tracked = none ↔ x.tracked = none ∨ p ∈ closing)

theorem poolsStay_of_eq {a g : Arena} (h : g.pools = a.pools) : a.PoolsStay g [] :=
  fun p x hp => ⟨x, by rw [pool?, h, ← pool?, hp], rfl, by simp⟩

theorem PoolsStay.trans {a g k : Arena} {closing later : List Nat} (hag : a.PoolsStay g closing)
    (hgk : g.PoolsStay k later) : a.PoolsStay k (closing ++ later) := by
  intro p x hp
  obtain ⟨y, hy, hyx, hclosed⟩ := hag p x hp
  obtain ⟨z, hz, hzy, hclosed'⟩ := hgk p y hy
  exact ⟨z, hz, hzy.trans hyx, by rw [hclosed', hclosed, List.mem_append, or_assoc]⟩

/-- A change of one pool that neither closes it nor opens it again. -/
theorem poolsStay_modifyPool (a : Arena) (p : Nat) {change : BufferPool → BufferPool}
    (h : ∀ x, (change x).allocator = x.allocator ∧ ((change x).tracked = none ↔ x.tracked = none)) :
    a.PoolsStay (a.modifyPool p change) [] := by
  intro q x hq
  rw [pool?_modifyPool, hq]
  split
  · exact ⟨change x, rfl, (h x).1, by simpa using (h x).2⟩
  · exact ⟨x, rfl, rfl, by simp⟩

theorem poolsStay_closing (a : Arena) (p : Nat) :
    a.PoolsStay (a.modifyPool p fun x => { x with tracked := none }) [p] := by
  intro q x hq
  rw [pool?_modifyPool, hq]
  split
  · next hpq => exact ⟨_, rfl, rfl, by simp [hpq]⟩
  · next hpq => exact ⟨x, rfl, rfl, by simp [Ne.symm hpq]⟩

-- ---------------------------------------------------------------------------
-- Right accounts
-- ---------------------------------------------------------------------------

/-- The account tells what was asked of the allocators, and that the bytes of each buffer were drawn
once and returned once if it was released. -/
structure Accounted (a : Arena) (t : Account) : Prop where
  forest_eq : a.forest = Forest.performAll {} t.calls
  drawn_eq : ∀ b x, a.buffer? b = some x → ∃ p pool, a.pool? p = some pool ∧
    pool.allocator = x.allocator ∧ t.drawn b = [.draw b p x.allocator x.capacity]
  repaid_eq : ∀ b x, a.buffer? b = some x →
    t.repaid b = if x.isReleased then [.repay b x.allocator x.capacity] else []
  absent : ∀ b, a.buffer? b = none → t.drawn b = [] ∧ t.repaid b = []

theorem Accounted.linked {a : Arena} {t : Account} (h : a.Accounted t) : a.forest.Linked := by
  rw [h.forest_eq]
  exact Forest.linked_performAll t.calls

theorem Accounted.sound {a : Arena} {t : Account} (h : a.Accounted t) : a.forest.Sound := by
  rw [h.forest_eq]
  exact Forest.sound_performAll t.calls

/-- The maker of a buffer is a pool on the allocator of the buffer. -/
theorem Accounted.maker?_eq {a : Arena} {t : Account} (h : a.Accounted t) {b : Nat} {x : Buffer}
    (hb : a.buffer? b = some x) :
    ∃ p pool, a.pool? p = some pool ∧ pool.allocator = x.allocator ∧ t.maker? b = some p := by
  obtain ⟨p, pool, hp, hallocator, hdrawn⟩ := h.drawn_eq b x hb
  refine ⟨p, pool, hp, hallocator, ?_⟩
  rw [Account.maker?, hdrawn]
  rfl

/-- What has a maker is there, and so is the maker. -/
theorem Accounted.of_maker? {a : Arena} {t : Account} (h : a.Accounted t) {b p : Nat}
    (hmaker : t.maker? b = some p) :
    ∃ x pool, a.buffer? b = some x ∧ a.pool? p = some pool ∧ pool.allocator = x.allocator := by
  cases hb : a.buffer? b with
  | none =>
    rw [Account.maker?, (h.absent b hb).1] at hmaker
    simp at hmaker
  | some x =>
    obtain ⟨q, pool, hq, hallocator, hmaker'⟩ := h.maker?_eq hb
    rw [hmaker, Option.some.injEq] at hmaker'
    subst hmaker'
    exact ⟨x, pool, rfl, hq, hallocator⟩

theorem accounted_empty : Accounted {} [] :=
  ⟨rfl, by simp [buffer?], by simp [buffer?], fun _ _ => ⟨rfl, rfl⟩⟩

/-- A change of the pools that leaves them on their allocators. -/
theorem Accounted.repool {a g : Arena} {t : Account} {closing : List Nat} (h : a.Accounted t)
    (hforest : g.forest = a.forest) (hbuffers : g.buffers = a.buffers)
    (hpools : a.PoolsStay g closing) : g.Accounted t := by
  have hsame : ∀ b, g.buffer? b = a.buffer? b := fun b => by rw [buffer?, hbuffers, buffer?]
  refine ⟨hforest ▸ h.forest_eq, ?_, ?_, ?_⟩
  · intro b x hb
    rw [hsame] at hb
    obtain ⟨p, pool, hp, hallocator, hdrawn⟩ := h.drawn_eq b x hb
    obtain ⟨pool', hp', hallocator', -⟩ := hpools p pool hp
    exact ⟨p, pool', hp', hallocator'.trans hallocator, hdrawn⟩
  · intro b x hb
    exact h.repaid_eq b x (hsame b ▸ hb)
  · intro b hb
    exact h.absent b (hsame b ▸ hb)

/-- What a holder asks of an allocator. -/
theorem Accounted.ask {a : Arena} {t : Account} (h : a.Accounted t) (c : AllocatorCall) :
    ({ a with forest := a.forest.perform c } : Arena).Accounted (t ++ [.asked c]) := by
  refine ⟨?_, ?_, ?_, ?_⟩
  · rw [Account.calls_append, Forest.performAll_append, ← h.forest_eq]
    rfl
  · intro b x hb
    obtain ⟨p, pool, hp, hallocator, hdrawn⟩ := h.drawn_eq b x hb
    exact ⟨p, pool, hp, hallocator, by simp [hdrawn]⟩
  · intro b x hb
    simp [h.repaid_eq b x hb]
  · intro b hb
    simp [h.absent b hb]

/-- A release, also one that is not the first. -/
theorem Accounted.release {a : Arena} {t : Account} (h : a.Accounted t) (b : Nat) :
    (a.releaseBuffer b).1.Accounted (t ++ a.repayment b) := by
  refine ⟨?_, ?_, ?_, ?_⟩
  · rw [Account.calls_append, Forest.performAll_append, ← h.forest_eq, forest_releaseBuffer]
  · intro c y hc
    -- a release takes the contents only
    have hold : ∃ x, a.buffer? c = some x ∧ y.allocator = x.allocator ∧ y.capacity = x.capacity := by
      rw [buffer?_releaseBuffer] at hc
      split at hc
      · obtain ⟨x, hx, rfl⟩ := Option.map_eq_some_iff.mp hc
        exact ⟨x, hx, rfl, rfl⟩
      · exact ⟨y, hc, rfl, rfl⟩
    obtain ⟨x, hx, hallocator, hcapacity⟩ := hold
    obtain ⟨p, pool, hp, hpool, hdrawn⟩ := h.drawn_eq c x hx
    refine ⟨p, pool, ?_, hpool.trans hallocator.symm, ?_⟩
    · rw [pool?, pools_releaseBuffer, ← pool?, hp]
    · rw [Account.drawn_append, drawn_repayment, hdrawn, hallocator, hcapacity, List.append_nil]
  · intro c y hc
    rw [Account.repaid_append]
    by_cases hbc : b = c
    · subst hbc
      rw [buffer?_releaseBuffer, if_pos rfl] at hc
      obtain ⟨x, hx, rfl⟩ := Option.map_eq_some_iff.mp hc
      have hrepaid := h.repaid_eq b x hx
      have hgone : ({ x with contents := none } : Buffer).isReleased = true := rfl
      rw [hrepaid, repayment, hx, if_pos hgone]
      -- the first release is the one that returns the bytes
      cases hreleased : x.isReleased <;> simp [Account.repaid, Posting.repays, hreleased]
    · rw [buffer?_releaseBuffer, if_neg hbc] at hc
      rw [repaid_repayment_of_ne a hbc, List.append_nil, h.repaid_eq c y hc]
  · intro c hc
    rw [buffer?_releaseBuffer] at hc
    have hnone : a.buffer? c = none := by
      split at hc
      · simpa using hc
      · exact hc
    obtain ⟨hdrawn, hrepaid⟩ := h.absent c hnone
    rw [Account.drawn_append, Account.repaid_append, hdrawn, hrepaid, drawn_repayment]
    refine ⟨rfl, ?_⟩
    by_cases hbc : b = c
    · subst hbc
      rw [repayment, hnone]
      rfl
    · rw [repaid_repayment_of_ne a hbc, List.append_nil]

theorem Accounted.releaseAll {a : Arena} {t : Account} (h : a.Accounted t) (bs : List Nat) :
    (a.releaseAll bs).1.Accounted (t ++ a.repayments bs) := by
  induction bs generalizing a t with
  | nil => simpa [repayments, Arena.releaseAll] using h
  | cons b rest ih =>
    rw [fst_releaseAll_cons, repayments, ← List.append_assoc]
    exact ih (h.release b)

end Arena

end FragmentHost

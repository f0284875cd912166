import FragmentHost.Proofs.Host.Refusals
import FragmentHost.Proofs.Memory.Words

/-!
# The accounting of a host in words

Whoever asks an allocator of a host, be it a holder, a pool, a context or the loss of a handle, the sums that
are worked out on the way are in range as long as the amounts named by callers are words
(`accounting_stays_in_words`). A request that is refused in the end is part of it: sums were worked out for it
as well. Sizes of buffers need no bound. A size that is no word is refused before an allocator is asked, so
that the capacity of every buffer is a word when it comes back.
-/

namespace FragmentHost

/-- The amounts of a call are words. Sizes of buffers, ceilings and limits may be any number. -/
def HostCall.InWords : HostCall → Prop
  | .child _ _ initial _ _ => Word.Fits initial
  | .consume _ bytes | .release _ bytes => Word.Fits bytes
  | .openContext _ plan _ _ => Word.Fits plan.initial
  | _ => True

namespace Arena

/-- What pool `p` asks of its allocator when a buffer of `size` bytes is wanted, whatever the answer. -/
def request (a : Arena) (p size : Nat) : List AllocatorCall :=
  match a.pool? p with
  | some pool =>
    if pool.tracked.isSome ∧ (size : Int) ≤ Word.largest then [.consume pool.allocator size] else []
  | none => []

end Arena

namespace Host

/-- What a call asks of an allocator in vain for a buffer. -/
def refused (h : Host) : HostCall → List AllocatorCall
  | .getDefault pool =>
    match h.arena.getDefault pool with
    | .ok _ => []
    | .error _ => h.arena.request pool ((h.arena.pool? pool).elim 0 (·.defaultSize))
  | .getBuffer pool size =>
    match h.arena.getBuffer pool size with
    | .ok _ => []
    | .error _ => h.arena.request pool size
  | .replaceBuffer pool old size _ =>
    match h.arena.replaceBuffer pool old size with
    | .ok _ => []
    | .error _ =>
      if old ∈ (h.arena.tracked pool).getD [] then h.arena.request pool size else []
  | _ => []

/-- All that a call asks of the allocators, in vain or not. -/
def asks (h : Host) (c : HostCall) : List AllocatorCall := h.refused c ++ (h.postings c).calls

/-- All that calls ask of the allocators, one after the other. -/
def asked (h : Host) : List HostCall → List AllocatorCall
  | [] => []
  | c :: calls => h.asks c ++ (h.act c).asked calls

end Host

namespace Arena

-- ---------------------------------------------------------------------------
-- Requests in vain
-- ---------------------------------------------------------------------------

variable {a g : Arena} {t : Account} {p b old size : Nat} {pool : BufferPool}

theorem inWords_request (a : Arena) (p size : Nat) : ∀ c ∈ a.request p size, c.InWords := by
  unfold request
  split
  · split
    · next hsize => simpa [AllocatorCall.InWords] using Word.fits_of_nonneg (Int.natCast_nonneg size) hsize.2
    · simp
  · simp

/-- Where a pool refuses, its allocators refused or were not asked. -/
theorem performAll_request {r : BufferRequest} {refusal : Failure} (h : a.Refuses r refusal)
    (hold : ∀ old, r.old? = some old → a.buffer? old ≠ none ∧ old ∈ (a.tracked r.pool).getD []) :
    a.forest.performAll (a.request r.pool (a.wanted r)) = a.forest := by
  cases h with
  | unknown h =>
    rcases h with hp | ⟨old, hr, hx⟩
    · simp [request, hp]
    · exact absurd hx (hold old hr).1
  | closed hp hclosed => simp [request, hp, hclosed]
  | untracked hr hp hbs _ hnot =>
    have hmem := (hold _ hr).2
    rw [tracked_of_pool? hp, hbs] at hmem
    exact absurd hmem hnot
  | tooLarge hlarge =>
    unfold request
    split
    · rw [if_neg (by omega), Forest.performAll_nil]
    · rfl
  | refused hp hrefused =>
    unfold request
    rw [hp]
    dsimp only
    split
    · rw [Forest.performAll_cons, Forest.performAll_nil, Forest.perform, hrefused]
    · rfl

-- ---------------------------------------------------------------------------
-- Requests that are granted, and returns
-- ---------------------------------------------------------------------------

/-- The sizes of the buffers are words. -/
def SizesFit (a : Arena) : Prop := ∀ b x, a.buffer? b = some x → Word.Fits x.capacity

/-- Buffers were paid for with words. -/
theorem Accounted.sizesFit (h : a.Accounted t) (ht : ∀ c ∈ t.calls, c.InWords) : a.SizesFit := by
  intro b x hb
  obtain ⟨p, -, -, -, hdrawn⟩ := h.drawn_eq b x hb
  have hmem : Posting.draw b p x.allocator x.capacity ∈ t := by
    have hone : Posting.draw b p x.allocator x.capacity ∈ t.drawn b := by simp [hdrawn]
    exact List.mem_of_mem_filter hone
  exact ht _ (List.mem_map_of_mem hmem)

theorem inWords_repayment (h : a.SizesFit) (b : Nat) : ∀ c ∈ (a.repayment b).calls, c.InWords := by
  unfold repayment
  split
  · next x hx =>
    split
    · simp
    · simpa [Account.calls, Posting.call, AllocatorCall.InWords] using h b x hx
  · simp

theorem SizesFit.releaseBuffer (h : a.SizesFit) (b : Nat) : (a.releaseBuffer b).1.SizesFit := by
  intro c x hc
  rw [buffer?_releaseBuffer] at hc
  split at hc
  · obtain ⟨y, hy, rfl⟩ := Option.map_eq_some_iff.mp hc
    exact h c y hy
  · exact h c x hc

theorem inWords_repayments (h : a.SizesFit) (bs : List Nat) :
    ∀ c ∈ (a.repayments bs).calls, c.InWords := by
  induction bs generalizing a with
  | nil => simp [repayments]
  | cons b rest ih =>
    rw [repayments, Account.calls_append, List.forall_mem_append]
    exact ⟨inWords_repayment h b, ih (h.releaseBuffer b)⟩

theorem fits_of_makeBuffer (h : a.makeBuffer p pool size = .ok (g, b)) : Word.Fits size := by
  unfold makeBuffer at h
  split at h
  · simp at h
  · exact Word.fits_of_nonneg (Int.natCast_nonneg size) (by omega)

theorem inWords_drawing (a : Arena) (p size : Nat) : ∀ c ∈ (a.drawing p size).calls, c.InWords := by
  unfold drawing
  split
  · next hg =>
    obtain ⟨_, _, _, _, _, hm, -⟩ := getBuffer_ok hg
    simpa [Account.calls, Posting.call, AllocatorCall.InWords] using fits_of_makeBuffer hm
  · simp

theorem inWords_exchange (h : a.SizesFit) (p old size : Nat) :
    ∀ c ∈ (a.exchange p old size).calls, c.InWords := by
  unfold exchange
  split
  · next pool _ _ _ hg =>
    obtain ⟨_, _, _, _, _, _, hm, -⟩ := replaceBuffer_ok hg
    have hfirst : AllocatorCall.InWords (.consume pool.allocator size) := fits_of_makeBuffer hm
    exact List.forall_mem_cons.mpr ⟨hfirst, inWords_repayment h old⟩
  · simp

end Arena

namespace Host

-- ---------------------------------------------------------------------------
-- Calls
-- ---------------------------------------------------------------------------

variable {h : Host} {t : Account}

/-- What is asked in vain leaves the allocators as they are. -/
theorem performAll_refused (hk : h.arena.Keeps t) (c : HostCall) :
    h.forest.performAll (h.refused c) = h.forest := by
  cases c with
  | getDefault pool =>
    rw [refused]
    split
    · rfl
    · next hg =>
      have hrefuses : h.arena.Refuses (.default pool) _ := Arena.refuses_of_answer hg
      exact Arena.performAll_request hrefuses (by simp [BufferRequest.old?])
  | getBuffer pool size =>
    rw [refused]
    split
    · rfl
    · next hg =>
      have hrefuses : h.arena.Refuses (.sized pool size) _ := Arena.refuses_of_answer hg
      exact Arena.performAll_request hrefuses (by simp [BufferRequest.old?])
  | replaceBuffer pool old size left =>
    rw [refused]
    split
    · rfl
    · next hg =>
      split
      · next hold =>
        have hrefuses : h.arena.Refuses (.inPlaceOf old pool size left) _ := Arena.refuses_of_answer hg
        have hthere : h.arena.buffer? old ≠ none := by
          cases hbs : h.arena.tracked pool with
          | none => simp [hbs] at hold
          | some bs =>
            rw [hbs] at hold
            obtain ⟨x, -, hx, -⟩ := hk.accounted.of_maker? (hk.tracks.own pool bs hbs old hold)
            simp [hx]
        refine Arena.performAll_request hrefuses fun b hb => ?_
        obtain rfl := Option.some.inj hb
        exact ⟨hthere, hold⟩
      · rfl
  | _ => rfl

theorem inWords_refused (h : Host) (c : HostCall) : ∀ call ∈ h.refused c, call.InWords := by
  cases c with
  | getDefault pool =>
    rw [refused]
    split
    · simp
    · exact Arena.inWords_request _ _ _
  | getBuffer pool size =>
    rw [refused]
    split
    · simp
    · exact Arena.inWords_request _ _ _
  | replaceBuffer pool old size =>
    rw [refused]
    split
    · simp
    · split
      · exact Arena.inWords_request _ _ _
      · simp
  | _ => simp [refused]

theorem inWords_surrender (hf : h.arena.SizesFit) (names : Holders) (buffers allocators : List Nat) :
    ∀ call ∈ (h.surrender names buffers allocators).calls, call.InWords := by
  rw [surrender, Account.calls_append, List.forall_mem_append]
  refine ⟨Arena.inWords_repayments hf _, ?_⟩
  simp [Account.calls, Posting.call, AllocatorCall.InWords]

theorem inWords_postings (hf : h.arena.SizesFit) {c : HostCall} (hc : c.InWords) :
    ∀ call ∈ (h.postings c).calls, call.InWords := by
  cases c with
  | child | consume | release => exact List.forall_mem_singleton.mpr hc
  | getDefault pool => exact Arena.inWords_drawing _ _ _
  | getBuffer pool size => exact Arena.inWords_drawing _ _ _
  | replaceBuffer pool old size left =>
    rw [postings]
    split
    · exact Arena.inWords_exchange hf _ _ _
    · exact inWords_surrender hf left _ _
  | releaseBuffer b => exact Arena.inWords_repayment hf b
  | closePool pool => exact Arena.inWords_repayments hf _
  | openEnvironment root endpoint options services =>
    cases root with
    | some r => simp [postings]
    | none =>
      rw [postings]
      split
      · simp [AllocatorCall.InWords]
      · simp
  | openContext environment plan session registry =>
    rw [postings]
    split
    · split
      · exact List.forall_mem_singleton.mpr hc
      · simp
    · simp
  | closeContext context =>
    rw [postings]
    split
    · split
      · simp
      · rw [Account.calls_append, List.forall_mem_append]
        exact ⟨Arena.inWords_repayments hf _, by simp [AllocatorCall.InWords]⟩
    · simp
  | keep names => exact inWords_surrender hf names _ _
  | _ => simp [postings, AllocatorCall.InWords]

theorem inWords_asks (hf : h.arena.SizesFit) {c : HostCall} (hc : c.InWords) :
    ∀ call ∈ h.asks c, call.InWords :=
  List.forall_mem_append.mpr ⟨inWords_refused h c, inWords_postings hf hc⟩

theorem forest_asks (hk : h.arena.Keeps t) (c : HostCall) :
    (h.act c).forest = h.forest.performAll (h.asks c) := by
  rw [asks, Forest.performAll_append, performAll_refused hk, forest_act hk]

/-- All that a run asks of the allocators are words, and it makes the forest what it is. -/
theorem asked_of_inWords (hk : h.arena.Keeps t) (ht : ∀ call ∈ t.calls, call.InWords)
    {calls : List HostCall} (hc : ∀ c ∈ calls, c.InWords) :
    (∀ call ∈ h.asked calls, call.InWords) ∧
      h.forest.performAll (h.asked calls) = (h.actAll calls).forest := by
  induction calls generalizing h t with
  | nil => exact ⟨by simp [asked], rfl⟩
  | cons c calls ih =>
    obtain ⟨hfirst, hrest⟩ := List.forall_mem_cons.mp hc
    have hf := hk.accounted.sizesFit ht
    have ht' : ∀ call ∈ Account.calls (t ++ h.postings c), call.InWords := by
      rw [Account.calls_append, List.forall_mem_append]
      exact ⟨ht, inWords_postings hf hfirst⟩
    obtain ⟨hwords, hforest⟩ := ih (keeps_act hk c) ht' hrest
    rw [asked, Forest.performAll_append, ← forest_asks hk]
    exact ⟨List.forall_mem_append.mpr ⟨inWords_asks hf hfirst, hwords⟩, hforest⟩

/-- Whatever happens at a host, in any order, with words as the amounts that callers name: all that is asked
of its allocators, in vain or not, goes through with plain sums that are words each, and leaves the very
forest of the exact run, in which every figure is a word. -/
theorem accounting_stays_in_words (process : Process) {calls : List HostCall} (hc : ∀ c ∈ calls, c.InWords) :
    Forest.performAllInWords? {} ((Session.ofProcess process).host.asked calls) =
        some ((Session.ofProcess process).host.actAll calls).forest ∧
      ((Session.ofProcess process).host.actAll calls).forest.InWords := by
  obtain ⟨hwords, hforest⟩ := asked_of_inWords (h := (Session.ofProcess process).host)
    Arena.keeps_empty (by simp) hc
  have hrun := Forest.performAllInWords?_eq Forest.linked_empty Forest.sound_empty Forest.inWords_empty
    hwords
  rw [← hforest]
  exact hrun

/-- A run in which amounts, reservations and sizes are at the ends of their ranges. Use stops at the largest
word, an amount below zero and a size that is no word are refused, and the last buffer is asked for in vain. -/
def largestAmounts : List HostCall :=
  [.root "query" (-1), .child 0 "fragment" 9223372036854775807 (-1) true,
    .child 1 "scan" 9223372036854775807 9223372036854775807 true, .consume 2 9223372036854775807,
    .consume 1 9223372036854775807, .consume 0 9223372036854775807,
    .release 1 (-9223372036854775808), .limit 2 (-9223372036854775808), .child 2 "sort" (-1) 5 true,
    .openPool "scan" 2 18446744073709551615, .getDefault 0, .getBuffer 0 9223372036854775807,
    .release 2 9223372036854775807, .getBuffer 0 9223372036854775807, .replaceBuffer 0 0 1 {},
    .releaseBuffer 0, .child 2 "sort" 5 5 true, .openPool "sort" 3 9223372036854775807, .getDefault 1,
    .closeAllocator 1, .keep {}]

/-- The request in vain is among those asked. -/
theorem accounting_stays_in_words_largestAmounts :
    (∀ c ∈ largestAmounts, c.InWords) ∧
      .consume 3 9223372036854775807 ∈ (Session.ofProcess {}).host.asked largestAmounts ∧
      Forest.performAllInWords? {} ((Session.ofProcess {}).host.asked largestAmounts) =
        some ((Session.ofProcess {}).host.actAll largestAmounts).forest ∧
      ((Session.ofProcess {}).host.actAll largestAmounts).forest.InWords := by
  have hwords : ∀ c ∈ largestAmounts, c.InWords := by
    simp only [largestAmounts, List.forall_mem_cons, HostCall.InWords, List.not_mem_nil, false_implies,
      implies_true]
    decide
  exact ⟨hwords, by decide +kernel, accounting_stays_in_words {} hwords⟩

end Host

end FragmentHost

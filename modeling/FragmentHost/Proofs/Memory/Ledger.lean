import FragmentHost.Proofs.Memory.OwnUse

/-!
# The ledger of a run

A ledger follows a run of calls and writes down two things that the forest does not keep: the bytes that
each allocator was granted directly and has not returned directly since (`held`), and the allocators at
which an addition stopped at the largest word (`saturated`).

The ledger is exact at every single allocator: what is in use at an open allocator is what it holds itself
and what it holds for its live children, to the byte, after any run in which the direct returns to this
one allocator never exceed what it holds. Nothing is asked of the other allocators. The invariant behind
it is `Balanced`: the own use of the allocator (`Forest.ownUse`) is what the ledger says it holds. An
addition can stop only where there is no ceiling below the largest word (`unbounded_ofRun`).
-/

namespace FragmentHost

/-- A forest with what was granted to and returned by its allocators so far. -/
structure Ledger where
  forest : Forest := {}
  /-- The bytes granted directly to an allocator and not returned directly since. -/
  held : Nat → Int := fun _ => 0
  /-- The allocators at which an addition stopped at the largest word. -/
  saturated : List Nat := []

namespace Ledger

/-- The bytes that a call grants directly to `p`, less those that it returns directly. -/
def direct (f : Forest) (p : Nat) : AllocatorCall → Int
  | .consume i bytes =>
    match f.get? i, f.consume i bytes with
    | some _, .ok _ => if i = p then max bytes 0 else 0
    | _, _ => 0
  | .release i bytes => if i = p then -max bytes 0 else 0
  | .root _ _ | .child _ _ _ _ _ | .limit _ _ | .close _ | .drop _ => 0

/-- The allocators at which a call makes an addition that stops at the largest word. A refused call
adds nothing. -/
def stopping (f : Forest) : AllocatorCall → List Nat
  | .consume i bytes =>
    match f.consume i bytes with
    | .ok _ => f.saturating (f.path i) bytes
    | .error _ => []
  | .child parent label initial max obeysLimits =>
    match f.newChild parent label initial max obeysLimits with
    | .ok _ => f.saturating (f.path parent) initial
    | .error _ => []
  | .root _ _ | .release _ _ | .limit _ _ | .close _ | .drop _ => []

/-- The ledger after a call. -/
def post (l : Ledger) (c : AllocatorCall) : Ledger where
  forest := l.forest.perform c
  held p := l.held p + direct l.forest p c
  saturated := l.saturated ++ stopping l.forest c

/-- The ledger after calls, one after the other. -/
def postAll (l : Ledger) (calls : List AllocatorCall) : Ledger := calls.foldl post l

/-- The ledger of a run that starts without allocators. -/
def ofRun (calls : List AllocatorCall) : Ledger := postAll {} calls

/-- A call returns no more to `p` than `p` holds. -/
def Allows (l : Ledger) (p : Nat) : AllocatorCall → Prop
  | .release i bytes => i = p → bytes ≤ l.held p
  | .root _ _ | .child _ _ _ _ _ | .consume _ _ | .limit _ _ | .close _ | .drop _ => True

instance (l : Ledger) (p : Nat) : (c : AllocatorCall) → Decidable (l.Allows p c)
  | .release i bytes =>
    haveI : Decidable (bytes ≤ l.held p) := Int.decLe ..
    inferInstanceAs (Decidable (i = p → bytes ≤ l.held p))
  | .root _ _ | .child _ _ _ _ _ | .consume _ _ | .limit _ _ | .close _ | .drop _ => isTrue trivial

/-- No call of a run returns more to `p` than `p` holds at that time. -/
def Respects (l : Ledger) (p : Nat) : List AllocatorCall → Prop
  | [] => True
  | c :: calls => l.Allows p c ∧ (l.post c).Respects p calls

instance decidableRespects (p : Nat) :
    (l : Ledger) → (calls : List AllocatorCall) → Decidable (l.Respects p calls)
  | _, [] => isTrue trivial
  | l, c :: calls =>
    @instDecidableAnd _ _ (inferInstanceAs (Decidable (l.Allows p c)))
      (decidableRespects p (l.post c) calls)

theorem forest_post (l : Ledger) (c : AllocatorCall) :
    (l.post c).forest = l.forest.perform c := rfl

theorem forest_postAll (l : Ledger) (calls : List AllocatorCall) :
    (l.postAll calls).forest = l.forest.performAll calls := by
  induction calls generalizing l with
  | nil => rfl
  | cons c calls ih => exact ih (l.post c)

theorem forest_ofRun (calls : List AllocatorCall) :
    (ofRun calls).forest = Forest.performAll {} calls :=
  forest_postAll {} calls

theorem linked_ofRun (calls : List AllocatorCall) : (ofRun calls).forest.Linked := by
  rw [forest_ofRun]
  exact Forest.linked_performAll calls

theorem sound_ofRun (calls : List AllocatorCall) : (ofRun calls).forest.Sound := by
  rw [forest_ofRun]
  exact Forest.sound_performAll calls

-- ---------------------------------------------------------------------------
-- The invariant
-- ---------------------------------------------------------------------------

/-- The own use of `p` is what the ledger says `p` holds. An allocator that is not there yet counts as
open: it has no use and holds nothing. -/
structure Balanced (l : Ledger) (p : Nat) : Prop where
  held_nonneg : 0 ≤ l.held p
  ownUse_eq : (∀ a, l.forest.get? p = some a → a.closed = false) → p ∉ l.saturated →
    l.forest.ownUse p = l.held p

theorem held_post (l : Ledger) (c : AllocatorCall) (p : Nat) :
    (l.post c).held p = l.held p + direct l.forest p c := rfl

/-- What is held never falls below zero while no more is returned than is held. -/
theorem held_nonneg_post {l : Ledger} {p : Nat} (h : 0 ≤ l.held p) {c : AllocatorCall}
    (hc : l.Allows p c) : 0 ≤ (l.post c).held p := by
  rw [held_post]
  cases c with
  | consume i bytes =>
    simp only [direct]
    split
    · split <;> omega
    · omega
  | release i bytes =>
    simp only [direct]
    split
    · next hip =>
      have hle : bytes ≤ l.held p := hc hip
      omega
    · omega
  | _ =>
    rw [direct]
    omega

/-- What a call does to the own use of an allocator that stays open: what it grants and returns there
directly, and nothing else. -/
theorem ownUse_perform {f : Forest} (hl : f.Linked) (hs : f.Sound) {p : Nat} {c : AllocatorCall}
    (hopen : ∀ b, (f.perform c).get? p = some b → b.closed = false) (hstop : p ∉ stopping f c)
    (hown : 0 ≤ f.ownUse p) (hcover : 0 ≤ f.ownUse p + direct f p c) :
    (f.perform c).ownUse p = f.ownUse p + direct f p c := by
  cases c with
  | root label max =>
    rw [direct, Int.add_zero]
    exact Forest.ownUse_newRoot f label max p
  | child parent label initial max obeysLimits =>
    rw [direct, Int.add_zero, Forest.perform]
    cases hg : f.newChild parent label initial max obeysLimits with
    | error refusal => rfl
    | ok made =>
      rw [stopping, hg] at hstop
      exact Forest.ownUse_newChild hl hs hg hstop
  | consume i bytes =>
    rw [direct, Forest.perform]
    cases hg : f.consume i bytes with
    | error refusal => cases f.get? i <;> simp
    | ok g =>
      rw [stopping, hg] at hstop
      have hcharge := Forest.ownUse_charge hs (hl.climbs_path i) hg hstop
      cases ha : f.get? i with
      | none =>
        -- a request to nobody is granted and arrives nowhere
        have hpath : f.path i = [] := by rw [Forest.path, ha]
        rw [hpath] at hcharge
        exact hcharge
      | some a =>
        rw [Forest.arriving_path ha] at hcharge
        exact hcharge
  | release i bytes =>
    have hev := Forest.evolves_discharge f (f.path i) bytes
    -- open after the return, so open before
    have hbefore : ∀ b, f.get? p = some b → b.closed = false := by
      intro b hb
      obtain ⟨b', hb', hbb'⟩ := hev.old p b hb
      exact hbb'.open_before (hopen b' hb')
    rw [direct] at hcover ⊢
    rw [Forest.perform, Forest.ownUse_release hl hs hbefore]
    · split <;> omega
    · split at hcover <;> split <;> omega
  | limit i limit =>
    rw [direct, Int.add_zero]
    exact Forest.ownUse_modify_of_eq fun _ _ => ⟨rfl, rfl⟩
  | close i =>
    rw [Forest.perform, Forest.fst_close] at hopen ⊢
    rw [direct, Int.add_zero]
    exact Forest.ownUse_shut_of_open_after hl hs hopen hown
  | drop i =>
    rw [direct, Int.add_zero]
    exact Forest.ownUse_drop hl hs hopen hown

/-- A call keeps the balance of `p`, unless it returns more to `p` than `p` holds. -/
theorem Balanced.post {l : Ledger} (hl : l.forest.Linked) (hs : l.forest.Sound) {p : Nat}
    (h : l.Balanced p) {c : AllocatorCall} (hc : l.Allows p c) : (l.post c).Balanced p := by
  have hheld := held_nonneg_post h.held_nonneg hc
  refine ⟨hheld, fun hopen hsat => ?_⟩
  rw [Ledger.post, List.mem_append, not_or] at hsat
  have heq : l.forest.ownUse p = l.held p := by
    refine h.ownUse_eq (fun a ha => ?_) hsat.1
    -- closed allocators stay closed
    obtain ⟨b, hb, hab⟩ := (Forest.evolves_perform hl c).1.old p a ha
    exact hab.open_before (hopen b hb)
  rw [held_post, ← heq] at hheld ⊢
  exact ownUse_perform hl hs hopen hsat.2 (heq ▸ h.held_nonneg) hheld

/-- A run keeps the balance of `p` while it returns no more to `p` than `p` holds. -/
theorem Balanced.postAll {l : Ledger} (hl : l.forest.Linked) (hs : l.forest.Sound) {p : Nat}
    (h : l.Balanced p) {calls : List AllocatorCall} (hc : l.Respects p calls) :
    (l.postAll calls).Balanced p := by
  induction calls generalizing l with
  | nil => exact h
  | cons c calls ih =>
    obtain ⟨hev, hl'⟩ := Forest.evolves_perform hl c
    exact ih hl' (hs.evolves hev) (h.post hl hs hc.1) hc.2

theorem balanced_empty (p : Nat) : Balanced {} p := by
  refine ⟨le_rfl, fun _ _ => ?_⟩
  rw [Forest.ownUse_of_absent Forest.linked_empty (Forest.get?_eq_none_iff.mpr (Nat.zero_le p))]

theorem balanced_ofRun {p : Nat} {calls : List AllocatorCall} (h : Respects {} p calls) :
    (ofRun calls).Balanced p :=
  (balanced_empty p).postAll Forest.linked_empty Forest.sound_empty h

-- ---------------------------------------------------------------------------
-- Saturation
-- ---------------------------------------------------------------------------

/-- An allocator with a ceiling below the largest word is never saturated: it refuses before. -/
theorem not_mem_stopping {f : Forest} (hl : f.Linked) (hs : f.Sound) {p : Nat} {a : Allocator}
    (ha : f.get? p = some a) (hmax : 0 ≤ a.max) (hlt : a.max < Word.largest) (c : AllocatorCall) :
    p ∉ stopping f c := by
  cases c with
  | consume i bytes =>
    rw [stopping]
    split
    · next g hg => exact Forest.not_mem_saturating hs (hl.climbs_path i) hg ha hmax hlt
    · simp
  | child parent label initial max obeysLimits =>
    rw [stopping]
    split
    · next made hg =>
      obtain ⟨-, -, f', hf', -⟩ := Forest.newChild_ok hg
      exact Forest.not_mem_saturating hs (hl.climbs_path parent) hf' ha hmax hlt
    · simp
  | _ => simp [stopping]

/-- Only allocators that are there are saturated. -/
theorem lt_length_of_mem_stopping {f : Forest} (hl : f.Linked) {p : Nat} {c : AllocatorCall}
    (h : p ∈ stopping f c) : p < f.nodes.length := by
  have hpath : ∀ i, p ∈ f.path i → p < f.nodes.length :=
    fun i hi => (hl.climbs_path i).lt_length hi
  cases c with
  | consume i bytes =>
    rw [stopping] at h
    split at h
    · exact hpath i (Forest.mem_path_of_mem_saturating h)
    · simp at h
  | child parent label initial max obeysLimits =>
    rw [stopping] at h
    split at h
    · exact hpath parent (Forest.mem_path_of_mem_saturating h)
    · simp at h
  | _ => simp [stopping] at h

/-- No saturated allocator has a ceiling below the largest word, and every one is in the forest. -/
def Unbounded (l : Ledger) : Prop :=
  ∀ q ∈ l.saturated, ∃ a, l.forest.get? q = some a ∧ (a.max < 0 ∨ Word.largest ≤ a.max)

theorem Unbounded.post {l : Ledger} (hl : l.forest.Linked) (hs : l.forest.Sound) (h : l.Unbounded)
    (c : AllocatorCall) : (l.post c).Unbounded := by
  have hev := (Forest.evolves_perform hl c).1
  -- the ceiling of an allocator is the same before and after the call
  have hold : ∀ q a, l.forest.get? q = some a → a.max < 0 ∨ Word.largest ≤ a.max →
      ∃ b, (l.post c).forest.get? q = some b ∧ (b.max < 0 ∨ Word.largest ≤ b.max) := by
    intro q a ha hmax
    obtain ⟨b, hb, hab⟩ := hev.old q a ha
    exact ⟨b, hb, hab.fixed.2.2.2.1 ▸ hmax⟩
  intro q hq
  rcases List.mem_append.mp hq with hq | hq
  · obtain ⟨a, ha, hmax⟩ := h q hq
    exact hold q a ha hmax
  · obtain ⟨a, ha⟩ := Forest.exists_get?_of_lt (lt_length_of_mem_stopping hl hq)
    -- an addition stopped there just now
    refine hold q a ha ?_
    by_contra hbound
    exact not_mem_stopping hl hs ha (by omega) (by omega) c hq

theorem Unbounded.postAll {l : Ledger} (hl : l.forest.Linked) (hs : l.forest.Sound)
    (h : l.Unbounded) (calls : List AllocatorCall) : (l.postAll calls).Unbounded := by
  induction calls generalizing l with
  | nil => exact h
  | cons c calls ih =>
    obtain ⟨hev, hl'⟩ := Forest.evolves_perform hl c
    exact ih hl' (hs.evolves hev) (h.post hl hs c)

theorem unbounded_ofRun (calls : List AllocatorCall) : (ofRun calls).Unbounded :=
  Unbounded.postAll Forest.linked_empty Forest.sound_empty (by simp [Unbounded]) calls

/-- No addition ever stops at an allocator with a ceiling below the largest word. -/
theorem not_mem_saturated {calls : List AllocatorCall} {p : Nat} {a : Allocator}
    (ha : (ofRun calls).forest.get? p = some a) (hmax : 0 ≤ a.max) (hlt : a.max < Word.largest) :
    p ∉ (ofRun calls).saturated := by
  intro hp
  obtain ⟨b, hb, hbound⟩ := unbounded_ofRun calls p hp
  rw [ha, Option.some.injEq] at hb
  subst hb
  omega

-- ---------------------------------------------------------------------------
-- The exact ledger
-- ---------------------------------------------------------------------------

/-- In a balanced ledger, what is in use at an open allocator is what it holds itself and what it holds
for its live children. -/
theorem Balanced.current_eq {l : Ledger} {p : Nat} (h : l.Balanced p) {a : Allocator}
    (ha : l.forest.get? p = some a) (hopen : a.closed = false) (hsat : p ∉ l.saturated) :
    a.current = l.held p + ∑ c ∈ l.forest.liveChildren p, l.forest.claim c := by
  have hown := h.ownUse_eq (fun b hb => by rw [ha, Option.some.injEq] at hb; exact hb ▸ hopen) hsat
  rw [Forest.ownUse, Forest.current_of_get? ha] at hown
  omega

/-- In a balanced ledger, an open allocator has in use at least what it holds for a live child. -/
theorem Balanced.claim_le {l : Ledger} {p : Nat} (h : l.Balanced p) {a : Allocator}
    (ha : l.forest.get? p = some a) (hopen : a.closed = false) (hsat : p ∉ l.saturated)
    (hs : l.forest.Sound) {c : Nat} (hc : c ∈ l.forest.liveChildren p) :
    l.forest.claim c ≤ a.current := by
  have hsum := Finset.single_le_sum (fun i _ => Forest.claim_nonneg hs i) hc
  have hheld := h.held_nonneg
  rw [h.current_eq ha hopen hsat]
  omega

theorem Balanced.current_le {l : Ledger} {p : Nat} (h : l.Balanced p) {a : Allocator}
    (ha : l.forest.get? p = some a) (hopen : a.closed = false) (hsat : p ∉ l.saturated)
    (hs : l.forest.Sound) {c : Nat} (hc : c ∈ l.forest.liveChildren p) :
    l.forest.current c ≤ a.current :=
  (Forest.current_le_claim l.forest c).trans (h.claim_le ha hopen hsat hs hc)

/-- After any run that returns no more to `p` directly than `p` holds, an open allocator `p` at which no
addition stopped has in use what it holds itself and the claims of its live children, to the byte; what
was done to the children does not matter. A ceiling below the largest word is enough for no addition to
stop, and without live children only what `p` holds itself is left. -/
theorem current_eq_held_add_claims (calls : List AllocatorCall) (p : Nat) (h : Respects {} p calls)
    {a : Allocator} (ha : (ofRun calls).forest.get? p = some a) (hopen : a.closed = false) :
    (0 ≤ a.max → a.max < Word.largest → p ∉ (ofRun calls).saturated) ∧
      (p ∉ (ofRun calls).saturated →
        a.current = (ofRun calls).held p +
            ∑ c ∈ (ofRun calls).forest.liveChildren p, (ofRun calls).forest.claim c ∧
          ((ofRun calls).forest.liveChildren p = ∅ → a.current = (ofRun calls).held p)) := by
  refine ⟨not_mem_saturated ha, fun hsat => ?_⟩
  have hcurrent := (balanced_ofRun h).current_eq ha hopen hsat
  refine ⟨hcurrent, fun hnone => ?_⟩
  rw [hcurrent, hnone, Finset.sum_empty, Int.add_zero]

/-- A run over a root and two children in which the first child is given back more than it had, is
asked for less than nothing, gets a limit and is dropped with bytes in use, while the root holds bytes
of its own. -/
def misusedChild : List AllocatorCall :=
  [.root "query" 1000, .child 0 "scan" 100 400 true, .child 0 "join" 50 (-1) false, .consume 0 30,
    .consume 1 150, .release 1 900, .consume 1 (-20), .release 1 (-7), .limit 1 10, .consume 1 20,
    .consume 2 80, .release 0 10, .drop 1, .consume 1 5]

/-- The root is left with its own twenty bytes and the eighty of the second child. -/
theorem current_eq_held_add_claims_misusedChild :
    ∃ a, (ofRun misusedChild).forest.get? 0 = some a ∧ a.closed = false ∧ a.current = 100 ∧
      Respects {} 0 misusedChild ∧ ¬ Respects {} 1 misusedChild ∧
      ((0 ≤ a.max → a.max < Word.largest → 0 ∉ (ofRun misusedChild).saturated) ∧
        (0 ∉ (ofRun misusedChild).saturated →
          a.current = (ofRun misusedChild).held 0 +
              ∑ c ∈ (ofRun misusedChild).forest.liveChildren 0,
                (ofRun misusedChild).forest.claim c ∧
            ((ofRun misusedChild).forest.liveChildren 0 = ∅ →
              a.current = (ofRun misusedChild).held 0))) :=
  ⟨_, rfl, by decide, by decide, by decide, by decide,
    current_eq_held_add_claims misusedChild 0 (by decide) rfl (by decide)⟩

end Ledger

end FragmentHost

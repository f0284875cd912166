import FragmentHost.Proofs.Memory.Inquiries

/-!
# What is reserved can be had

A reservation is paid for when the allocator is made: the parent charges it like any other request, and it is
within the ceiling of the new allocator. From then on the allocator grants up to its reservation by itself.
The demand that such a request makes of the parent is exactly zero, so that nobody above is asked
(`consume_within_reservation`).

Nothing that the rest of the forest does can stand in the way. The allocators above may lower their limits,
run out of bytes or even be closed, and those beside it may take what they can get: as long as the allocator
itself is open and has no limit (`Standing`), it grants what is left of its reservation. What is left depends
on the calls about the allocator and those below it only (`get?_perform_of_foreign`).
-/

namespace FragmentHost

namespace Forest

variable {f g : Forest} {i : Nat} {a : Allocator}

-- ---------------------------------------------------------------------------
-- Reservations and ceilings
-- ---------------------------------------------------------------------------

theorem le_max_of_newChild {parent child : Nat} {label : String} {initial max : Int}
    {obeysLimits : Bool} (h : f.newChild parent label initial max obeysLimits = .ok (g, child))
    (hmax : 0 ≤ max) : initial ≤ max := by
  unfold newChild at h
  split at h
  · simp at h
  · next hfault =>
    unfold reservationFault? at hfault
    split at hfault
    · simp at hfault
    · split at hfault
      · simp at hfault
      · omega

/-- No reservation is above the ceiling of its allocator. -/
theorem initial_le_max : ∀ (calls : List AllocatorCall) (a : Allocator),
    (performAll {} calls).get? i = some a → 0 ≤ a.max → a.initial ≤ a.max := by
  refine life_induction (motive := fun _ a => 0 ≤ a.max → a.initial ≤ a.max) ?_ ?_
  · intro calls c a hnone ha _
    rw [performAll_append] at ha
    rcases made_of_perform (linked_performAll calls) ha hnone with
      ⟨label, max, -, rfl⟩ | ⟨parent, label, initial, max, obeysLimits, g, -, hg, rfl⟩
    · exact id
    · exact le_max_of_newChild hg
  · intro calls c a b limit entries dropped _ hchange _ ih
    have hsame : b.initial = a.initial ∧ b.max = a.max := by cases hchange <;> exact ⟨rfl, rfl⟩
    show 0 ≤ b.max → b.initial ≤ b.max
    rw [hsame.1, hsame.2]
    exact ih

-- ---------------------------------------------------------------------------
-- Within the reservation
-- ---------------------------------------------------------------------------

/-- Within its reservation an allocator that is open and has no limit grants by itself. -/
theorem consume_within_reservation (hs : a.Sound) (ha : f.get? i = some a) (hopen : a.closed = false)
    (hlimit : a.limit < 0) (hceiling : 0 ≤ a.max → a.initial ≤ a.max) {bytes : Int} (hpos : 0 < bytes)
    (hfits : a.current + bytes ≤ a.initial) :
    f.consume i bytes = .ok (f.modify i (·.grant bytes)) := by
  have hwithin : a.usageAfter bytes ≤ a.initial := by
    rw [Allocator.usageAfter_eq hs hpos.le]
    omega
  have hr : a.refusal? bytes true = none := by
    unfold Allocator.refusal?
    rw [if_neg (by simp [hopen]), if_neg (by omega), if_neg (by omega)]
  -- no part of the use is beyond the reservation, neither before nor after
  have hdemand : a.demand bytes = 0 := by
    unfold Allocator.demand Allocator.excess
    omega
  rw [consume, path_of_get? ha, charge, if_neg (by omega), ha]
  dsimp only
  rw [hr, hdemand, charge_of_nonpos f _ le_rfl]

-- ---------------------------------------------------------------------------
-- Whatever the others do
-- ---------------------------------------------------------------------------

/-- A call neither closes nor drops allocator `i`, and sets no limit there. -/
def Upholds (i : Nat) : AllocatorCall → Prop
  | .close j | .drop j => j ≠ i
  | .limit j limit => j = i → limit < 0
  | .root _ _ | .child _ _ _ _ _ | .consume _ _ | .release _ _ => True

instance (i : Nat) : (c : AllocatorCall) → Decidable (Upholds i c)
  | .close j | .drop j => inferInstanceAs (Decidable (j ≠ i))
  | .limit j limit => inferInstanceAs (Decidable (j = i → limit < 0))
  | .root _ _ | .child _ _ _ _ _ | .consume _ _ | .release _ _ => isTrue trivial

/-- Allocator `i` is open and has no limit; its reservation is `initial`. -/
def Standing (f : Forest) (i : Nat) (initial : Int) : Prop :=
  ∃ a, f.get? i = some a ∧ a.closed = false ∧ a.limit < 0 ∧ a.initial = initial

theorem Standing.perform (hl : f.Linked) {initial : Int} (h : f.Standing i initial)
    {c : AllocatorCall} (hc : Upholds i c) : (f.perform c).Standing i initial := by
  obtain ⟨a, ha, hopen, hlimit, hinitial⟩ := h
  obtain ⟨b, hb, limit, entries, dropped, hmarked, hset⟩ := change_of_perform hl c ha
  have hunset : limit < 0 := by
    rcases hset with rfl | rfl
    · exact hlimit
    · exact hc rfl
  refine ⟨_, hmarked, ?_, hunset, ?_⟩
  · show b.closed = false
    cases hb with
    | none | grant | giveBack => exact hopen
    | shut hcall =>
      -- the call would be one that closes the allocator
      rcases hcall with rfl | rfl
      · exact absurd rfl hc
      · exact absurd rfl hc
  · show b.initial = initial
    cases hb <;> exact hinitial

theorem Standing.performAll (hl : f.Linked) {initial : Int} (h : f.Standing i initial)
    {calls : List AllocatorCall} (hc : ∀ c ∈ calls, Upholds i c) :
    (f.performAll calls).Standing i initial := by
  induction calls generalizing f with
  | nil => exact h
  | cons c calls ih =>
    exact ih (evolves_perform hl c).2 (h.perform hl (hc c (List.mem_cons_self ..)))
      fun d hd => hc d (List.mem_cons_of_mem c hd)

/-- A call about an allocator that is neither `j` nor below `j` leaves `j` as it is. -/
theorem get?_perform_of_foreign (hl : f.Linked) {j : Nat} (ha : f.get? j = some a) {c : AllocatorCall}
    (hc : ∀ i ∈ c.target?, j ∉ f.path i) : (f.perform c).get? j = some a := by
  have hlt := lt_length_of_get? ha
  cases c with
  | root label max => rw [perform, newRoot, get?_add, if_neg (by omega), ha]
  | child parent label initial max obeysLimits =>
    have hj := hc parent rfl
    rw [perform]
    cases hg : f.newChild parent label initial max obeysLimits with
    | error refusal => exact ha
    | ok made =>
      obtain ⟨g, child⟩ := made
      obtain ⟨-, ⟨p, hp, -⟩, f', hf', rfl, rfl⟩ := newChild_ok hg
      have hlen := length_charge (hl.climbs_path parent) hf'
      have hne : parent ≠ j := by
        rintro rfl
        exact hj (path_of_get? hp ▸ List.mem_cons_self ..)
      dsimp only
      rw [enter, get?_modify_of_ne _ hne, get?_add, if_neg (by omega), get?_charge_of_not_mem hj hf', ha]
  | consume i bytes =>
    rw [perform]
    cases hg : f.consume i bytes with
    | error refusal => exact ha
    | ok g => exact (get?_charge_of_not_mem (hc i rfl) hg).trans ha
  | release i bytes => exact (get?_discharge_of_not_mem f bytes (hc i rfl)).trans ha
  | limit i limit =>
    have hne : i ≠ j := by
      rintro rfl
      exact hc i rfl (path_of_get? ha ▸ List.mem_cons_self ..)
    rw [perform, setLimit, get?_modify_of_ne f hne, ha]
  | close i => rw [perform, fst_close, get?_shut_of_not_mem f (hc i rfl), ha]
  | drop i => rw [perform, get?_drop_of_not_mem f (hc i rfl), ha]

-- ---------------------------------------------------------------------------
-- Any run
-- ---------------------------------------------------------------------------

/-- In any run, however it goes on from where allocator `i` is open and without a limit, as long as nobody
closes or drops it or sets a limit there: a request at `i` within the reservation is granted and changes no
other allocator, and what is asked of anybody but `i` and those below it leaves `i` as it is. -/
theorem reservation_stays_grantable (calls later : List AllocatorCall) (i : Nat) {a : Allocator}
    (ha : (performAll {} calls).get? i = some a) (hopen : a.closed = false) (hlimit : a.limit < 0)
    (hlater : ∀ c ∈ later, Upholds i c) :
    ∃ b, (performAll {} (calls ++ later)).get? i = some b ∧
      (∀ bytes, 0 < bytes → b.current + bytes ≤ a.initial →
        (performAll {} (calls ++ later)).consume i bytes =
            .ok ((performAll {} (calls ++ later)).modify i (·.grant bytes)) ∧
          ∀ j ≠ i, (performAll {} (calls ++ later ++ [.consume i bytes])).get? j =
            (performAll {} (calls ++ later)).get? j) ∧
      ∀ c : AllocatorCall, (∀ j ∈ c.target?, i ∉ (performAll {} (calls ++ later)).path j) →
        (performAll {} (calls ++ later ++ [c])).get? i = some b := by
  have hl := linked_performAll (calls ++ later)
  have hstands : (performAll {} (calls ++ later)).Standing i a.initial := by
    rw [performAll_append]
    exact Standing.performAll (linked_performAll calls) ⟨a, ha, hopen, hlimit, rfl⟩ hlater
  obtain ⟨b, hb, hopenb, hlimitb, hinitial⟩ := hstands
  have hceiling := initial_le_max (calls ++ later) b hb
  refine ⟨b, hb, fun bytes hpos hfits => ?_, fun c hc => ?_⟩
  · have hgranted := consume_within_reservation (sound_performAll _ i b hb) hb hopenb hlimitb hceiling
      hpos (hinitial ▸ hfits)
    refine ⟨hgranted, fun j hj => ?_⟩
    rw [performAll_append {} (calls ++ later), performAll_cons, performAll_nil, perform, hgranted]
    exact get?_modify_of_ne _ (Ne.symm hj) _
  · rw [performAll_append {} (calls ++ later)]
    exact get?_perform_of_foreign hl hb hc

/-- A scan with a reservation of 40 bytes under a fragment under a query. -/
def reservedScan : List AllocatorCall :=
  [.root "query" 100, .child 0 "fragment" 60 (-1) true, .child 1 "scan" 40 50 true]

/-- The limits above the scan go down to nothing, and others take what is left of the query and of the
fragment, while the scan uses some of its reservation. -/
def scarcity : List AllocatorCall :=
  [.child 1 "join" 20 (-1) false, .consume 2 25, .limit 1 0, .child 0 "sort" 40 (-1) false, .limit 0 0,
    .consume 1 1, .consume 3 500, .release 2 10, .consume 2 5, .consume 4 1]

theorem reservation_stays_grantable_scarcity :
    ∃ a, (performAll {} reservedScan).get? 2 = some a ∧ a.closed = false ∧ a.limit < 0 ∧
      (∀ c ∈ scarcity, Upholds 2 c) ∧
      ∃ b, (performAll {} (reservedScan ++ scarcity)).get? 2 = some b ∧
        (∀ bytes, 0 < bytes → b.current + bytes ≤ a.initial →
          (performAll {} (reservedScan ++ scarcity)).consume 2 bytes =
              .ok ((performAll {} (reservedScan ++ scarcity)).modify 2 (·.grant bytes)) ∧
            ∀ j ≠ 2, (performAll {} (reservedScan ++ scarcity ++ [.consume 2 bytes])).get? j =
              (performAll {} (reservedScan ++ scarcity)).get? j) ∧
        ∀ c : AllocatorCall, (∀ j ∈ c.target?, 2 ∉ (performAll {} (reservedScan ++ scarcity)).path j) →
          (performAll {} (reservedScan ++ scarcity ++ [c])).get? 2 = some b :=
  ⟨_, rfl, by decide +kernel, by decide +kernel, by decide +kernel,
    reservation_stays_grantable reservedScan scarcity 2 rfl (by decide +kernel) (by decide +kernel)
      (by decide +kernel)⟩

end Forest

end FragmentHost

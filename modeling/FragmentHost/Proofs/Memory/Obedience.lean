import FragmentHost.Proofs.Memory.Inquiries

/-!
# Whom a limit binds

A coordinator may set a limit at any time, also below what is in use. Each allocator says for itself whether
the requests that pass through it are subject to the limits above; a request is subject to a limit as long as
everyone that it passed says so.

A limit holds for those who obey. Where all allocators below obey, what is in use never rises above the
limit, apart from what was in use when it was set (`current_le_of_perform`, `current_le_of_performAll`). An
allocator below that was closed before the limit was set does not matter, since nothing passes through it any
more. And where a request passed somebody who does not obey, whoever refuses it further up does so for
another reason: it would refuse the same request without any limit (`limits_bind_those_who_obey`).
-/

namespace FragmentHost

namespace Forest

/-- Everyone below `p` in `g` obeys limits, apart from those that were closed in `f` before. -/
def ObeyedBelow (f g : Forest) (p : Nat) : Prop :=
  ∀ i b, g.get? i = some b → p ∈ b.above → (∀ a, f.get? i = some a → a.closed = false) →
    b.obeysLimits = true

instance (f g : Forest) (p : Nat) : Decidable (f.ObeyedBelow g p) :=
  decidable_of_iff
    (∀ i < g.nodes.length, ∀ b ∈ g.get? i, p ∈ b.above → (∀ a ∈ f.get? i, a.closed = false) →
      b.obeysLimits = true)
    ⟨fun h i b hb => h i (lt_length_of_get? hb) b hb, fun h i _ b hb => h i b hb⟩

/-- On the way to allocator `y` the request passes somebody who does not obey limits: an allocator below
`y`, or the child that is to be made. -/
def PassesFreely (f : Forest) (r : Request) (y : Nat) : Prop :=
  r.limited = false ∨
    ∃ x ∈ f.path r.start, ∃ b, f.get? x = some b ∧ y ∈ b.above ∧ b.obeysLimits = false

variable {f g : Forest} {p : Nat} {a : Allocator}

-- ---------------------------------------------------------------------------
-- Those above who refuse
-- ---------------------------------------------------------------------------

/-- An inquiry is subject to limits unless the request passed somebody who does not obey them. -/
theorem passesFreely_iff (hl : f.Linked) {r : Request} {q : Inquiry} (hq : q ∈ f.inquiriesOf r) :
    f.PassesFreely r q.allocator ↔ q.limited = false := by
  have hlimited := limited_iff hl (hl.climbs_path r.start) hq
  constructor
  · rintro hfree
    by_contra hsubject
    obtain ⟨hr, hall⟩ := hlimited.mp (by simpa using hsubject)
    rcases hfree with hr' | ⟨x, hx, b, hb, hxq, hobeys⟩
    · exact absurd (hr.symm.trans hr') (by simp)
    · exact absurd ((hall x hx b hb hxq).symm.trans hobeys) (by simp)
  · intro hnot
    by_contra hfree
    simp only [PassesFreely, not_or, not_exists, not_and, Bool.not_eq_false] at hfree
    exact absurd ((hlimited.mpr hfree).symm.trans hnot) (by simp)

-- ---------------------------------------------------------------------------
-- Those below who obey
-- ---------------------------------------------------------------------------

/-- A grant that was not subject to limits passed somebody who does not obey them: one that is below and
was not closed when the call was made. -/
theorem exists_free_below (hl : f.Linked) {c : AllocatorCall} {q : Inquiry} (hq : q ∈ f.grants c)
    (hfree : q.limited = false) :
    ∃ x b, (f.perform c).get? x = some b ∧ q.allocator ∈ b.above ∧ b.obeysLimits = false ∧
      ∀ a, f.get? x = some a → a.closed = false := by
  obtain ⟨r, g, hr, hgranted, hasked⟩ := mem_grants_iff.mp hq
  rcases (passesFreely_iff hl hasked).mpr hfree with hchild | ⟨x, hx, b, hb, hxq, hobeys⟩
  · -- the new child itself does not obey
    cases c with
    | child parent label initial max obeysLimits =>
      obtain rfl := Option.some.inj hr
      obtain ⟨child, hg⟩ := answer_child_eq_ok_iff.mp hgranted
      obtain ⟨hnew, -, hmade⟩ := made_of_newChild hl hg
      refine ⟨child, f.newborn parent label initial max obeysLimits, ?_,
        (mem_path_of_mem_inquiries (hl.climbs_path parent) hasked).1, hchild, ?_⟩
      · rw [perform, hg]
        exact hmade
      · simp [get?_eq_none_iff.mpr hnew.ge]
    | consume =>
      obtain rfl := Option.some.inj hr
      simp [Request.limited] at hchild
    | root | release | limit | close | drop => simp [requestOf?] at hr
  · -- an allocator on the way is below afterwards as it was before
    have hopen := open_of_passed hl (hl.climbs_path r.start) hasked hx hb hxq
    obtain ⟨b', hb', hbb'⟩ := (evolves_perform hl c).1.old x b hb
    obtain ⟨-, habove, -, -, hsame⟩ := hbb'.fixed
    refine ⟨x, b', hb', habove ▸ hxq, hsame.trans hobeys, fun a ha => ?_⟩
    rw [hb, Option.some.injEq] at ha
    exact ha ▸ hopen

/-- While everyone below obeys, a call that sets no limit leaves the limit of an allocator as it is, and
raises what is in use no further than to the limit. -/
theorem current_le_of_perform (hl : f.Linked) (hs : f.Sound) (ha : f.get? p = some a)
    (hlimit : 0 ≤ a.limit) {c : AllocatorCall} (hc : ∀ l, c ≠ .limit p l)
    (hbelow : f.ObeyedBelow (f.perform c) p) :
    ∃ b, (f.perform c).get? p = some b ∧ b.limit = a.limit ∧ b.current ≤ max a.limit a.current := by
  have hnonneg := (hs p a ha).current_nonneg
  obtain ⟨b, hb, limit, entries, dropped, hmarked, hsame⟩ := change_of_perform hl c ha
  refine ⟨_, hmarked, hsame.resolve_right (hc limit), ?_⟩
  show b.current ≤ max a.limit a.current
  cases hb with
  | none => exact le_max_right ..
  | grant q hq hj hok =>
    have hsubject : q.limited = true := by
      by_contra hfree
      obtain ⟨x, d, hd, hxq, hobeys, hopen⟩ := exists_free_below hl hq (by simpa using hfree)
      exact absurd ((hbelow x d hd (hj ▸ hxq) hopen).symm.trans hobeys) (by simp)
    have hwithin := Allocator.le_limit_of_refusal?_eq_none (hsubject ▸ hok) hlimit
    show a.usageAfter q.bytes ≤ max a.limit a.current
    omega
  | giveBack n hpos _ =>
    show a.usageWithout n ≤ max a.limit a.current
    unfold Allocator.usageWithout
    omega
  | shut _ _ =>
    show (0 : Int) ≤ max a.limit a.current
    omega

/-- The same of any number of calls. -/
theorem current_le_of_performAll (hl : f.Linked) (hs : f.Sound) (ha : f.get? p = some a)
    (hlimit : 0 ≤ a.limit) {calls : List AllocatorCall} (hc : ∀ l, .limit p l ∉ calls)
    (hbelow : f.ObeyedBelow (f.performAll calls) p) :
    (f.performAll calls).current p ≤ max a.limit a.current := by
  induction calls generalizing f a with
  | nil =>
    rw [performAll_nil, current_of_get? ha]
    exact le_max_right ..
  | cons c calls ih =>
    obtain ⟨hev, hl'⟩ := evolves_perform hl c
    have hev' := (evolves_performAll hl' calls).1
    have hbelowNow : f.ObeyedBelow (f.perform c) p := by
      intro i b hb hp hopen
      obtain ⟨d, hd, hbd⟩ := hev'.old i b hb
      obtain ⟨-, habove, -, -, hobeys⟩ := hbd.fixed
      exact hobeys ▸ hbelow i d hd (habove ▸ hp) hopen
    have hbelowLater : (f.perform c).ObeyedBelow (f.performAll (c :: calls)) p := by
      intro i d hd hp hopen
      refine hbelow i d hd hp fun b hb => ?_
      obtain ⟨b', hb', hbb'⟩ := hev.old i b hb
      exact hbb'.open_before (hopen b' hb')
    obtain ⟨b, hb, hsame, hle⟩ := current_le_of_perform hl hs ha hlimit
      (fun l hcl => hc l (hcl ▸ List.mem_cons_self ..)) hbelowNow
    have hrest := ih hl' (hs.evolves hev) hb (hsame ▸ hlimit)
      (fun l hcl => hc l (List.mem_cons_of_mem c hcl)) hbelowLater
    rw [performAll_cons]
    omega

-- ---------------------------------------------------------------------------
-- Any run
-- ---------------------------------------------------------------------------

/-- After any run: if everyone below `p` obeys limits, what is in use at `p` stays within a limit that is
set, or within what was in use when it was set, however the run goes on until the next limit is set there.
And every request that is refused, by a fault of its own or by an allocator on its way, is refused in the
same words as without limits if it passed somebody before who does not obey them. -/
theorem limits_bind_those_who_obey (calls : List AllocatorCall) :
    (∀ (p : Nat) (a : Allocator) (limit : Int) (later : List AllocatorCall),
      (performAll {} calls).get? p = some a → 0 ≤ limit → (∀ l, .limit p l ∉ later) →
      (performAll {} calls).ObeyedBelow (performAll {} (calls ++ .limit p limit :: later)) p →
      (performAll {} (calls ++ .limit p limit :: later)).current p ≤ max limit a.current) ∧
    ∀ (r : Request) (refusal : Failure), (performAll {} calls).answer r = .error refusal →
      (performAll {} calls).fault? r = some refusal ∨
        ∃ q ∈ (performAll {} calls).inquiriesOf r, ∃ b,
          (performAll {} calls).get? q.allocator = some b ∧
          b.refusal? q.bytes q.limited = some refusal ∧
          ((performAll {} calls).PassesFreely r q.allocator →
            b.refusal? q.bytes false = some refusal) := by
  have hl := linked_performAll calls
  have hs := sound_performAll calls
  constructor
  · intro p a limit later ha hlimit hlater hbelow
    rw [performAll_append, performAll_cons] at hbelow ⊢
    -- the limit is set on an allocator whose use stays as it is
    have hset : ((performAll {} calls).perform (.limit p limit)).get? p =
        some { a with limit := limit } := by
      rw [perform, setLimit, get?_modify_self, ha]
      rfl
    obtain ⟨hev, hl'⟩ := evolves_perform hl (.limit p limit)
    refine current_le_of_performAll hl' (hs.evolves hev) hset hlimit hlater ?_
    intro i b hb hp hopen
    refine hbelow i b hb hp fun d hd => ?_
    obtain ⟨d', hd', hdd'⟩ := hev.old i d hd
    exact hdd'.open_before (hopen d' hd')
  · intro r refusal h
    refine ((answer_eq_error_iff hl).mp h).imp id ?_
    rintro ⟨-, q, hq, hrefused⟩
    obtain ⟨b, hb, hwords⟩ := Option.bind_eq_some_iff.mp hrefused
    refine ⟨q, hq, b, hb, hwords, fun hfree => ?_⟩
    rw [(passesFreely_iff hl hq).mp hfree] at hwords
    exact hwords

/-- A fragment whose scan does not obey limits, and a sort below which everyone does who is still open. -/
def scanAndSort : List AllocatorCall :=
  [.root "query" 1000, .child 0 "fragment" 50 (-1) true, .child 1 "scan" 0 (-1) false, .limit 1 100,
    .child 0 "sort" 20 (-1) true, .child 3 "merge" 0 (-1) false, .close 4, .consume 3 120]

/-- The sort goes on with a spill once it has given bytes back. -/
def spilling : List AllocatorCall :=
  [.child 3 "spill" 10 (-1) true, .release 3 60, .child 3 "spill" 10 (-1) true, .consume 5 200,
    .consume 5 15]

/-- The refusal of the root, to which the scan came past the limit of its fragment. -/
def queryRefusal : Failure :=
  .outOfMemory "allocator query cannot grant 900 bytes: 170 in use, max reservation 1000"

theorem limits_bind_those_who_obey_scanAndSort :
    (∃ a, (performAll {} scanAndSort).get? 3 = some a ∧ (0 : Int) ≤ 80 ∧
      (∀ l, .limit 3 l ∉ spilling) ∧
      (performAll {} scanAndSort).ObeyedBelow (performAll {} (scanAndSort ++ .limit 3 80 :: spilling)) 3 ∧
      (performAll {} (scanAndSort ++ .limit 3 80 :: spilling)).current 3 ≤ max 80 a.current) ∧
    (performAll {} scanAndSort).answer (.bytes 2 950) = .error queryRefusal ∧
    ((performAll {} scanAndSort).fault? (.bytes 2 950) = some queryRefusal ∨
      ∃ q ∈ (performAll {} scanAndSort).inquiriesOf (.bytes 2 950), ∃ b,
        (performAll {} scanAndSort).get? q.allocator = some b ∧
        b.refusal? q.bytes q.limited = some queryRefusal ∧
        ((performAll {} scanAndSort).PassesFreely (.bytes 2 950) q.allocator →
          b.refusal? q.bytes false = some queryRefusal)) := by
  have hsort : ∃ a, (performAll {} scanAndSort).get? 3 = some a := ⟨_, rfl⟩
  have hlater : ∀ l, .limit 3 l ∉ spilling := by simp [spilling]
  have hbelow : (performAll {} scanAndSort).ObeyedBelow
      (performAll {} (scanAndSort ++ .limit 3 80 :: spilling)) 3 := by decide +kernel
  have hrefused : (performAll {} scanAndSort).answer (.bytes 2 950) = .error queryRefusal := by
    decide +kernel
  obtain ⟨hwithin, hfreely⟩ := limits_bind_those_who_obey scanAndSort
  obtain ⟨a, ha⟩ := hsort
  exact ⟨⟨a, ha, by decide, hlater, hbelow, hwithin 3 a 80 spilling ha (by decide) hlater hbelow⟩,
    hrefused, hfreely (.bytes 2 950) queryRefusal hrefused⟩

end Forest

end FragmentHost

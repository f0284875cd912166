import FragmentHost.Proofs.Memory.Inquiries

/-!
# Which requests are admitted

How far a request climbs, and what everyone on its way is asked for, is plain arithmetic on the figures as
they are before it: an allocator passes on what its use beyond the reservation grows by, and the chain of
the request ends where nothing is left to pass on. `Forest.chain` works this out without a look at who
would refuse.

The chain decides everything (`exact_admission`). The request is granted if and only if everyone in the
chain admits its part, it is then in use at everyone in the chain and at nobody else, and otherwise the
answer is the objection of the first one in the chain that does not admit its part. A new child is admitted
by the same rule, with its reservation as the bytes and with its own word on limits.
-/

namespace FragmentHost

namespace Allocator

-- ---------------------------------------------------------------------------
-- One allocator
-- ---------------------------------------------------------------------------

/-- What is in use with `bytes` more; it stops at the largest word. -/
def usageWith (a : Allocator) (bytes : Int) : Int := min Word.largest (a.current + bytes)

/-- What of `bytes` is passed on: the use beyond the reservation grows by it. -/
def passedOn (a : Allocator) (bytes : Int) : Int :=
  Max.max (a.usageWith bytes - a.initial) 0 - Max.max (a.current - a.initial) 0

/-- The allocator with `bytes` more in use. -/
def taking (a : Allocator) (bytes : Int) : Allocator :=
  { a with
    current := a.usageWith bytes
    peak := Max.max a.peak (a.usageWith bytes)
    allocated := Word.wrap (a.allocated + bytes) }

/-- The allocator has no objection to `bytes` more. -/
structure Admits (a : Allocator) (bytes : Int) (limited : Bool) : Prop where
  not_closed : a.closed = false
  within_max : 0 ≤ a.max → a.usageWith bytes ≤ a.max
  within_limit : limited = true → 0 ≤ a.limit → a.usageWith bytes ≤ a.limit

/-- The words in which the allocator objects to `bytes` more on account of a bound. -/
def objection (a : Allocator) (bytes : Int) (bound : String) (value : Int) : Failure :=
  .outOfMemory ("allocator " ++ a.label ++ " cannot grant " ++ toString bytes ++ " bytes: " ++
    toString a.current ++ " in use, " ++ bound ++ " " ++ toString value)

/-- The objection of the allocator to `bytes` more: that it is closed, else its ceiling, else its limit. -/
inductive Objects (a : Allocator) (bytes : Int) (limited : Bool) : Failure → Prop where
  | closed (hclosed : a.closed = true) : a.Objects bytes limited (.closed ("allocator " ++ a.label))
  | max (hopen : a.closed = false) (hmax : 0 ≤ a.max ∧ a.max < a.usageWith bytes) :
      a.Objects bytes limited (a.objection bytes "max reservation" a.max)
  | limit (hopen : a.closed = false) (hfits : 0 ≤ a.max → a.usageWith bytes ≤ a.max)
      (hlimited : limited = true) (hlimit : 0 ≤ a.limit ∧ a.limit < a.usageWith bytes) :
      a.Objects bytes limited (a.objection bytes "fragment limit" a.limit)

variable {a : Allocator} {bytes : Int} {limited : Bool}

theorem usageAfter_eq_usageWith (h : a.Sound) (hpos : 0 ≤ bytes) :
    a.usageAfter bytes = a.usageWith bytes :=
  usageAfter_eq h hpos

theorem demand_eq_passedOn (h : a.Sound) (hpos : 0 ≤ bytes) : a.demand bytes = a.passedOn bytes := by
  rw [demand, usageAfter_eq_usageWith h hpos]
  rfl

theorem grant_eq_taking (h : a.Sound) (hpos : 0 ≤ bytes) : a.grant bytes = a.taking bytes := by
  rw [grant, usageAfter_eq_usageWith h hpos]
  rfl

/-- There is an objection exactly where the bytes are not admitted. -/
theorem exists_objects_iff :
    (∃ refusal, a.Objects bytes limited refusal) ↔ ¬ a.Admits bytes limited := by
  constructor
  · rintro ⟨refusal, hobjects⟩ ⟨hopen, hmax, hlimit⟩
    cases hobjects with
    | closed hclosed => simp [hopen] at hclosed
    | max _ h => exact (hmax h.1).not_gt h.2
    | limit _ _ hlimited h => exact (hlimit hlimited h.1).not_gt h.2
  · intro hnot
    by_contra hnone
    have hopen : a.closed = false := by
      by_contra hclosed
      exact hnone ⟨_, .closed (by simpa using hclosed)⟩
    have hmax : 0 ≤ a.max → a.usageWith bytes ≤ a.max :=
      fun h => not_lt.mp fun hlt => hnone ⟨_, .max hopen ⟨h, hlt⟩⟩
    have hlimit : limited = true → 0 ≤ a.limit → a.usageWith bytes ≤ a.limit :=
      fun hlimited h => not_lt.mp fun hlt => hnone ⟨_, .limit hopen hmax hlimited ⟨h, hlt⟩⟩
    exact hnot ⟨hopen, hmax, hlimit⟩

/-- The refusal is the objection, in the same order of reasons. -/
theorem refusal?_eq_some_iff (h : a.Sound) (hpos : 0 ≤ bytes) {refusal : Failure} :
    a.refusal? bytes limited = some refusal ↔ a.Objects bytes limited refusal := by
  rw [refusal?, usageAfter_eq_usageWith h hpos]
  constructor
  · intro hsome
    split at hsome
    · next hclosed =>
      obtain rfl := Option.some.inj hsome
      exact .closed hclosed
    · next hopen =>
      have hopen : a.closed = false := by simpa using hopen
      split at hsome
      · next hmax =>
        obtain rfl := Option.some.inj hsome
        exact .max hopen hmax
      · next hmax =>
        split at hsome
        · next hlimit =>
          obtain rfl := Option.some.inj hsome
          exact .limit hopen (fun h => not_lt.mp fun hlt => hmax ⟨h, hlt⟩) hlimit.1 hlimit.2
        · simp at hsome
  · intro hobjects
    cases hobjects with
    | closed hclosed =>
      rw [if_pos hclosed]
      rfl
    | max hopen hmax =>
      rw [if_neg (by simp [hopen]), if_pos hmax]
      rfl
    | limit hopen hfits hlimited hlimit =>
      rw [if_neg (by simp [hopen]), if_neg fun ⟨h, hlt⟩ => (hfits h).not_gt hlt,
        if_pos ⟨hlimited, hlimit⟩]
      rfl

theorem refusal?_eq_none_iff (h : a.Sound) (hpos : 0 ≤ bytes) :
    a.refusal? bytes limited = none ↔ a.Admits bytes limited := by
  rw [← not_iff_not, ← exists_objects_iff]
  simp only [← refusal?_eq_some_iff h hpos, ← Option.ne_none_iff_exists', ne_eq]

end Allocator

namespace Forest

-- ---------------------------------------------------------------------------
-- The chain of a request
-- ---------------------------------------------------------------------------

/-- The chain of a request that starts at the first allocator of a path. Each one is asked for what the
one below passes on, until nothing is left, and limits apply as long as those below obey them. -/
def chain (f : Forest) : (path : List Nat) → (bytes : Int) → (limited : Bool) → List Inquiry
  | [], _, _ => []
  | i :: rest, bytes, limited =>
    if bytes = 0 then []
    else match f.get? i with
      | none => []
      | some a => ⟨i, bytes, limited⟩ :: chain f rest (a.passedOn bytes) (limited && a.obeysLimits)

/-- The chain of a request. -/
def chainOf (f : Forest) (r : Request) : List Inquiry :=
  f.chain (f.path r.start) r.amount r.limited

/-- The one who is asked admits its part. -/
def Admits (f : Forest) (q : Inquiry) : Prop :=
  ∃ a, f.get? q.allocator = some a ∧ a.Admits q.bytes q.limited

/-- The one who is asked objects. -/
def Objects (f : Forest) (q : Inquiry) (refusal : Failure) : Prop :=
  ∃ a, f.get? q.allocator = some a ∧ a.Objects q.bytes q.limited refusal

/-- Of those in a chain, the first that does not admit its part objects. -/
def FirstObjects (f : Forest) (qs : List Inquiry) (refusal : Failure) : Prop :=
  ∃ before q after, qs = before ++ q :: after ∧ (∀ p ∈ before, f.Admits p) ∧ f.Objects q refusal

/-- Everyone in a chain has its part in use, and nobody else changed. -/
structure Takes (f : Forest) (qs : List Inquiry) (g : Forest) : Prop where
  asked : ∀ q ∈ qs, ∀ a, f.get? q.allocator = some a → g.get? q.allocator = some (a.taking q.bytes)
  others : ∀ j, (∀ q ∈ qs, q.allocator ≠ j) → g.get? j = f.get? j

/-- The request is one that allocators are asked about: the first one is there, and for a child it is open
and the reservation is neither negative nor above the ceiling. -/
def Proper (f : Forest) : Request → Prop
  | .bytes i _ => ∃ a, f.get? i = some a
  | .child parent _ initial max _ =>
    0 ≤ initial ∧ (0 ≤ max → initial ≤ max) ∧ ∃ p, f.get? parent = some p ∧ p.closed = false

/-- What a request makes of forest `k`, in which its bytes are in use: nothing more, or the new child with
the record of it. -/
def completed (f : Forest) (r : Request) (k : Forest) : Forest :=
  match r with
  | .bytes _ _ => k
  | .child parent label initial max obeysLimits =>
    (k.add (f.newborn parent label initial max obeysLimits)).1.enter parent k.nodes.length

variable {f g : Forest} {i : Nat} {a : Allocator} {rest path : List Nat} {bytes : Int} {limited : Bool}

theorem chain_zero (f : Forest) (path : List Nat) (limited : Bool) : f.chain path 0 limited = [] := by
  cases path with
  | nil => rfl
  | cons i rest => rw [chain, if_pos rfl]

theorem chain_cons (hpos : 0 < bytes) (ha : f.get? i = some a) (rest : List Nat) (limited : Bool) :
    f.chain (i :: rest) bytes limited =
      ⟨i, bytes, limited⟩ :: f.chain rest (a.passedOn bytes) (limited && a.obeysLimits) := by
  rw [chain, if_neg (by omega), ha]

theorem mem_path_of_mem_chain {q : Inquiry} (hq : q ∈ f.chain path bytes limited) :
    q.allocator ∈ path := by
  induction path generalizing bytes limited with
  | nil => simp [chain] at hq
  | cons i rest ih =>
    rw [chain] at hq
    split at hq
    · simp at hq
    · split at hq
      · simp at hq
      · rcases List.mem_cons.mp hq with rfl | hq
        · exact List.mem_cons_self ..
        · exact List.mem_cons_of_mem i (ih hq)

theorem admits_cons_iff (ha : f.get? i = some a) (qs : List Inquiry) :
    (∀ q ∈ ⟨i, bytes, limited⟩ :: qs, f.Admits q) ↔
      a.Admits bytes limited ∧ ∀ q ∈ qs, f.Admits q := by
  rw [List.forall_mem_cons]
  simp [Admits, ha]

/-- The first to object is the first of all, or it comes later and the first one admits its part. -/
theorem firstObjects_cons_iff (ha : f.get? i = some a) (qs : List Inquiry) {refusal : Failure} :
    f.FirstObjects (⟨i, bytes, limited⟩ :: qs) refusal ↔
      a.Objects bytes limited refusal ∨ (a.Admits bytes limited ∧ f.FirstObjects qs refusal) := by
  constructor
  · rintro ⟨before, q, after, hsplit, hbefore, hq⟩
    cases before with
    | nil =>
      obtain ⟨rfl, -⟩ := List.cons.inj hsplit
      obtain ⟨b, hb, hobjects⟩ := hq
      obtain rfl := Option.some.inj (ha.symm.trans hb)
      exact Or.inl hobjects
    | cons p before =>
      obtain ⟨rfl, rfl⟩ := List.cons.inj hsplit
      obtain ⟨hfirst, hbefore⟩ := (admits_cons_iff ha before).mp hbefore
      exact Or.inr ⟨hfirst, before, q, after, rfl, hbefore, hq⟩
  · rintro (hobjects | ⟨hfirst, before, q, after, rfl, hbefore, hq⟩)
    · exact ⟨[], _, qs, rfl, by simp, a, ha, hobjects⟩
    · exact ⟨⟨i, bytes, limited⟩ :: before, q, after, rfl,
        (admits_cons_iff ha before).mpr ⟨hfirst, hbefore⟩, hq⟩

/-- Everyone in a chain is there. -/
theorem exists_get?_of_mem_chain {q : Inquiry} (hq : q ∈ f.chain path bytes limited) :
    ∃ a, f.get? q.allocator = some a := by
  induction path generalizing bytes limited with
  | nil => simp [chain] at hq
  | cons i rest ih =>
    rw [chain] at hq
    split at hq
    · simp at hq
    · split at hq
      · simp at hq
      · next a ha =>
        rcases List.mem_cons.mp hq with rfl | hq
        · exact ⟨a, ha⟩
        · exact ih hq

/-- Somebody is the first to object, unless all admit their parts. -/
theorem exists_firstObjects_iff {qs : List Inquiry} (hqs : ∀ q ∈ qs, ∃ a, f.get? q.allocator = some a) :
    (∃ refusal, f.FirstObjects qs refusal) ↔ ¬ ∀ q ∈ qs, f.Admits q := by
  induction qs with
  | nil => simp [FirstObjects]
  | cons q qs ih =>
    obtain ⟨⟨a, ha⟩, hqs⟩ := List.forall_mem_cons.mp hqs
    simp only [firstObjects_cons_iff ha, admits_cons_iff ha, exists_or, exists_and_left, ih hqs,
      Allocator.exists_objects_iff]
    rw [not_and_or]
    tauto

-- ---------------------------------------------------------------------------
-- The chain decides
-- ---------------------------------------------------------------------------

/-- A request is refused with the objection of the first in the chain that does not admit its part. -/
theorem charge_eq_error_iff_firstObjects (hs : f.Sound) {refusal : Failure} :
    ∀ {path : List Nat} {bytes : Int} (limited : Bool), f.Climbs path → 0 ≤ bytes →
      (f.charge path bytes limited = .error refusal ↔
        f.FirstObjects (f.chain path bytes limited) refusal) := by
  intro path
  induction path with
  | nil =>
    intro bytes limited _ _
    simp [charge, chain, FirstObjects]
  | cons i rest ih =>
    intro bytes limited hc hnonneg
    rcases hnonneg.eq_or_lt with rfl | hpos
    · rw [charge_of_nonpos f _ le_rfl, chain_zero]
      simp [FirstObjects]
    · obtain ⟨a, ha, -⟩ := hc.1
      have hsa := hs i a ha
      have hrest := ih (limited && a.obeysLimits) hc.2.2 (Allocator.demand_nonneg hsa hnonneg)
      rw [chain_cons hpos ha, firstObjects_cons_iff ha, ← Allocator.demand_eq_passedOn hsa hnonneg,
        ← hrest, ← Allocator.refusal?_eq_some_iff hsa hnonneg, ← Allocator.refusal?_eq_none_iff hsa hnonneg,
        charge, if_neg (by omega), ha]
      dsimp only
      cases a.refusal? bytes limited with
      | some found => simp
      | none =>
        -- nobody below objects any more once those above are asked
        cases f.charge rest (a.demand bytes) (limited && a.obeysLimits) <;> simp

/-- A request is granted if and only if everyone in its chain admits its part. -/
theorem exists_charge_iff_admits (hs : f.Sound) (limited : Bool) (hc : f.Climbs path)
    (hnonneg : 0 ≤ bytes) :
    (∃ g, f.charge path bytes limited = .ok g) ↔ ∀ q ∈ f.chain path bytes limited, f.Admits q := by
  have hthere : ∀ q ∈ f.chain path bytes limited, ∃ a, f.get? q.allocator = some a :=
    fun q hq => exists_get?_of_mem_chain hq
  have hfirst := exists_firstObjects_iff hthere
  simp only [← charge_eq_error_iff_firstObjects hs limited hc hnonneg] at hfirst
  rw [← not_iff_not, ← hfirst]
  cases f.charge path bytes limited <;> simp

/-- What a granted request leaves in use: its part at everyone in the chain, and nothing at others. -/
theorem takes_of_charge (hs : f.Sound) (hc : f.Climbs path) (hnonneg : 0 ≤ bytes)
    (hg : f.charge path bytes limited = .ok g) : f.Takes (f.chain path bytes limited) g := by
  refine charge_induction
    (motive := fun path bytes limited g => 0 ≤ bytes → f.Takes (f.chain path bytes limited) g)
    ?_ ?_ hc hg hnonneg
  · intro path bytes limited hidle hnonneg
    have hnone : f.chain path bytes limited = [] := by
      rcases hidle with hle | rfl
      · obtain rfl : bytes = 0 := by omega
        exact chain_zero f path limited
      · rfl
    rw [hnone]
    exact ⟨by simp, fun _ _ => rfl⟩
  · intro i rest bytes limited a g hpos hc ha _ hga _ _ ih hnonneg
    have hsa := hs i a ha
    have habove := ih (Allocator.demand_nonneg hsa hnonneg)
    rw [Allocator.demand_eq_passedOn hsa hnonneg] at habove
    rw [chain_cons hpos ha]
    constructor
    · intro q hq b hb
      rcases List.mem_cons.mp hq with rfl | hrest
      · obtain rfl := Option.some.inj (ha.symm.trans hb)
        rw [get?_modify_self, hga, Option.map_some, Allocator.grant_eq_taking hsa hnonneg]
      · -- the way up does not come back to `i`
        have hne : i ≠ q.allocator := fun h => hc.not_mem (h ▸ mem_path_of_mem_chain hrest)
        rw [get?_modify_of_ne g hne]
        exact habove.asked q hrest b hb
    · intro j hj
      obtain ⟨hij, hj⟩ := List.forall_mem_cons.mp hj
      rw [get?_modify_of_ne g hij]
      exact habove.others j hj

-- ---------------------------------------------------------------------------
-- Requests
-- ---------------------------------------------------------------------------

/-- A proper request is answered by those whom it asks, and completed where they grant it. -/
theorem answer_of_proper {r : Request} (hr : f.Proper r) :
    f.answer r = (f.charge (f.path r.start) r.amount r.limited).map (f.completed r) := by
  cases r with
  | bytes i bytes =>
    dsimp only [answer, consume, Request.start, Request.amount, Request.limited]
    cases f.charge (f.path i) bytes true <;> rfl
  | child parent label initial max obeysLimits =>
    obtain ⟨hinitial, hmax, p, hp, hopen⟩ := hr
    have hfault : reservationFault? label initial max = none := by
      rw [reservationFault?, if_neg (by omega), if_neg (by omega)]
    rw [answer, newChild, hfault, hp]
    dsimp only [Request.start, Request.amount, Request.limited]
    rw [if_neg (by simp [hopen]), path_of_get? hp]
    cases f.charge (parent :: p.above) initial obeysLimits with
    | error refusal => rfl
    | ok k =>
      simp only [Except.map, completed, newborn, path_of_get? hp]
      rfl

/-- The chain of a request decides about it. -/
structure DecidedByChain (f : Forest) (r : Request) : Prop where
  /-- The request is granted if and only if everyone in its chain admits its part. -/
  granted_iff : (∃ g, f.answer r = .ok g) ↔ ∀ q ∈ f.chainOf r, f.Admits q
  /-- Everyone in the chain then has that part in use and nobody else changed, up to a new child. -/
  granted : ∀ g, f.answer r = .ok g → ∃ k, f.Takes (f.chainOf r) k ∧ g = f.completed r k
  /-- Otherwise the answer is the objection of the first one that does not admit its part. -/
  refused_iff : ∀ refusal, f.answer r = .error refusal ↔ f.FirstObjects (f.chainOf r) refusal

theorem decidedByChain (hl : f.Linked) (hs : f.Sound) {r : Request} (hr : f.Proper r)
    (hpos : 0 < r.amount) : f.DecidedByChain r := by
  have hc := hl.climbs_path r.start
  have hanswer := answer_of_proper hr
  constructor
  case granted_iff =>
    rw [hanswer, chainOf, ← exists_charge_iff_admits hs r.limited hc hpos.le]
    cases f.charge (f.path r.start) r.amount r.limited <;> simp [Except.map]
  case granted =>
    intro g hg
    rw [hanswer] at hg
    cases hk : f.charge (f.path r.start) r.amount r.limited with
    | error refusal => simp [hk, Except.map] at hg
    | ok k =>
      rw [hk] at hg
      exact ⟨k, takes_of_charge hs hc hpos.le hk, (Except.ok.inj hg).symm⟩
  case refused_iff =>
    intro refusal
    rw [hanswer, chainOf, ← charge_eq_error_iff_firstObjects hs r.limited hc hpos.le]
    cases f.charge (f.path r.start) r.amount r.limited <;> simp [Except.map]

/-- After any run, the chain of a request decides about it, be it for bytes or for a child: by itself it
settles whether the request is granted, what then is in use where, and otherwise whose objection the answer
is. -/
theorem exact_admission (calls : List AllocatorCall) {r : Request}
    (hr : (performAll {} calls).Proper r) (hpos : 0 < r.amount) :
    (performAll {} calls).DecidedByChain r :=
  decidedByChain (linked_performAll calls) (sound_performAll calls) hr hpos

/-- A scan with a reservation below a fragment that does not obey limits, below a query with a limit that
is passed already. -/
def exemptFragment : List AllocatorCall :=
  [.root "query" 300, .limit 0 50, .child 0 "fragment" 100 (-1) false, .child 1 "scan" 20 (-1) true,
    .consume 2 30]

/-- The last of the three is asked for the part beyond the reservation of the fragment, and its limit does
not apply. -/
theorem exact_admission_exemptFragment :
    (performAll {} exemptFragment).chainOf (.bytes 2 200) =
        [⟨2, 200, true⟩, ⟨1, 200, true⟩, ⟨0, 130, false⟩] ∧
      (performAll {} exemptFragment).Proper (.bytes 2 200) ∧ 0 < (Request.bytes 2 200).amount ∧
      (performAll {} exemptFragment).DecidedByChain (.bytes 2 200) :=
  ⟨by decide +kernel, ⟨_, rfl⟩, by decide, exact_admission exemptFragment ⟨_, rfl⟩ (by decide)⟩

end Forest

end FragmentHost

import FragmentHost.Proofs.Memory.Atomicity
import FragmentHost.Proofs.Memory.Firewall
import FragmentHost.Proofs.Memory.Settlement

/-!
# What a call asks, and what it changes

A request for bytes asks one allocator after the other: an inquiry goes to each one on the way up, with the
bytes that are left to pay and with the word whether limits apply there. The list of inquiries ends with the
allocator that refuses, or with the one that has the rest in its reservation. Two things are read off it:

* the answer: a request is refused by the allocator that refuses the last inquiry, and by nobody else
  (`charge_eq_error_iff`); it is subject to limits as long as everyone passed on the way obeys them
  (`limited_iff`);
* the changes: where a request is granted, an allocator that was asked grants what it was asked for, once,
  and nobody else changes (`get?_charge`).

`change_of_perform` collects the changes for all calls. Whatever is called, an allocator stays as it is,
grants one inquiry, takes bytes back once, or is closed, and apart from that only its limit, its record of
children and the mark that nobody holds it are another one.
-/

namespace FragmentHost

/-- An allocator that does not refuse a request that is subject to limits keeps its limit. -/
theorem Allocator.le_limit_of_refusal?_eq_none {a : Allocator} {bytes : Int}
    (h : a.refusal? bytes true = none) (hlimit : 0 ≤ a.limit) : a.usageAfter bytes ≤ a.limit := by
  unfold refusal? at h
  split at h
  · simp at h
  · split at h
    · simp at h
    · split at h
      · simp at h
      · next hfit => exact not_lt.mp fun hlt => hfit ⟨rfl, hlimit, hlt⟩

namespace Forest

/-- What one allocator on the way of a request is asked for. -/
structure Inquiry where
  allocator : Nat
  bytes : Int
  /-- The limit of the allocator applies. -/
  limited : Bool
  deriving DecidableEq, Repr

/-- The inquiries of a request that climbs a path, in order, up to the allocator that refuses. -/
def inquiries (f : Forest) : (path : List Nat) → (bytes : Int) → (limited : Bool) → List Inquiry
  | [], _, _ => []
  | i :: rest, bytes, limited =>
    if bytes ≤ 0 then []
    else match f.get? i with
      | none => []
      | some a =>
        ⟨i, bytes, limited⟩ ::
          if (a.refusal? bytes limited).isSome then []
          else inquiries f rest (a.demand bytes) (limited && a.obeysLimits)

/-- The refusal of an inquiry by the allocator that it goes to. -/
def refusalOf (f : Forest) (q : Inquiry) : Option Failure :=
  (f.get? q.allocator).bind (·.refusal? q.bytes q.limited)

/-- The allocator to which a request goes first. -/
def Request.start : Request → Nat
  | .bytes i _ => i
  | .child parent _ _ _ _ => parent

/-- The bytes that a request asks for there. -/
def Request.amount : Request → Int
  | .bytes _ asked => asked
  | .child _ _ initial _ _ => initial

/-- Limits apply to a request, as long as those on its way obey them. -/
def Request.limited : Request → Bool
  | .bytes _ _ => true
  | .child _ _ _ _ obeysLimits => obeysLimits

/-- The inquiries that a request makes. -/
def inquiriesOf (f : Forest) (r : Request) : List Inquiry :=
  f.inquiries (f.path r.start) r.amount r.limited

/-- The refusal of a request for which nobody is asked: the numbers of a reservation do not fit, or the
parent is not there or closed. -/
def fault? (f : Forest) : Request → Option Failure
  | .bytes _ _ => none
  | .child parent label initial max _ =>
    match reservationFault? label initial max, f.get? parent with
    | some fault, _ => some fault
    | none, none => some (.closed "allocator")
    | none, some p => if p.closed then some (.closed p.title) else none

variable {f g : Forest} {i : Nat} {a : Allocator} {rest path : List Nat} {bytes : Int} {limited : Bool}
  {q : Inquiry}

theorem mem_inquiries_cons (hpos : 0 < bytes) (ha : f.get? i = some a) :
    q ∈ f.inquiries (i :: rest) bytes limited ↔
      q = ⟨i, bytes, limited⟩ ∨ (a.refusal? bytes limited = none ∧
        q ∈ f.inquiries rest (a.demand bytes) (limited && a.obeysLimits)) := by
  rw [inquiries, if_neg (by omega), ha]
  dsimp only
  rw [List.mem_cons]
  cases a.refusal? bytes limited <;> simp

theorem refusalOf_of_get? (ha : f.get? q.allocator = some a) :
    f.refusalOf q = a.refusal? q.bytes q.limited := by
  rw [refusalOf, ha, Option.bind_some]

/-- Nobody is asked for nothing. -/
theorem inquiries_of_nonpos (f : Forest) (path : List Nat) (h : bytes ≤ 0) (limited : Bool) :
    f.inquiries path bytes limited = [] := by
  cases path with
  | nil => rfl
  | cons i rest => rw [inquiries, if_pos h]

/-- Induction along the inquiries of a request: the first one, and those above it, which are made only if
the first allocator does not refuse. -/
theorem inquiries_induction {motive : List Nat → Int → Bool → Inquiry → Prop}
    (first : ∀ i rest bytes limited a, 0 < bytes → f.Climbs (i :: rest) → f.get? i = some a →
      a.above = rest → motive (i :: rest) bytes limited ⟨i, bytes, limited⟩)
    (later : ∀ i rest bytes limited a q, 0 < bytes → f.Climbs (i :: rest) → f.get? i = some a →
      a.above = rest → a.refusal? bytes limited = none →
      q ∈ f.inquiries rest (a.demand bytes) (limited && a.obeysLimits) →
      motive rest (a.demand bytes) (limited && a.obeysLimits) q → motive (i :: rest) bytes limited q) :
    ∀ {path : List Nat} {bytes : Int} {limited : Bool} {q : Inquiry}, f.Climbs path →
      q ∈ f.inquiries path bytes limited → motive path bytes limited q := by
  intro path
  induction path with
  | nil =>
    intro bytes limited q _ hq
    simp [inquiries] at hq
  | cons i rest ih =>
    intro bytes limited q hc hq
    by_cases hpos : 0 < bytes
    · obtain ⟨a, ha, habove⟩ := hc.1
      rcases (mem_inquiries_cons hpos ha).mp hq with rfl | ⟨hr, hq⟩
      · exact first i rest bytes limited a hpos hc ha habove
      · exact later i rest bytes limited a q hpos hc ha habove hr hq (ih hc.2.2 hq)
    · rw [inquiries_of_nonpos f _ (by omega)] at hq
      simp at hq

theorem mem_path_of_mem_inquiries (hc : f.Climbs path) (hq : q ∈ f.inquiries path bytes limited) :
    q.allocator ∈ path ∧ 0 < q.bytes := by
  refine inquiries_induction (motive := fun path _ _ q => q.allocator ∈ path ∧ 0 < q.bytes) ?_ ?_ hc hq
  · exact fun i rest bytes limited _ hpos _ _ _ => ⟨List.mem_cons_self .., hpos⟩
  · exact fun i rest _ _ _ _ _ _ _ _ _ _ ih => ⟨List.mem_cons_of_mem i ih.1, ih.2⟩

-- ---------------------------------------------------------------------------
-- The answer
-- ---------------------------------------------------------------------------

/-- A request is refused if and only if an inquiry is, and with the same words. -/
theorem charge_eq_error_iff (refusal : Failure) : ∀ {path : List Nat} (bytes : Int) (limited : Bool),
    f.Climbs path → (f.charge path bytes limited = .error refusal ↔
      ∃ q ∈ f.inquiries path bytes limited, f.refusalOf q = some refusal) := by
  intro path
  induction path with
  | nil => simp [charge, inquiries]
  | cons i rest ih =>
    intro bytes limited hc
    by_cases hpos : 0 < bytes
    · obtain ⟨a, ha, -⟩ := hc.1
      have hfirst : f.refusalOf ⟨i, bytes, limited⟩ = a.refusal? bytes limited := refusalOf_of_get? ha
      have hrest := ih (a.demand bytes) (limited && a.obeysLimits) hc.2.2
      simp only [mem_inquiries_cons hpos ha, or_and_right, exists_or, exists_eq_left, hfirst]
      rw [charge, if_neg (by omega), ha]
      dsimp only
      cases a.refusal? bytes limited with
      | some found => simp
      | none =>
        simp only [true_and, reduceCtorEq, false_or]
        rw [← hrest]
        -- a grant at this allocator refuses nothing
        cases f.charge rest (a.demand bytes) (limited && a.obeysLimits) with
        | error found => rfl
        | ok g => simp
    · rw [charge_of_nonpos f _ (by omega), inquiries_of_nonpos f _ (by omega)]
      simp

/-- A request is refused for a fault of its own, or by an allocator that is asked. -/
theorem answer_eq_error_iff (hl : f.Linked) {r : Request} {refusal : Failure} :
    f.answer r = .error refusal ↔ f.fault? r = some refusal ∨
      (f.fault? r = none ∧ ∃ q ∈ f.inquiriesOf r, f.refusalOf q = some refusal) := by
  cases r with
  | bytes i bytes =>
    have hcharge := charge_eq_error_iff refusal bytes true (hl.climbs_path i)
    simp only [fault?, reduceCtorEq, false_or, true_and]
    exact hcharge
  | child parent label initial max obeysLimits =>
    have hcharge := charge_eq_error_iff refusal initial obeysLimits (hl.climbs_path parent)
    rw [answer, newChild, fault?]
    cases reservationFault? label initial max with
    | some fault => simp [Except.map]
    | none =>
      cases hp : f.get? parent with
      | none => simp [Except.map]
      | some p =>
        dsimp only
        by_cases hclosed : p.closed = true
        · simp [hclosed, Except.map]
        · rw [path_of_get? hp] at hcharge
          rw [if_neg hclosed, if_neg hclosed, inquiriesOf, Request.start, path_of_get? hp,
            Request.amount, Request.limited, ← hcharge]
          cases f.charge (parent :: p.above) initial obeysLimits <;> simp [Except.map]

theorem answer_child_eq_ok_iff {parent : Nat} {label : String} {initial max : Int}
    {obeysLimits : Bool} : f.answer (.child parent label initial max obeysLimits) = .ok g ↔
      ∃ child, f.newChild parent label initial max obeysLimits = .ok (g, child) := by
  rw [answer]
  cases f.newChild parent label initial max obeysLimits with
  | error refusal => simp [Except.map]
  | ok made =>
    obtain ⟨k, child⟩ := made
    simp [Except.map]

/-- Limits apply to an inquiry if they apply to the request and everyone passed before obeys them. -/
theorem limited_iff (hl : f.Linked) (hc : f.Climbs path) (hq : q ∈ f.inquiries path bytes limited) :
    q.limited = true ↔ limited = true ∧
      ∀ x ∈ path, ∀ b, f.get? x = some b → q.allocator ∈ b.above → b.obeysLimits = true := by
  refine inquiries_induction (motive := fun path _ limited q => q.limited = true ↔ limited = true ∧
    ∀ x ∈ path, ∀ b, f.get? x = some b → q.allocator ∈ b.above → b.obeysLimits = true) ?_ ?_ hc hq
  · intro i rest bytes limited a _ hc ha _
    -- the first allocator is above nobody on its own path
    refine ⟨fun h => ⟨h, fun x hx b hb hi => ?_⟩, fun h => h.1⟩
    have hlt : i < x := (hl x b hb).2.1 i hi
    exact absurd hx (hc.not_mem_of_lt hlt)
  · intro i rest bytes limited a q _ hc ha habove _ hq ih
    have hmem : q.allocator ∈ a.above := habove ▸ (mem_path_of_mem_inquiries hc.2.2 hq).1
    rw [ih, Bool.and_eq_true]
    constructor
    · rintro ⟨⟨hlimited, hobeys⟩, hrest⟩
      refine ⟨hlimited, fun x hx b hb hxq => ?_⟩
      rcases List.mem_cons.mp hx with rfl | hx
      · rw [ha, Option.some.injEq] at hb
        exact hb ▸ hobeys
      · exact hrest x hx b hb hxq
    · rintro ⟨hlimited, hall⟩
      exact ⟨⟨hlimited, hall i (List.mem_cons_self ..) a ha hmem⟩,
        fun x hx => hall x (List.mem_cons_of_mem i hx)⟩

/-- An allocator that was passed on the way to an inquiry is open. -/
theorem open_of_passed (hl : f.Linked) (hc : f.Climbs path) (hq : q ∈ f.inquiries path bytes limited)
    {x : Nat} (hx : x ∈ path) {b : Allocator} (hb : f.get? x = some b) (hxq : q.allocator ∈ b.above) :
    b.closed = false := by
  refine inquiries_induction (motive := fun path _ _ q => ∀ x ∈ path, ∀ b, f.get? x = some b →
    q.allocator ∈ b.above → b.closed = false) ?_ ?_ hc hq x hx b hb hxq
  · intro i rest bytes limited a _ hc _ _ x hx b hb hi
    have hlt : i < x := (hl x b hb).2.1 i hi
    exact absurd hx (hc.not_mem_of_lt hlt)
  · intro i rest bytes limited a q _ _ ha _ hr _ ih x hx b hb hxq
    rcases List.mem_cons.mp hx with rfl | hx
    · rw [ha, Option.some.injEq] at hb
      exact hb ▸ (Allocator.of_refusal?_eq_none hr).1
    · exact ih x hx b hb hxq

-- ---------------------------------------------------------------------------
-- The changes that climb
-- ---------------------------------------------------------------------------

/-- A granted request leaves an allocator as it is, or the allocator did not refuse what it was asked for
and granted it. -/
theorem get?_charge (hc : f.Climbs path) (h : f.charge path bytes limited = .ok g) {j : Nat}
    (ha : f.get? j = some a) :
    g.get? j = some a ∨ ∃ q ∈ f.inquiries path bytes limited, q.allocator = j ∧
      a.refusal? q.bytes q.limited = none ∧ g.get? j = some (a.grant q.bytes) := by
  refine charge_induction (motive := fun path bytes limited g => g.get? j = some a ∨
    ∃ q ∈ f.inquiries path bytes limited, q.allocator = j ∧
      a.refusal? q.bytes q.limited = none ∧ g.get? j = some (a.grant q.bytes)) ?_ ?_ hc h
  · exact fun _ _ _ _ => Or.inl ha
  · intro i rest bytes limited b g hpos _ hb _ hgb hr _ ih
    have hmem (q : Inquiry) : q ∈ f.inquiries (i :: rest) bytes limited ↔
        q = ⟨i, bytes, limited⟩ ∨ (b.refusal? bytes limited = none ∧
          q ∈ f.inquiries rest (b.demand bytes) (limited && b.obeysLimits)) := mem_inquiries_cons hpos hb
    by_cases hij : i = j
    · subst hij
      obtain rfl : b = a := Option.some.inj (hb.symm.trans ha)
      exact Or.inr ⟨⟨i, bytes, limited⟩, (hmem _).mpr (Or.inl rfl), rfl, hr, by simp [hgb]⟩
    · rw [get?_modify_of_ne g hij]
      rcases ih with hsame | ⟨q, hq, hgrant⟩
      · exact Or.inl hsame
      · exact Or.inr ⟨q, (hmem q).mpr (Or.inr ⟨hr, hq⟩), hgrant⟩

/-- An inquiry that the allocator can only grant by an addition that stops. -/
theorem mem_saturating_of_inquiry (hc : f.Climbs path) (hq : q ∈ f.inquiries path bytes limited)
    (ha : f.get? q.allocator = some a) (hlarge : Word.largest < a.current + q.bytes) :
    q.allocator ∈ f.saturating path bytes := by
  refine inquiries_induction (motive := fun path bytes _ q => ∀ a, f.get? q.allocator = some a →
    Word.largest < a.current + q.bytes → q.allocator ∈ f.saturating path bytes) ?_ ?_ hc hq a ha hlarge
  · intro i rest bytes limited b hpos _ hb _ a ha hlarge
    exact (mem_saturating_cons hpos ha i).mpr (Or.inl ⟨rfl, hlarge⟩)
  · intro i rest bytes limited b q hpos _ hb _ _ _ ih a ha hlarge
    exact (mem_saturating_cons hpos hb _).mpr (Or.inr (ih a ha hlarge))

/-- A return leaves an allocator as it is, or the allocator was open and took bytes back once. -/
theorem get?_discharge (f : Forest) (path : List Nat) (bytes : Int) (hc : f.Climbs path) {j : Nat}
    (ha : f.get? j = some a) :
    (f.discharge path bytes).get? j = some a ∨ ∃ n, 0 < n ∧ a.closed = false ∧
      (f.discharge path bytes).get? j = some (a.giveBack n) := by
  refine discharge_induction (motive := fun f path _ g => f.Climbs path → f.get? j = some a →
    g.get? j = some a ∨ ∃ n, 0 < n ∧ a.closed = false ∧ g.get? j = some (a.giveBack n)) ?_ ?_
    path f bytes hc ha
  · exact fun _ _ _ _ _ ha => Or.inl ha
  · intro f i rest bytes b hpos hb hopen ih hc ha
    have hev : f.Evolves (f.modify i (·.giveBack bytes)) :=
      evolves_modify_of_get? hb (.giveBack hpos hopen)
    by_cases hij : i = j
    · subst hij
      obtain rfl : b = a := Option.some.inj (hb.symm.trans ha)
      refine Or.inr ⟨bytes, hpos, hopen, ?_⟩
      rw [get?_discharge_of_not_mem _ _ hc.not_mem]
      simp [ha]
    · exact ih (Climbs.evolves hev hc.2.2) (by rw [get?_modify_of_ne f hij, ha])

-- ---------------------------------------------------------------------------
-- What a call changes
-- ---------------------------------------------------------------------------

/-- The request that a call makes, if it makes one. -/
def requestOf? : AllocatorCall → Option Request
  | .consume i bytes => some (.bytes i bytes)
  | .child parent label initial max obeysLimits => some (.child parent label initial max obeysLimits)
  | .root _ _ | .release _ _ | .limit _ _ | .close _ | .drop _ => none

/-- The inquiries that are granted when a call is carried out. A refused call is granted nothing. -/
def grants (f : Forest) (c : AllocatorCall) : List Inquiry :=
  match requestOf? c with
  | none => []
  | some r =>
    match f.answer r with
    | .ok _ => f.inquiriesOf r
    | .error _ => []

theorem mem_grants_iff {c : AllocatorCall} :
    q ∈ f.grants c ↔ ∃ r g, requestOf? c = some r ∧ f.answer r = .ok g ∧ q ∈ f.inquiriesOf r := by
  unfold grants
  cases requestOf? c with
  | none => simp
  | some r => cases hr : f.answer r <;> simp [hr]

theorem pos_of_grants (hl : f.Linked) {c : AllocatorCall} (hq : q ∈ f.grants c) : 0 < q.bytes := by
  obtain ⟨r, -, -, -, hr⟩ := mem_grants_iff.mp hq
  exact (mem_path_of_mem_inquiries (hl.climbs_path r.start) hr).2

/-- What a call changes of the figures of allocator `j`. -/
inductive Change (f : Forest) (c : AllocatorCall) (j : Nat) (a : Allocator) : Allocator → Prop where
  | none : f.Change c j a a
  | grant (q : Inquiry) (hq : q ∈ f.grants c) (hj : q.allocator = j)
      (hok : a.refusal? q.bytes q.limited = none) : f.Change c j a (a.grant q.bytes)
  | giveBack (bytes : Int) (hpos : 0 < bytes) (hopen : a.closed = false) :
      f.Change c j a (a.giveBack bytes)
  | shut (hcall : c = .close j ∨ c = .drop j) (hopen : a.closed = false) : f.Change c j a a.shut

/-- An allocator with another limit, another record of children and another mark. -/
def marked (a : Allocator) (limit : Int) (entries : List Nat) (dropped : Bool) : Allocator :=
  { a with limit := limit, entries := entries, dropped := dropped }

/-- What `c` makes of allocator `j`: a change of its figures, and then its marks. Its limit is another one
only if `c` sets it. -/
def Changes (f : Forest) (c : AllocatorCall) (j : Nat) (a : Allocator) : Prop :=
  ∃ b, f.Change c j a b ∧ ∃ limit entries dropped,
    (f.perform c).get? j = some (marked b limit entries dropped) ∧
      (limit = a.limit ∨ c = .limit j limit)

theorem Change.limit_eq {c : AllocatorCall} {j : Nat} {b : Allocator} (h : f.Change c j a b) :
    b.limit = a.limit := by
  cases h <;> rfl

/-- A change that leaves the marks alone. -/
theorem Change.changes {c : AllocatorCall} {j : Nat} {b : Allocator} (h : f.Change c j a b)
    (hb : (f.perform c).get? j = some b) : f.Changes c j a :=
  ⟨b, h, b.limit, b.entries, b.dropped, hb, Or.inl h.limit_eq⟩

theorem change_shut (hl : f.Linked) {c : AllocatorCall} {i j : Nat} (hc : c = .close i ∨ c = .drop i)
    (ha : f.get? j = some a) : ∃ b, f.Change c j a b ∧ (f.shut i).1.get? j = some b := by
  cases hx : f.get? i with
  | none => exact ⟨a, .none, by rw [shut_of_none hx, ha]⟩
  | some x =>
    by_cases hclosed : x.closed = true
    · exact ⟨a, .none, by rw [shut_of_closed hx hclosed, ha]⟩
    · have hopen : x.closed = false := by simpa using hclosed
      rw [shut_of_open hx hopen]
      dsimp only
      have hclimbs := hl i x hx
      by_cases hij : i = j
      · -- what goes back to those above does not come by the allocator itself
        subst hij
        obtain rfl : x = a := Option.some.inj (hx.symm.trans ha)
        refine ⟨x.shut, .shut hc hopen, ?_⟩
        rw [get?_discharge_of_not_mem _ _ hclimbs.not_mem]
        simp [ha]
      · have hev : f.Evolves (f.modify i (·.shut)) := evolves_modify_of_get? hx (.shut hopen)
        have ha' : (f.modify i (·.shut)).get? j = some a := by rw [get?_modify_of_ne f hij, ha]
        rcases get?_discharge _ x.above (x.covered x.current) (Climbs.evolves hev hclimbs.2.2) ha' with
          hsame | ⟨n, hpos, hopena, hback⟩
        · exact ⟨a, .none, hsame⟩
        · exact ⟨a.giveBack n, .giveBack n hpos hopena, hback⟩

/-- Whatever is called, an allocator stays as it is, grants one inquiry, takes bytes back once or is
closed, and then its marks are set. -/
theorem change_of_perform (hl : f.Linked) (c : AllocatorCall) {j : Nat} (ha : f.get? j = some a) :
    f.Changes c j a := by
  have hlt := lt_length_of_get? ha
  cases c with
  | root label max =>
    refine Change.none.changes ?_
    rw [perform, newRoot, get?_add, if_neg (by omega), ha]
  | child parent label initial max obeysLimits =>
    cases hg : f.newChild parent label initial max obeysLimits with
    | error refusal =>
      refine Change.none.changes ?_
      rw [perform, hg]
      exact ha
    | ok made =>
      obtain ⟨g, child⟩ := made
      obtain ⟨-, -, f', hf', rfl, hmade⟩ := newChild_ok hg
      have hclimbs := hl.climbs_path parent
      have hlen := length_charge hclimbs hf'
      -- the charge, and then the record of the parent
      obtain ⟨b, hb, hf'b⟩ : ∃ b, f.Change (.child parent label initial max obeysLimits) j a b ∧
          f'.get? j = some b := by
        rcases get?_charge hclimbs hf' ha with hsame | ⟨q, hq, hj, hok, hgrant⟩
        · exact ⟨a, .none, hsame⟩
        · have hmem : q ∈ f.grants (.child parent label initial max obeysLimits) :=
            mem_grants_iff.mpr ⟨_, g, rfl, answer_child_eq_ok_iff.mpr ⟨_, hg⟩, hq⟩
          exact ⟨a.grant q.bytes, .grant q hmem hj hok, hgrant⟩
      have hadded : (f'.add (f.newborn parent label initial max obeysLimits)).1.get? j = some b := by
        rw [get?_add, if_neg (by omega), hf'b]
      have hperform : f.perform (.child parent label initial max obeysLimits) = g := by
        rw [perform, hg]
      by_cases hparent : parent = j
      · subst hparent
        obtain ⟨entries, hentries⟩ : ∃ entries, g.get? parent =
            some (marked b b.limit entries b.dropped) := by
          rw [hmade, enter, get?_modify_self, hadded]
          exact ⟨_, rfl⟩
        exact ⟨b, hb, b.limit, entries, b.dropped, hperform ▸ hentries, Or.inl hb.limit_eq⟩
      · refine hb.changes ?_
        rw [hperform, hmade, enter, get?_modify_of_ne _ hparent, hadded]
  | consume i bytes =>
    cases hg : f.consume i bytes with
    | error refusal =>
      refine Change.none.changes ?_
      rw [perform, hg]
      exact ha
    | ok g =>
      have hperform : f.perform (.consume i bytes) = g := by rw [perform, hg]
      rcases get?_charge (hl.climbs_path i) hg ha with hsame | ⟨q, hq, hj, hok, hgrant⟩
      · exact Change.none.changes (hperform ▸ hsame)
      · have hmem : q ∈ f.grants (.consume i bytes) :=
          mem_grants_iff.mpr ⟨.bytes i bytes, g, rfl, hg, hq⟩
        exact (Change.grant q hmem hj hok).changes (hperform ▸ hgrant)
  | release i bytes =>
    rcases get?_discharge f (f.path i) bytes (hl.climbs_path i) ha with hsame | ⟨n, hpos, hopen, hback⟩
    · exact Change.none.changes hsame
    · exact (Change.giveBack n hpos hopen).changes hback
  | limit i limit =>
    by_cases hij : i = j
    · subst hij
      refine ⟨a, .none, limit, a.entries, a.dropped, ?_, Or.inr rfl⟩
      rw [perform, setLimit, get?_modify_self, ha]
      rfl
    · refine Change.none.changes ?_
      rw [perform, setLimit, get?_modify_of_ne f hij, ha]
  | close i =>
    obtain ⟨b, hb, hshut⟩ := change_shut hl (c := .close i) (Or.inl rfl) ha
    refine hb.changes ?_
    rw [perform, fst_close, hshut]
  | drop i =>
    obtain ⟨b, hb, hshut⟩ := change_shut hl (c := .drop i) (Or.inr rfl) ha
    by_cases hij : i = j
    · subst hij
      refine ⟨b, hb, b.limit, b.entries, true, ?_, Or.inl hb.limit_eq⟩
      rw [perform, fst_drop, get?_modify_self, hshut]
      rfl
    · refine hb.changes ?_
      rw [perform, fst_drop, get?_modify_of_ne _ hij, hshut]

/-- Induction along the life of allocator `j` in a run: the call that makes it, and then one change after
the other. -/
theorem life_induction {j : Nat} {motive : List AllocatorCall → Allocator → Prop}
    (made : ∀ calls c a, (performAll {} calls).get? j = none →
      (performAll {} (calls ++ [c])).get? j = some a → a.IsNew → motive (calls ++ [c]) a)
    (changed : ∀ calls c a b limit entries dropped, (performAll {} calls).get? j = some a →
      (performAll {} calls).Change c j a b →
      (performAll {} (calls ++ [c])).get? j = some (marked b limit entries dropped) →
      motive calls a → motive (calls ++ [c]) (marked b limit entries dropped)) :
    ∀ (calls : List AllocatorCall) (a : Allocator), (performAll {} calls).get? j = some a →
      motive calls a := by
  intro calls
  induction calls using List.reverseRecOn with
  | nil =>
    intro a ha
    simp [get?] at ha
  | append_singleton calls c ih =>
    intro b hb
    have hl := linked_performAll calls
    have hlast : performAll {} (calls ++ [c]) = (performAll {} calls).perform c := by
      rw [performAll_append]
      rfl
    cases ha : (performAll {} calls).get? j with
    | none =>
      refine made calls c b ha hb ?_
      rw [hlast] at hb
      rcases made_of_perform hl hb ha with
        ⟨label, max, -, rfl⟩ | ⟨parent, label, initial, max, obeysLimits, g, -, hg, rfl⟩
      · exact ⟨le_rfl, ⟨rfl, rfl, rfl, rfl⟩, ⟨rfl, rfl⟩, rfl, rfl⟩
      · exact isNew_newborn _ parent label max obeysLimits (newChild_ok hg).1
    | some a =>
      obtain ⟨b', hchange, limit, entries, dropped, hmarked, -⟩ := change_of_perform hl c ha
      rw [← hlast] at hmarked
      obtain rfl := Option.some.inj (hb.symm.trans hmarked)
      exact changed calls c a b' limit entries dropped ha hchange hmarked (ih a ha)

end Forest

end FragmentHost

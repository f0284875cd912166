import FragmentHost.Failure.Release

/-!
# One ordered log of failures

Deferred failures keep a primary failure, those that came after it and a flag, and each call on them
changes these in its own way. Seen from outside there is a single list, the failures accepted since the
last report in order of arrival (`FailureLog`): every call acts on that list and answers from it, and the
resources handed over on the way are released one by one, whatever became of the others
(`Aggregation.faithful_performAll`).

What carries this is that nothing is attached while there is no primary failure (`Deferred.Sound`). Were
it not so, a late failure would become the primary one of failures that arrived before it.
-/

namespace FragmentHost

namespace Deferred

variable {d e : Deferred}

-- ---------------------------------------------------------------------------
-- Single operations
-- ---------------------------------------------------------------------------

theorem sound_of_add {f : Failure} (h : d.add f = .ok e) : e.Sound := by
  unfold Deferred.add at h
  split at h
  · simp at h
  · split at h
    · obtain rfl := Except.ok.inj h
      exact fun hnone => by simp at hnone
    · next g hg =>
      obtain rfl := Except.ok.inj h
      intro hnone
      rw [show ({ d with later := d.later ++ [f] } : Deferred).first = d.first from rfl, hg] at hnone
      simp at hnone

theorem Sound.absorb (hd : d.Sound) (outcome : Option Failure) : (d.absorb outcome).1.Sound := by
  unfold Deferred.absorb
  cases outcome with
  | none => exact hd
  | some f =>
    dsimp only
    split
    · next e he => exact sound_of_add he
    · exact hd

theorem sound_cleared (d : Deferred) : d.cleared.Sound := fun _ => rfl

theorem sound_close (d : Deferred) : d.close.2.Sound := fun _ => rfl

theorem add_of_closed (h : d.closed = true) (f : Failure) : d.add f = .error (refusal f) := by
  rw [add, if_pos h]

theorem add_of_open (h : d.closed = false) (f : Failure) :
    ∃ e, d.add f = .ok e ∧ e.closed = false := by
  rw [add, if_neg (by simp [h])]
  cases d.first with
  | none => exact ⟨_, rfl, h⟩
  | some g => exact ⟨_, rfl, h⟩

theorem absorb_of_closed (h : d.closed = true) (outcome : Option Failure) :
    (d.absorb outcome).1 = d := by
  cases outcome with
  | none => rfl
  | some f => rw [absorb, add_of_closed h]

/-- While nothing was reported, the outcome of a release is recorded after what is there. -/
theorem toList_absorb (hs : d.Sound) (hopen : d.closed = false) (outcome : Option Failure) :
    (d.absorb outcome).1.toList = d.toList ++ outcome.toList ∧
      (d.absorb outcome).1.closed = false := by
  cases outcome with
  | none => exact ⟨(List.append_nil _).symm, hopen⟩
  | some f =>
    obtain ⟨e, hadd, hstill⟩ := add_of_open hopen f
    have habsorb : (d.absorb (some f)).1 = e := by rw [absorb, hadd]
    rw [habsorb]
    exact ⟨toList_add hs hadd, hstill⟩

end Deferred

namespace Failure

/-- A failure with others attached comes apart again: into the failure and the others, unless there were
none and the failure was already one with others attached. -/
theorem parts_withSuppressed (f : Failure) (fs : List Failure)
    (h : fs ≠ [] ∨ ∀ g gs, f ≠ combined g gs) :
    (f.withSuppressed fs).primary = f ∧ (f.withSuppressed fs).suppressed = fs := by
  cases fs with
  | cons g gs => exact ⟨rfl, rfl⟩
  | nil =>
    have hplain : ∀ g gs, f ≠ combined g gs := h.resolve_left (fun hne => hne rfl)
    rw [withSuppressed_nil]
    cases f with
    | combined g gs => exact absurd rfl (hplain g gs)
    | _ => exact ⟨rfl, rfl⟩

end Failure

-- ---------------------------------------------------------------------------
-- Calls, and the log that they are meant to keep
-- ---------------------------------------------------------------------------

/-- A call on deferred failures, in the presence of a store `σ` with resources. -/
inductive DeferredCall (σ : Type) where
  | add (f : Failure)
  | release (resource : Option (Closeable σ))
  | peek
  | take
  | close

/-- A store and the failures of its teardown. -/
structure Aggregation (σ : Type) where
  store : σ
  failures : Deferred := {}

/-- The failures accepted since the last report, in order of arrival, and whether it was the final one. -/
structure FailureLog where
  accepted : List Failure := []
  closed : Bool := false

section

variable {σ : Type}

namespace DeferredCall

/-- The resource that the call hands over. -/
def resource? : DeferredCall σ → Option (Closeable σ)
  | release resource => resource
  | _ => none

/-- The failure that arrives with the call. -/
def arrival? (s : σ) : DeferredCall σ → Option Failure
  | add f => some f
  | release resource => resource.bind fun r => (r.close s).2
  | _ => none

end DeferredCall

/-- Releases resources one after the other. -/
def Closeable.closeAll (s : σ) (resources : List (Closeable σ)) : σ :=
  resources.foldl (fun s r => (r.close s).1) s

namespace Aggregation

/-- Carries out a call. The answer is the refusal of a failure, or a report. -/
def perform (a : Aggregation σ) : DeferredCall σ → Aggregation σ × Option Failure
  | .add f =>
    match a.failures.add f with
    | .ok failures => ({ a with failures }, none)
    | .error refusal => (a, some refusal)
  | .release resource =>
    let (store, failures, _) := a.failures.releasing a.store resource
    ({ store, failures }, none)
  | .peek => (a, a.failures.report?)
  | .take =>
    let (report, failures) := a.failures.take
    ({ a with failures }, report)
  | .close =>
    let (report, failures) := a.failures.close
    ({ a with failures }, report)

/-- Carries out calls one after the other. -/
def performAll (a : Aggregation σ) (calls : List (DeferredCall σ)) : Aggregation σ :=
  calls.foldl (fun a c => (a.perform c).1) a

@[simp] theorem performAll_cons (a : Aggregation σ) (c : DeferredCall σ)
    (calls : List (DeferredCall σ)) :
    a.performAll (c :: calls) = (a.perform c).1.performAll calls := rfl

end Aggregation

namespace FailureLog

/-- Appends what arrives, until the log is closed. -/
def record (l : FailureLog) (arrival : Option Failure) : FailureLog :=
  if l.closed then l else { l with accepted := l.accepted ++ arrival.toList }

/-- All accepted failures as one, the later ones attached to the first. -/
def report (l : FailureLog) : Option Failure :=
  match l.accepted with
  | [] => none
  | first :: later => some (first.withSuppressed later)

/-- The log after a call that was made when the store was `s`. -/
def after (l : FailureLog) (s : σ) : DeferredCall σ → FailureLog
  | .take => { l with accepted := [] }
  | .close => { accepted := [], closed := true }
  | .peek => l
  | c => l.record (c.arrival? s)

/-- The answer to a call. -/
def answer (l : FailureLog) : DeferredCall σ → Option Failure
  | .add f => if l.closed then some (Deferred.refusal f) else none
  | .release _ => none
  | .peek | .take | .close => l.report

/-- The log after calls of which the first was made when the store was `s`. -/
def afterAll (l : FailureLog) (s : σ) : List (DeferredCall σ) → FailureLog
  | [] => l
  | c :: calls => (l.after s c).afterAll (Closeable.closeAll s c.resource?.toList) calls

/-- Once the log is closed, it is empty. -/
def Final (l : FailureLog) : Prop := l.closed = true → l.accepted = []

theorem closed_after (l : FailureLog) (s : σ) (c : DeferredCall σ) :
    (l.after s c).closed = true ↔ l.closed = true ∨ c = .close := by
  have hrecord (arrival : Option Failure) : (l.record arrival).closed = l.closed := by
    unfold record
    split <;> rfl
  cases c <;> simp [after, hrecord]

theorem closed_afterAll (l : FailureLog) (s : σ) (calls : List (DeferredCall σ)) :
    (l.afterAll s calls).closed = true ↔ l.closed = true ∨ .close ∈ calls := by
  induction calls generalizing l s with
  | nil => simp [afterAll]
  | cons c calls ih =>
    rw [afterAll, ih, closed_after, List.mem_cons, or_assoc, eq_comm (a := c)]

theorem Final.after {l : FailureLog} (h : l.Final) (s : σ) (c : DeferredCall σ) :
    (l.after s c).Final := by
  have hrecord (arrival : Option Failure) : (l.record arrival).Final := by
    unfold record
    split
    · exact h
    · next hopen => exact fun hclosed => absurd hclosed hopen
  cases c with
  | add f => exact hrecord _
  | release resource => exact hrecord _
  | peek => exact h
  | take => exact fun _ => rfl
  | close => exact fun _ => rfl

theorem Final.afterAll {l : FailureLog} (h : l.Final) (s : σ) (calls : List (DeferredCall σ)) :
    (l.afterAll s calls).Final := by
  induction calls generalizing l s with
  | nil => exact h
  | cons c calls ih => exact ih (h.after s c) _

/-- The report gives back the failures, unless there is a single one that others are attached to. -/
theorem parts_report {l : FailureLog} {f : Failure} (hf : l.report = some f)
    (h : 2 ≤ l.accepted.length ∨ ∀ g gs, l.accepted.head? ≠ some (.combined g gs)) :
    f.primary :: f.suppressed = l.accepted := by
  unfold report at hf
  split at hf
  · simp at hf
  · next first later hl =>
    obtain rfl := Option.some.inj hf
    have hparts : later ≠ [] ∨ ∀ g gs, first ≠ .combined g gs := by
      rcases h with hmany | hplain
      · left
        rintro rfl
        simp [hl] at hmany
      · right
        intro g gs hfirst
        exact hplain g gs (by rw [hl, hfirst]; rfl)
    obtain ⟨hprimary, hsuppressed⟩ := first.parts_withSuppressed later hparts
    rw [hprimary, hsuppressed, hl]

end FailureLog

-- ---------------------------------------------------------------------------
-- Deferred failures keep the log
-- ---------------------------------------------------------------------------

namespace Deferred

/-- The deferred failures `d` keep the log `l`. -/
structure Keeps (d : Deferred) (l : FailureLog) : Prop where
  sound : d.Sound
  accepted_eq : d.toList = l.accepted
  closed_eq : d.closed = l.closed

variable {d : Deferred} {l : FailureLog}

theorem Keeps.report?_eq (h : d.Keeps l) : d.report? = l.report := by
  rw [Deferred.report?_eq, h.accepted_eq]
  rfl

/-- What arrives is lost if the log is closed and comes last if it is open. -/
theorem Keeps.absorb (h : d.Keeps l) (arrival : Option Failure) :
    (d.absorb arrival).1.Keeps (l.record arrival) := by
  cases hclosed : d.closed with
  | true =>
    have hrecord : l.record arrival = l := if_pos (h.closed_eq ▸ hclosed)
    rw [absorb_of_closed hclosed, hrecord]
    exact h
  | false =>
    have hopen : l.closed = false := h.closed_eq ▸ hclosed
    have hrecord : l.record arrival = { l with accepted := l.accepted ++ arrival.toList } :=
      if_neg (by simp [hopen])
    obtain ⟨hlist, hstill⟩ := toList_absorb h.sound hclosed arrival
    rw [hrecord]
    exact ⟨h.sound.absorb arrival, by rw [hlist, h.accepted_eq], by rw [hstill, hopen]⟩

theorem Keeps.cleared (h : d.Keeps l) : d.cleared.Keeps { l with accepted := [] } :=
  ⟨d.sound_cleared, rfl, h.closed_eq⟩

theorem keeps_close (d : Deferred) : d.close.2.Keeps { accepted := [], closed := true } :=
  ⟨d.sound_close, rfl, rfl⟩

end Deferred

namespace Aggregation

variable {l : FailureLog}

/-- One call: the resource is released, the log is kept and the answer is that of the log. -/
theorem keeps_perform (a : Aggregation σ) (h : a.failures.Keeps l) (c : DeferredCall σ) :
    (a.perform c).1.store = Closeable.closeAll a.store c.resource?.toList ∧
      (a.perform c).1.failures.Keeps (l.after a.store c) ∧ (a.perform c).2 = l.answer c := by
  cases c with
  | add f =>
    have habsorb := h.absorb (some f)
    cases hclosed : a.failures.closed with
    | true =>
      have hadd := Deferred.add_of_closed hclosed f
      rw [Deferred.absorb, hadd] at habsorb
      have hanswer : l.answer (.add f : DeferredCall σ) = some (Deferred.refusal f) :=
        if_pos (h.closed_eq ▸ hclosed)
      rw [perform, hadd, hanswer]
      exact ⟨rfl, habsorb, rfl⟩
    | false =>
      obtain ⟨e, hadd, -⟩ := Deferred.add_of_open hclosed f
      rw [Deferred.absorb, hadd] at habsorb
      have hanswer : l.answer (.add f : DeferredCall σ) = none :=
        if_neg (by simp [← h.closed_eq, hclosed])
      rw [perform, hadd, hanswer]
      exact ⟨rfl, habsorb, rfl⟩
  | release resource =>
    cases resource with
    | none =>
      exact ⟨rfl, h.absorb none, rfl⟩
    | some r => exact ⟨rfl, h.absorb (r.close a.store).2, rfl⟩
  | peek => exact ⟨rfl, h, h.report?_eq⟩
  | take => exact ⟨rfl, h.cleared, h.report?_eq⟩
  | close => exact ⟨rfl, a.failures.keeps_close, h.report?_eq⟩

/-- Any calls, by induction with `keeps_perform`. -/
theorem keeps_performAll (calls : List (DeferredCall σ)) {a : Aggregation σ}
    (h : a.failures.Keeps l) :
    (a.performAll calls).store = Closeable.closeAll a.store (calls.filterMap (·.resource?)) ∧
      (a.performAll calls).failures.Keeps (l.afterAll a.store calls) := by
  induction calls generalizing a l with
  | nil => exact ⟨rfl, h⟩
  | cons c calls ih =>
    obtain ⟨hstore, hkeeps, -⟩ := a.keeps_perform h c
    obtain ⟨hstores, hkept⟩ := ih hkeeps
    rw [hstore] at hstores hkept
    refine ⟨?_, hkept⟩
    rw [performAll_cons, hstores, List.filterMap_cons]
    cases c.resource? <;> rfl

/-- Calls on new deferred failures beside the store `s` lead to `a`, and the log that they should have
kept is `l`. -/
structure Faithful (s : σ) (calls : List (DeferredCall σ)) (a : Aggregation σ) (l : FailureLog) :
    Prop where
  /-- Each resource handed over was released once, in order, and nothing else was done to the store. -/
  store_eq : a.store = Closeable.closeAll s (calls.filterMap (·.resource?))
  accepted_eq : a.failures.toList = l.accepted
  closed_eq : a.failures.closed = l.closed
  /-- Whatever is called next, its answer can be told from the log. -/
  answer_eq : ∀ c, (a.perform c).2 = l.answer c
  closed_iff : l.closed = true ↔ .close ∈ calls
  empty_of_closed : l.closed = true → l.accepted = []
  /-- A report comes apart into the failures of the log. -/
  parts_eq : ∀ f, l.report = some f →
    (2 ≤ l.accepted.length ∨ ∀ g gs, l.accepted.head? ≠ some (.combined g gs)) →
    f.primary :: f.suppressed = l.accepted

/-- **Deferred failures are one ordered log.** Nothing that is accepted is lost, said twice or moved
before its time, and no failure keeps a resource from being released. -/
theorem faithful_performAll (s : σ) (calls : List (DeferredCall σ)) :
    Faithful s calls (performAll { store := s } calls) (FailureLog.afterAll {} s calls) := by
  have hnew : ({} : Deferred).Keeps {} := ⟨Deferred.sound_empty, rfl, rfl⟩
  obtain ⟨hstore, hkeeps⟩ := keeps_performAll calls (a := { store := s }) hnew
  have hfinal : (FailureLog.afterAll {} s calls).Final :=
    FailureLog.Final.afterAll (l := {}) (fun h => absurd h (by decide)) s calls
  constructor
  case store_eq => exact hstore
  case accepted_eq => exact hkeeps.accepted_eq
  case closed_eq => exact hkeeps.closed_eq
  case answer_eq => exact fun c => ((performAll { store := s } calls).keeps_perform hkeeps c).2.2
  case closed_iff => simp [FailureLog.closed_afterAll]
  case empty_of_closed => exact hfinal
  case parts_eq => exact fun f hf h => FailureLog.parts_report hf h

end Aggregation

end

end FragmentHost

import FragmentHost.Proofs.Failure.Aggregation

/-!
# How a report is classified

A failure counts as out of memory if its primary failure is a refused request for memory. The primary
failure is found by unwrapping one level, and attaching wraps one level more: a refused request that carries
others already is no longer found once further failures are attached to it. This is the only way in which a
classification gets lost (`isOutOfMemory_withSuppressed_iff`); none is ever gained, and the innermost failure
stays the same (`origin_withSuppressed`). What deferred failures report is classified accordingly, after any
calls (`Aggregation.reports_classified`).
-/

namespace FragmentHost

namespace Failure

/-- The failure at which everything started: what is left when every level is unwrapped. -/
def origin : Failure → Failure
  | combined first _ => first.origin
  | f => f

/-- A refused request for memory that carries other failures. -/
def IsCombinedShortage (f : Failure) : Prop := ∃ text later, f = combined (outOfMemory text) later

/-- How `report`, made of `first` with `later` attached, is classified. -/
structure ClassifiedBy (report first : Failure) (later : List Failure) : Prop where
  isOutOfMemory_iff : report.isOutOfMemory = true ↔
    first.isOutOfMemory = true ∧ (later = [] ∨ ¬first.IsCombinedShortage)
  /-- The classification is that of the first failure, but for one case. -/
  isOutOfMemory_eq_iff : report.isOutOfMemory = first.isOutOfMemory ↔
    later = [] ∨ ¬first.IsCombinedShortage
  origin_eq : report.origin = first.origin

theorem origin_withSuppressed (f : Failure) (fs : List Failure) :
    (f.withSuppressed fs).origin = f.origin := by
  cases fs with
  | nil => rfl
  | cons g gs => rw [withSuppressed_cons, origin]

/-- A combined failure is out of memory exactly if the failure one level below is a refused request. -/
theorem isOutOfMemory_combined_iff (f : Failure) (fs : List Failure) :
    (combined f fs).isOutOfMemory = true ↔ ∃ text, f = outOfMemory text := by
  cases f <;> simp [isOutOfMemory, primary]

/-- A failure that is out of memory is a refused request, by itself or with others attached. -/
theorem isOutOfMemory_iff (f : Failure) :
    f.isOutOfMemory = true ↔ (∃ text, f = outOfMemory text) ∨ f.IsCombinedShortage := by
  cases f with
  | combined g gs => simp [isOutOfMemory_combined_iff, IsCombinedShortage]
  | _ => simp [isOutOfMemory, primary, IsCombinedShortage]

/-- Attaching failures loses a classification exactly if others were attached before. -/
theorem isOutOfMemory_withSuppressed_iff (f : Failure) (fs : List Failure) :
    (f.withSuppressed fs).isOutOfMemory = true ↔
      f.isOutOfMemory = true ∧ (fs = [] ∨ ¬f.IsCombinedShortage) := by
  cases fs with
  | nil => simp
  | cons g gs =>
    have hplain (text : String) : ¬(outOfMemory text).IsCombinedShortage := by
      simp [IsCombinedShortage]
    rw [withSuppressed_cons, isOutOfMemory_combined_iff, isOutOfMemory_iff f]
    constructor
    · rintro ⟨text, rfl⟩
      exact ⟨Or.inl ⟨text, rfl⟩, Or.inr (hplain text)⟩
    · rintro ⟨hf | hf, hkept⟩
      · exact hf
      · exact absurd hf (hkept.resolve_left (by simp))

theorem classifiedBy_withSuppressed (f : Failure) (fs : List Failure) :
    (f.withSuppressed fs).ClassifiedBy f fs := by
  have hiff := isOutOfMemory_withSuppressed_iff f fs
  refine ⟨hiff, ⟨fun heq => ?_, fun hkept => ?_⟩, origin_withSuppressed f fs⟩
  · by_cases hf : f.IsCombinedShortage
    · -- such a failure is out of memory, so the report is, and it has kept the classification
      have hmemory : f.isOutOfMemory = true := (isOutOfMemory_iff f).mpr (Or.inr hf)
      exact (hiff.mp (heq.trans hmemory)).2
    · exact Or.inr hf
  · exact Bool.eq_iff_iff.mpr (hiff.trans (and_iff_left hkept))

end Failure

namespace Aggregation

variable {σ : Type}

/-- **How reports are classified.** Attaching failures to a failure, and whatever was called on deferred
failures before they report: what is reported is out of memory if the first failure is, unless others are
attached to a refused request that carries others already. -/
theorem reports_classified :
    (∀ f fs, (Failure.withSuppressed f fs).ClassifiedBy f fs) ∧
      ∀ (s : σ) (calls : List (DeferredCall σ)), ∀ ask ∈ [DeferredCall.peek, .take, .close], ∀ report,
        ((performAll { store := s } calls).perform ask).2 = some report →
        ∃ first later, (FailureLog.afterAll {} s calls).accepted = first :: later ∧
          report.ClassifiedBy first later := by
  refine ⟨Failure.classifiedBy_withSuppressed, fun s calls ask hask report hreport => ?_⟩
  have hnew : ({} : Deferred).Keeps {} := ⟨Deferred.sound_empty, rfl, rfl⟩
  obtain ⟨-, hkeeps⟩ := keeps_performAll calls (a := { store := s }) hnew
  obtain ⟨-, -, hanswer⟩ := (performAll { store := s } calls).keeps_perform hkeeps ask
  have hlog : (FailureLog.afterAll {} s calls).report = some report := by
    rw [← hreport, hanswer]
    simp only [List.mem_cons, List.not_mem_nil, or_false] at hask
    rcases hask with rfl | rfl | rfl <;> rfl
  unfold FailureLog.report at hlog
  split at hlog
  · simp at hlog
  · next first later haccepted =>
    obtain rfl := Option.some.inj hlog
    exact ⟨first, later, haccepted, Failure.classifiedBy_withSuppressed first later⟩

/-- A refused request for memory with one failure attached, as a teardown reports it. -/
def crowdedShortage : Failure := .combined (.outOfMemory "scan") [.execution "join"]

/-- The refused request comes first, another failure follows, and both are reported as one. -/
theorem reports_classified_shortageFirst :
    let calls : List (DeferredCall Unit) := [.add (.outOfMemory "scan"), .add (.execution "join")]
    ((performAll { store := () } calls).perform .close).2 = some crowdedShortage ∧
      ∃ first later, (FailureLog.afterAll {} () calls).accepted = first :: later ∧
        crowdedShortage.ClassifiedBy first later :=
  ⟨rfl, reports_classified.2 () _ .close (by simp) _ rfl⟩

/-- Recorded in turn, that report is out of memory by itself, and is no longer found to be with one more
failure attached. -/
theorem shortage_lost_in_report :
    crowdedShortage.isOutOfMemory = true ∧
      (crowdedShortage.withSuppressed [.execution "sort"]).isOutOfMemory = false ∧
      ((performAll { store := () } [.add crowdedShortage, .add (.execution "sort")]).perform
        .close).2.map (·.isOutOfMemory) = some false := by
  decide

end Aggregation

end FragmentHost

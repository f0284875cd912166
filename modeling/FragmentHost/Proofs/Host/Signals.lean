import FragmentHost.Proofs.Host.Teardown
import Mathlib.Logic.Function.Basic

/-!
# What contexts are told

A context is made, told of failures, canceled and closed. The calls of a run that do so, each with the
number of the context, are the story of the run (`Host.story`); a request for the catalog that fails counts
as the failure that it is. What a context was told is all that its state and its failures depend on, in
whatever order it was told and whatever happened in between (`Tells.actAll`), and the two can be read off
without going through the order again:

* a context that was ever canceled is canceled, and one that was ever told of a failure has failed
  otherwise (`Signal.stateAfter`);
* until it is closed, its failures are exactly the causes that it was told, the first one as the primary
  failure; afterwards there are none (`Signal.failureAfter`).

That leaves out the calls that write the deferred failures of a context themselves.
-/

namespace FragmentHost

/-- What a context can be told. -/
inductive Signal where
  | opened (environment : Nat)
  | failed (cause : Failure)
  | canceled
  | closed
  deriving DecidableEq, Repr

/-- Signals with the numbers of the contexts that they were for, in order. -/
abbrev Story := List (Nat × Signal)

/-- The signals for context `n`. -/
def Story.heard (s : Story) (n : Nat) : List Signal := (s.filter (·.1 = n)).map (·.2)

namespace Signal

def cause? : Signal → Option Failure
  | failed cause => some cause
  | opened _ | canceled | closed => none

/-- The failures that a context was told, in order. -/
def causes (heard : List Signal) : List Failure := heard.filterMap cause?

theorem causes_concat (heard : List Signal) (s : Signal) :
    causes (heard ++ [s]) = causes heard ++ s.cause?.toList := by
  rw [causes, List.filterMap_append, causes]
  cases s <;> rfl

/-- The state of a context that heard these signals. -/
def stateAfter (heard : List Signal) : Lifecycle :=
  if canceled ∈ heard then .canceled else if causes heard = [] then .ok else .failed

/-- The failure of a context that heard these signals, if there is one. -/
def failureAfter (heard : List Signal) : Option Failure :=
  if closed ∈ heard then none
  else match causes heard with
    | [] => none
    | first :: later => some (first.withSuppressed later)

end Signal

/-- The part of a context that signals change, and where it was made. -/
structure Told where
  environment : Nat := 0
  state : Lifecycle := .ok
  deferred : Deferred := {}
  isClosed : Bool := false
  deriving DecidableEq, Repr

namespace Told

/-- What a signal does. A failure that comes after the report is lost. -/
def hear (t : Told) : Signal → Told
  | .opened environment => { t with environment := environment }
  | .failed cause =>
    { t with
      state := t.state.request .failed
      deferred := (t.deferred.absorb (some cause)).1 }
  | .canceled => { t with state := t.state.request .canceled }
  | .closed =>
    if t.isClosed then t
    else { t with deferred := { t.deferred.cleared with closed := true }, isClosed := true }

/-- What signals do, one after the other. -/
def after (heard : List Signal) : Told := heard.foldl hear {}

theorem after_concat (heard : List Signal) (s : Signal) :
    after (heard ++ [s]) = (after heard).hear s := by
  rw [after, List.foldl_concat, after]

-- ---------------------------------------------------------------------------
-- What signals come to
-- ---------------------------------------------------------------------------

theorem isClosed_after (heard : List Signal) :
    (after heard).isClosed = decide (Signal.closed ∈ heard) := by
  induction heard using List.reverseRecOn with
  | nil => rfl
  | append_singleton heard s ih =>
    rw [after_concat]
    cases s with
    | closed =>
      rw [hear]
      split
      · next hclosed => simp [hclosed]
      · simp
    | opened | failed | canceled => simpa [hear] using ih

theorem state_after (heard : List Signal) : (after heard).state = Signal.stateAfter heard := by
  induction heard using List.reverseRecOn with
  | nil => rfl
  | append_singleton heard s ih =>
    rw [after_concat]
    unfold Signal.stateAfter at ih ⊢
    rw [Signal.causes_concat]
    cases s with
    | closed =>
      rw [hear]
      split <;> simpa [Signal.cause?] using ih
    | opened environment => simpa [hear, Signal.cause?] using ih
    | failed cause =>
      -- a failure moves a running fragment only
      simp only [hear, ih]
      split
      · next hcanceled => simp [hcanceled, Lifecycle.request]
      · next hcanceled => split <;> simp [hcanceled, Signal.cause?, Lifecycle.request]
    | canceled =>
      simp only [hear, ih]
      split
      · simp [Lifecycle.request]
      · split <;> simp [Lifecycle.request]

/-- Until a context is closed its failures are those that it was told; then they are gone for good. -/
theorem deferred_after (heard : List Signal) :
    if Signal.closed ∈ heard then (after heard).deferred = { closed := true }
    else (after heard).deferred.closed = false ∧ (after heard).deferred.Sound ∧
      (after heard).deferred.toList = Signal.causes heard := by
  induction heard using List.reverseRecOn with
  | nil =>
    rw [if_neg (by simp)]
    exact ⟨rfl, Deferred.sound_empty, rfl⟩
  | append_singleton heard s ih =>
    have hclosed := isClosed_after heard
    rw [after_concat, Signal.causes_concat]
    cases s with
    | closed =>
      rw [if_pos (by simp), hear, hclosed]
      split
      · next hbefore => simpa [of_decide_eq_true hbefore] using ih
      · rfl
    | opened | canceled => simpa [hear, Signal.cause?] using ih
    | failed cause =>
      by_cases hbefore : Signal.closed ∈ heard
      · -- the report was made, so that the failure is refused
        rw [if_pos hbefore] at ih
        rw [if_pos (by simp [hbefore]), hear, ih]
        rfl
      · rw [if_neg hbefore] at ih
        obtain ⟨hopen, hsound, hlist⟩ := ih
        obtain ⟨hrecorded, hstill⟩ := Deferred.toList_absorb hsound hopen (some cause)
        rw [if_neg (by simp [hbefore]), hear]
        refine ⟨hstill, hsound.absorb (some cause), ?_⟩
        rw [hrecorded, hlist]
        rfl

theorem report?_after (heard : List Signal) :
    (after heard).deferred.report? = Signal.failureAfter heard := by
  have hdeferred := deferred_after heard
  unfold Signal.failureAfter
  split at hdeferred
  · next hclosed =>
    rw [if_pos hclosed, hdeferred]
    rfl
  · next hclosed =>
    have hreport := Deferred.report?_eq (after heard).deferred
    rw [hdeferred.2.2] at hreport
    rw [if_neg hclosed]
    refine hreport.trans ?_
    cases Signal.causes heard <;> rfl

end Told

/-- The part of the context that signals change. -/
def Context.told (c : Context) : Told := ⟨c.environment, c.state, c.deferred, c.isClosed⟩

namespace Host

-- ---------------------------------------------------------------------------
-- The story of a run
-- ---------------------------------------------------------------------------

/-- The failure with which a request of a context for the catalog ends, if it fails. -/
def schemaFailure? (h : Host) (c : Context) : Option Failure :=
  match c.session with
  | none => some Context.notRoot
  | some session =>
    match (h.environment? c.environment).bind fun e =>
        Service.askAt h.factories e.services.factory session with
    | some (.error f, _) => some f
    | _ => none

/-- What a call tells a context, if it does. -/
def notice? (h : Host) : HostCall → Option (Nat × Signal)
  | .openContext environment plan session registry =>
    (h.environment? environment).bind fun e =>
      (h.openContext environment e plan session registry).2.toOption.map fun n => (n, .opened environment)
  | .fail n cause => (h.context? n).map fun _ => (n, .failed cause)
  | .cancel n => (h.context? n).map fun _ => (n, .canceled)
  | .rootSchema n =>
    (h.context? n).bind fun c => (h.schemaFailure? c).map fun f => (n, .failed f)
  | .closeContext n => (h.context? n).map fun _ => (n, .closed)
  | _ => none

/-- What the calls of a run tell the contexts. -/
def story (h : Host) : List HostCall → Story
  | [] => []
  | c :: calls => (h.notice? c).toList ++ (h.act c).story calls

/-- What every context was told so far; nothing for those that are not there. -/
def told (h : Host) (n : Nat) : Option Told := (h.context? n).map (·.told)

end Host

/-- What contexts were told, and one more notice. -/
def hearing (told : Nat → Option Told) : Option (Nat × Signal) → Nat → Option Told
  | none => told
  | some (n, s) => Function.update told n (some (((told n).getD {}).hear s))

/-- The call does not write the deferred failures of a context itself. -/
def HostCall.IsDiscreet : HostCall → Prop
  | .deferFailure _ _ | .takeDeferred _ | .closeDeferred _ => False
  | _ => True

namespace Host

-- ---------------------------------------------------------------------------
-- What calls tell contexts
-- ---------------------------------------------------------------------------

theorem told_of_contexts {h g : Host} (hg : g.contexts = h.contexts) : g.told = h.told := by
  funext n
  rw [told, context?, hg, told, context?]

theorem told_modifyContext {h : Host} {n : Nat} {c : Context} (hc : h.context? n = some c)
    (change : Context → Context) :
    (h.modifyContext n change).told = Function.update h.told n (some (change c).told) := by
  funext m
  have hm : (h.modifyContext n change).told m =
      ((h.contexts.modify n change)[m]?).map (·.told) := rfl
  rw [hm, List.getElem?_modify]
  by_cases hnm : n = m
  · subst hnm
    rw [Function.update_self, show h.contexts[n]? = some c from hc]
    simp
  · rw [Function.update_of_ne (Ne.symm hnm), told, context?]
    simp [hnm]

/-- The parts with what contexts were told. -/
def toldParts : List HostPart := [.contexts, .states, .failures, .closing]

theorem Store.told_eq {h g : Host} {p : HostPart} (hs : h.Store p g) (hp : p ∉ toldParts) :
    g.told = h.told := by
  -- a change of one context that spares what it was told
  have hmodify : ∀ (k : Host) (n : Nat) (change : Context → Context),
      (∀ c, (change c).told = c.told) → (k.modifyContext n change).told = k.told := by
    intro k n change hsame
    have hmap : (k.contexts.modify n change).map (·.told) = k.contexts.map (·.told) :=
      map_modify_of_eq k.contexts n hsame
    funext m
    have hm := congrArg (·[m]?) hmap
    rwa [List.getElem?_map, List.getElem?_map] at hm
  cases hs with
  | contexts => simp [toldParts] at hp
  | adjust hc n =>
    cases hc with
    | tunnels => exact hmodify h n _ fun _ => rfl
    | _ => simp [toldParts] at hp
  | receivers n b => exact hmodify { h with incoming := h.incoming ++ [b] } n _ fun _ => rfl
  | operators n c o => exact hmodify (h.modifyProfile c.profile o.enter) n _ fun _ => rfl
  | _ => rfl

theorem Writes.told_eq {h g : Host} {ps : List HostPart} (hw : Writes ps h g)
    (hps : HostPart.apart ps toldParts = true) : g.told = h.told :=
  hw.same (fun hp hs => hs.told_eq hp) hps

theorem told_signal {h : Host} {n : Nat} {c : Context} (hc : h.context? n = some c)
    (target : Lifecycle) (metric : String) :
    (h.signal n c target metric).told =
      Function.update h.told n (some { c.told with state := c.state.request target }) := by
  unfold signal
  split
  · next hsame =>
    rw [eq_comm, Function.update_eq_self_iff, told, hc, hsame]
    rfl
  · rw [(writes_count _ c.environment metric).told_eq rfl, told_modifyContext hc]
    rfl

theorem told_failContext {h : Host} {n : Nat} {c : Context} (hc : h.context? n = some c)
    (cause : Failure) :
    (h.failContext n cause).told = Function.update h.told n (some (c.told.hear (.failed cause))) := by
  have hsignal := told_signal (h := h.log (c.failureEvent cause)) hc .failed Environment.failed
  obtain ⟨d, hd, hdc⟩ : ∃ d, ((h.log (c.failureEvent cause)).signal n c .failed
      Environment.failed).context? n = some d ∧
      d.told = { c.told with state := c.state.request .failed } := by
    have hn := congrFun hsignal n
    rw [Function.update_self] at hn
    exact Option.map_eq_some_iff.mp hn
  unfold failContext
  rw [hc]
  dsimp only
  cases hadd : c.deferred.add cause with
  | ok e =>
    have habsorb : c.deferred.absorb (some cause) = (e, none) := by rw [Deferred.absorb, hadd]
    have hrecord : ({ d with deferred := e } : Context).told = c.told.hear (.failed cause) := by
      calc ({ d with deferred := e } : Context).told = { d.told with deferred := e } := rfl
        _ = { c.told with state := c.state.request .failed, deferred := e } := by rw [hdc]
        _ = c.told.hear (.failed cause) := by
          rw [Told.hear, show c.told.deferred = c.deferred from rfl, habsorb]
          rfl
    dsimp only
    rw [told_modifyContext hd, hrecord, hsignal, Function.update_idem]
    rfl
  | error refusal =>
    -- the failure came after the report
    have habsorb : (c.deferred.absorb (some cause)).1 = c.deferred := by rw [Deferred.absorb, hadd]
    have hlost : c.told.hear (.failed cause) = { c.told with state := c.state.request .failed } := by
      rw [Told.hear, show c.told.deferred = c.deferred from rfl, habsorb]
      rfl
    dsimp only
    rw [hlost]
    exact hsignal

theorem told_cancelContext {h : Host} {n : Nat} {c : Context} (hc : h.context? n = some c) :
    (h.cancelContext n).told = Function.update h.told n (some (c.told.hear .canceled)) := by
  unfold cancelContext
  rw [hc]
  dsimp only
  split
  · exact told_signal hc .canceled Environment.canceled
  · exact told_signal (h := h.log c.cancelEvent) hc .canceled Environment.canceled

/-- A request for the catalog that fails is a failure of the fragment; one that does not changes nothing
but the service that was asked. -/
theorem fst_rootSchema {h : Host} {n : Nat} {c : Context} (hc : h.context? n = some c) :
    ∃ factories, (h.rootSchema n).1 = match h.schemaFailure? c with
      | some f => { h with factories := factories }.failContext n f
      | none => { h with factories := factories } := by
  unfold rootSchema schemaFailure?
  rw [hc]
  dsimp only
  cases c.session with
  | none => exact ⟨h.factories, rfl⟩
  | some session =>
    dsimp only
    cases (h.environment? c.environment).bind fun e =>
        Service.askAt h.factories e.services.factory session with
    | none => exact ⟨h.factories, rfl⟩
    | some answer =>
      obtain ⟨outcome, factories⟩ := answer
      cases outcome <;> exact ⟨factories, rfl⟩

theorem contexts_closeContext {h : Host} {n : Nat} {c : Context} (hc : h.context? n = some c)
    (hopen : c.isClosed = false) : (h.closeContext n).1.contexts = h.contexts.modify n fun x =>
      { x with isClosed := true, incoming := none, deferred := { closed := true } } := by
  unfold closeContext
  rw [hc]
  simp only [hopen, Bool.false_eq_true, if_false]
  generalize closingOf h.arena c.pool = closing
  obtain ⟨arena, events⟩ := closing
  have hsame := (releaseIncoming_same { h with arena := arena } c c.deferred).1
  exact congrArg (fun contexts : List Context => contexts.modify n fun x =>
    { x with isClosed := true, incoming := none, deferred := { closed := true } }) hsame

theorem told_closeContext {h : Host} {n : Nat} {c : Context} (hc : h.context? n = some c) :
    (h.closeContext n).1.told = Function.update h.told n (some (c.told.hear .closed)) := by
  cases hclosed : c.isClosed with
  | true =>
    have hsame : (h.closeContext n).1 = h := by
      rw [closeContext, hc]
      simp [hclosed]
    rw [hsame, eq_comm, Function.update_eq_self_iff, told, hc, Told.hear]
    simp [Context.told, hclosed]
  | false =>
    rw [told_of_contexts (g := (h.closeContext n).1) (h := h.modifyContext n fun x =>
      { x with isClosed := true, incoming := none, deferred := { closed := true } })
      (contexts_closeContext hc hclosed), told_modifyContext hc, Told.hear]
    simp [Context.told, hclosed, Deferred.cleared]

theorem told_opened {h g : Host} {number : Nat} {e : Environment} {plan : PlanFragment} {c : Context}
    (ho : h.Opened g number e plan c) :
    g.told = hearing h.told (some (h.contexts.length, .opened number)) := by
  obtain ⟨hdeferred, -, hclosed, hstate⟩ := ho.fresh
  have hnone : h.told h.contexts.length = none := by
    rw [told, context?, List.getElem?_eq_none le_rfl]
    rfl
  funext m
  rw [hearing, hnone, told, context?, ho.contexts_eq]
  rcases Nat.lt_trichotomy m h.contexts.length with hm | rfl | hm
  · rw [List.getElem?_append_left hm, Function.update_of_ne (by omega)]
    rfl
  · rw [List.getElem?_append_right le_rfl, Function.update_self]
    simp [Context.told, Told.hear, hdeferred, hclosed, hstate, ho.environment_eq]
  · rw [List.getElem?_eq_none (by simp; omega), Function.update_of_ne (by omega), told, context?,
      List.getElem?_eq_none (by omega)]

/-- A context that hears something hears it where it stands. -/
theorem hearing_of_context {h : Host} {n : Nat} {c : Context} (hc : h.context? n = some c) (s : Signal) :
    hearing h.told (some (n, s)) = Function.update h.told n (some (c.told.hear s)) := by
  rw [hearing, told, hc]
  rfl

/-- Every call tells the contexts what the story says, and no more. -/
theorem told_act (h : Host) {call : HostCall} (hd : call.IsDiscreet) :
    (h.act call).told = hearing h.told (h.notice? call) := by
  cases call with
  | openContext environment plan session registry =>
    rw [notice?, act]
    cases he : h.environment? environment with
    | none => rfl
    | some e =>
      dsimp only [Option.bind_some]
      cases ho : h.openContext environment e plan session registry with
      | mk g outcome =>
        cases outcome with
        | error refusal => exact (writes_openContext_error ho).told_eq rfl
        | ok n =>
          obtain ⟨rfl, c, hopened⟩ := openContext_ok ho
          exact told_opened hopened
  | fail n cause =>
    rw [notice?, act]
    cases hc : h.context? n with
    | none => rw [failContext, hc]; rfl
    | some c => exact (told_failContext hc cause).trans (hearing_of_context hc _).symm
  | cancel n =>
    rw [notice?, act]
    cases hc : h.context? n with
    | none => rw [cancelContext, hc]; rfl
    | some c => exact (told_cancelContext hc).trans (hearing_of_context hc _).symm
  | rootSchema n =>
    rw [notice?, act]
    cases hc : h.context? n with
    | none => rw [rootSchema, hc]; rfl
    | some c =>
      obtain ⟨factories, hschema⟩ := fst_rootSchema hc
      rw [hschema, Option.bind_some]
      cases h.schemaFailure? c with
      | none => rfl
      | some f =>
        have hfail := told_failContext (h := { h with factories := factories }) hc f
        exact hfail.trans (hearing_of_context hc _).symm
  | closeContext n =>
    rw [notice?, act]
    cases hc : h.context? n with
    | none => rw [closeContext, hc]; rfl
    | some c => exact (told_closeContext hc).trans (hearing_of_context hc _).symm
  | deferFailure | takeDeferred | closeDeferred => exact hd.elim
  | _ => exact (writes_act h _).told_eq rfl

/-- A context is made where there was none. -/
theorem told_of_opened {h : Host} {call : HostCall} {n e : Nat}
    (hn : h.notice? call = some (n, .opened e)) : h.told n = none := by
  cases call with
  | openContext environment plan session registry =>
    rw [notice?] at hn
    obtain ⟨x, -, hopened⟩ := Option.bind_eq_some_iff.mp hn
    cases ho : h.openContext environment x plan session registry with
    | mk g outcome =>
      rw [ho] at hopened
      cases outcome with
      | error refusal => simp [Except.toOption] at hopened
      | ok number =>
        obtain ⟨rfl, -⟩ := openContext_ok ho
        have hnumber : h.contexts.length = n :=
          congrArg Prod.fst (Option.some.inj hopened)
        rw [told, context?, List.getElem?_eq_none hnumber.le]
        rfl
  | rootSchema m =>
    rw [notice?] at hn
    obtain ⟨c, -, hf⟩ := Option.bind_eq_some_iff.mp hn
    simp at hf
  | _ => simp [notice?] at hn

/-- A context stays in its environment, whatever it is told. -/
theorem environment_hear {h : Host} {call : HostCall} {n : Nat} {s : Signal} {t : Told}
    (hn : h.notice? call = some (n, s)) (ht : h.told n = some t) :
    (t.hear s).environment = t.environment := by
  cases s with
  | opened e =>
    rw [told_of_opened hn] at ht
    simp at ht
  | failed | canceled => rfl
  | closed =>
    rw [Told.hear]
    split <;> rfl

-- ---------------------------------------------------------------------------
-- Runs
-- ---------------------------------------------------------------------------

/-- Every context is what it was told makes it, and nobody else was told anything. -/
def Tells (h : Host) (story : Story) : Prop :=
  ∀ n, h.told n = if story.heard n = [] then none else some (.after (story.heard n))

end Host

namespace Story

theorem heard_append (story later : Story) (n : Nat) :
    (story ++ later).heard n = story.heard n ++ later.heard n := by
  simp [heard]

@[simp] theorem heard_nil (n : Nat) : Story.heard [] n = [] := rfl

theorem heard_self (n : Nat) (s : Signal) : Story.heard [(n, s)] n = [s] := by
  simp [heard]

theorem heard_of_ne {m n : Nat} (h : m ≠ n) (s : Signal) : Story.heard [(n, s)] m = [] := by
  simp [heard, Ne.symm h]

end Story

namespace Host

theorem Tells.told_getD {h : Host} {story : Story} (ht : h.Tells story) (n : Nat) :
    (h.told n).getD {} = .after (story.heard n) := by
  rw [ht n]
  split
  · next hnone =>
    rw [hnone]
    rfl
  · rfl

theorem Tells.act {h : Host} {story : Story} (ht : h.Tells story) {call : HostCall}
    (hd : call.IsDiscreet) : (h.act call).Tells (story ++ (h.notice? call).toList) := by
  intro m
  rw [told_act h hd, Story.heard_append]
  cases h.notice? call with
  | none => simpa [hearing] using ht m
  | some notice =>
    obtain ⟨n, s⟩ := notice
    rw [hearing, Option.toList_some]
    by_cases hmn : m = n
    · subst hmn
      rw [Function.update_self, ht.told_getD, Story.heard_self, if_neg (by simp), Told.after_concat]
    · rw [Function.update_of_ne hmn, Story.heard_of_ne hmn, List.append_nil]
      exact ht m

/-- What a run tells the contexts is all that becomes of them. -/
theorem Tells.actAll {h : Host} {story : Story} (ht : h.Tells story) {calls : List HostCall}
    (hd : ∀ call ∈ calls, call.IsDiscreet) : (h.actAll calls).Tells (story ++ h.story calls) := by
  induction calls generalizing h story with
  | nil => simpa [Host.story] using ht
  | cons call calls ih =>
    rw [Host.story, ← List.append_assoc]
    exact ih (ht.act (hd call (List.mem_cons_self ..)))
      fun later hlater => hd later (List.mem_cons_of_mem call hlater)

theorem tells_ofProcess (process : Process) : (Session.ofProcess process).host.Tells [] :=
  fun _ => rfl

end Host

end FragmentHost

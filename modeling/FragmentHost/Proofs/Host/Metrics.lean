import FragmentHost.Proofs.Host.Signals
import Mathlib.Data.Finset.Card

/-!
# The metrics of an environment

Every environment counts the contexts made in it, those that failed and those that were canceled. A
context counts as failed if it was told of a failure before it was canceled for the first time, and as
canceled if it was ever canceled; whether it was closed in between does not matter. The metrics of an
environment are these numbers, whatever the contexts are told and in whatever order
(`contexts_and_metrics_agree`), as words that wrap around. A metric that is not there yet counts as zero.

`Books` is the invariant: the metrics of each environment are in a profile of its own, with the values of a
tally. One call adds at most one to one metric of one environment (`counting?`), and the tally of the story
grows by the same (`tally_act`).
-/

namespace FragmentHost

/-- What an environment counts. -/
inductive Metric where
  | started
  | failed
  | canceled
  deriving DecidableEq, Repr

/-- The name of the metric. -/
def Metric.name : Metric → String
  | started => Environment.started
  | failed => Environment.failed
  | canceled => Environment.canceled

theorem Metric.name_injective {m k : Metric} (h : m.name = k.name) : m = k := by
  cases m <;> cases k <;> first | rfl | exact absurd h (by decide)

/-- There was a failure before the first cancellation. -/
def Signal.failsFirst : List Signal → Bool
  | [] => false
  | .failed _ :: _ => true
  | .canceled :: _ => false
  | .opened _ :: rest | .closed :: rest => failsFirst rest

/-- The metric that a signal counts in, at a context that stands as it does. -/
def Told.counts? (t : Told) : Signal → Option Metric
  | .opened _ => some .started
  | .failed _ => if t.state = .ok then some .failed else none
  | .canceled => if t.state = .canceled then none else some .canceled
  | .closed => none

namespace Host

/-- The value of a metric of an environment. -/
def metric (h : Host) (x : Environment) (m : Metric) : Int :=
  ((h.profile x.metrics).value? m.name).getD 0

/-- The environment and the metric that a call counts in. -/
def counting? (h : Host) (call : HostCall) : Option (Nat × Metric) :=
  (h.notice? call).bind fun notice =>
    let t := (h.told notice.1).getD {}
    (t.counts? notice.2).map fun m => ((t.hear notice.2).environment, m)

/-- A count that went up by one in one place. -/
def bump (count : Nat → Metric → Nat) (place : Option (Nat × Metric)) (e : Nat) (m : Metric) : Nat :=
  count e m + if place = some (e, m) then 1 else 0

/-- From `h` to `g`, nobody wrote the metrics of the environments of `h`, and no environment was added. -/
structure Spares (h g : Host) : Prop where
  environments : ∀ e, (g.environment? e).map (·.metrics) = (h.environment? e).map (·.metrics)
  metrics : ∀ e x, h.environment? e = some x → x.metrics < h.profiles.length →
    x.metrics < g.profiles.length ∧
      ∀ m, g.metric x m = h.metric x m

/-- The metrics of every environment are in a profile of their own, with the values of a count. -/
structure Books (h : Host) (count : Nat → Metric → Nat) : Prop where
  place : ∀ e x, h.environment? e = some x → x.metrics < h.profiles.length
  apart : ∀ e e' x x', h.environment? e = some x → h.environment? e' = some x' →
    x.metrics = x'.metrics → e = e'
  metric_eq : ∀ e x m, h.environment? e = some x → h.metric x m = Word.wrap (count e m)
  unused : ∀ e m, h.environment? e = none → count e m = 0

-- ---------------------------------------------------------------------------
-- What leaves the metrics alone
-- ---------------------------------------------------------------------------

theorem Spares.of_counters {h g : Host}
    (henvironments : ∀ e, (g.environment? e).map (·.metrics) = (h.environment? e).map (·.metrics))
    (hlength : h.profiles.length ≤ g.profiles.length)
    (hcounters : ∀ p < h.profiles.length, (g.profile p).counters = (h.profile p).counters) :
    h.Spares g := by
  refine ⟨henvironments, fun e x _ hx => ⟨hx.trans_le hlength, fun m => ?_⟩⟩
  rw [metric, Profile.value?, Profile.counter?, hcounters x.metrics hx, metric, Profile.value?,
    Profile.counter?]

theorem Spares.of_eq {h g : Host} (henvironments : g.environments = h.environments)
    (hprofiles : g.profiles = h.profiles) : h.Spares g := by
  refine .of_counters (fun e => ?_) (by rw [hprofiles]) fun p _ => ?_
  · rw [environment?, henvironments, environment?]
  · rw [profile, hprofiles, profile]

theorem Books.spares {h g : Host} {count : Nat → Metric → Nat} (hb : h.Books count)
    (hs : h.Spares g) : g.Books count := by
  -- an environment that is there now was there before, with the same profile for its metrics
  have hbefore : ∀ e y, g.environment? e = some y → ∃ x, h.environment? e = some x ∧
      x.metrics = y.metrics := by
    intro e y hy
    have he := hs.environments e
    rw [hy] at he
    exact Option.map_eq_some_iff.mp he.symm
  refine ⟨fun e y hy => ?_, fun e e' y y' hy hy' hsame => ?_, fun e y m hy => ?_, fun e m hnone => ?_⟩
  · obtain ⟨x, hx, hxy⟩ := hbefore e y hy
    exact hxy ▸ (hs.metrics e x hx (hb.place e x hx)).1
  · obtain ⟨x, hx, hxy⟩ := hbefore e y hy
    obtain ⟨x', hx', hxy'⟩ := hbefore e' y' hy'
    exact hb.apart e e' x x' hx hx' (hxy.trans (hsame.trans hxy'.symm))
  · obtain ⟨x, hx, hxy⟩ := hbefore e y hy
    have hmetric : g.metric y m = g.metric x m := by rw [metric, metric, hxy]
    rw [hmetric, (hs.metrics e x hx (hb.place e x hx)).2 m, hb.metric_eq e x m hx]
  · have he := hs.environments e
    rw [hnone, Option.map_none, eq_comm, Option.map_eq_none_iff] at he
    exact hb.unused e m he

end Host

-- ---------------------------------------------------------------------------
-- Counting
-- ---------------------------------------------------------------------------

namespace Profile

theorem value?_addTo_self (p : Profile) (name : String) (unit : CounterUnit) (n : Int) :
    (p.addTo name unit n).value? name = some (Word.wrap ((p.value? name).getD 0 + n)) := by
  have hcounter : (p.addTo name unit n).counter? name =
      some (((p.counter? name).getD { unit := unit }).add n) :=
    Assoc.get?_alter_self p.counters name _
  rw [value?, hcounter, value?]
  cases p.counter? name <;> rfl

theorem value?_addTo_of_ne (p : Profile) {name other : String} (h : other ≠ name) (unit : CounterUnit)
    (n : Int) : (p.addTo name unit n).value? other = p.value? other := by
  have hcounter : (p.addTo name unit n).counter? other = p.counter? other :=
    Assoc.get?_alter_of_ne h p.counters _
  rw [value?, hcounter, value?]

theorem counters_enter (o : Operator) (p : Profile) : (o.enter p).counters = p.counters := by
  rw [Operator.enter, modifyChild, counters, ensureChild]
  split <;> rfl

end Profile

namespace Host

theorem profile_modifyProfile (h : Host) (p q : Nat) (change : Profile → Profile)
    (hp : p < h.profiles.length) :
    (h.modifyProfile p change).profile q = if p = q then change (h.profile q) else h.profile q := by
  have hq : (h.modifyProfile p change).profile q = ((h.profiles.modify p change)[q]?).getD default := rfl
  rw [hq, List.getElem?_modify, profile]
  by_cases hpq : p = q
  · subst hpq
    rw [List.getElem?_eq_getElem hp]
    simp
  · simp [hpq]

theorem Books.count {h : Host} {count : Nat → Metric → Nat} (hb : h.Books count) {e : Nat}
    {x : Environment} (hx : h.environment? e = some x) (m : Metric) :
    (h.count e m.name).Books (bump count (some (e, m))) := by
  have hcount : h.count e m.name = h.modifyProfile x.metrics (·.addTo m.name .count 1) := by
    rw [Host.count, hx]
  have hplace := hb.place e x hx
  have hprofile : ∀ q, (h.count e m.name).profile q =
      if x.metrics = q then (h.profile q).addTo m.name .count 1 else h.profile q := by
    intro q
    rw [hcount, profile_modifyProfile h x.metrics q _ hplace]
  have henvironment : ∀ i, (h.count e m.name).environment? i = h.environment? i := by
    intro i
    rw [hcount]
    rfl
  have hlength : (h.count e m.name).profiles.length = h.profiles.length := by
    rw [hcount]
    exact List.length_modify ..
  refine ⟨fun i y hy => ?_, fun i j y z hy hz hsame => ?_, fun i y k hy => ?_, fun i k hnone => ?_⟩
  · rw [hlength]
    exact hb.place i y (henvironment i ▸ hy)
  · exact hb.apart i j y z (henvironment i ▸ hy) (henvironment j ▸ hz) hsame
  · rw [henvironment] at hy
    have hmetric := hb.metric_eq i y k hy
    rw [metric] at hmetric
    rw [metric, hprofile, bump]
    by_cases hie : x.metrics = y.metrics
    · -- the metrics of this environment
      obtain rfl := hb.apart e i x y hx hy hie
      rw [if_pos hie]
      by_cases hkm : k = m
      · subst hkm
        rw [Profile.value?_addTo_self, Option.getD_some, hmetric, Word.wrap_wrap_add, if_pos rfl]
        rfl
      · have hne : k.name ≠ m.name := fun hname => hkm (Metric.name_injective hname)
        rw [Profile.value?_addTo_of_ne _ hne, hmetric, if_neg]
        · rfl
        · intro hsame
          exact hkm (Prod.mk.inj (Option.some.inj hsame)).2.symm
    · rw [if_neg hie, hmetric, if_neg]
      · rfl
      · intro hsame
        obtain rfl : e = i := (Prod.mk.inj (Option.some.inj hsame)).1
        rw [hx, Option.some.injEq] at hy
        exact hie (congrArg Environment.metrics hy)
  · rw [henvironment] at hnone
    have hie : e ≠ i := by
      rintro rfl
      rw [hx] at hnone
      simp at hnone
    have hunused := hb.unused i k hnone
    rw [bump, if_neg, hunused]
    intro hsame
    exact hie (Prod.mk.inj (Option.some.inj hsame)).1

theorem bump_none (count : Nat → Metric → Nat) : bump count none = count := by
  funext e m
  simp [bump]

theorem Books.signal {h : Host} {count : Nat → Metric → Nat} (hb : h.Books count) {n : Nat}
    {c : Context} {x : Environment} (hx : h.environment? c.environment = some x) (target : Lifecycle)
    (m : Metric) : (h.signal n c target m.name).Books
      (bump count (if c.state.request target = c.state then none else some (c.environment, m))) := by
  unfold Host.signal
  split
  · rw [bump_none]
    exact hb
  · have hmoved := hb.spares
      (Spares.of_eq (g := h.modifyContext n fun y => { y with state := y.state.request target }) rfl rfl)
    exact hmoved.count hx m

-- ---------------------------------------------------------------------------
-- What calls count
-- ---------------------------------------------------------------------------

theorem counting?_of_silent {h : Host} {call : HostCall} (hn : h.notice? call = none) :
    h.counting? call = none := by
  rw [counting?, hn]
  rfl

/-- The metric that a signal counts in is the one that a context writes when it gets the signal. -/
theorem counting?_of_context {h : Host} {n : Nat} {c : Context} (hc : h.context? n = some c)
    {call : HostCall} {s : Signal} (hn : h.notice? call = some (n, s)) :
    h.counting? call = (c.told.counts? s).map fun m => (c.environment, m) := by
  have htold : h.told n = some c.told := by
    rw [told, hc]
    rfl
  have henvironment : (c.told.hear s).environment = c.environment := environment_hear hn htold
  rw [counting?, hn, Option.bind_some, htold, Option.getD_some]
  dsimp only
  rw [henvironment]

theorem Books.failContext {h : Host} {count : Nat → Metric → Nat} (hb : h.Books count) {n : Nat}
    {c : Context} (hc : h.context? n = some c) {x : Environment}
    (hx : h.environment? c.environment = some x) (cause : Failure) :
    (h.failContext n cause).Books
      (bump count ((c.told.counts? (.failed cause)).map fun m => (c.environment, m))) := by
  have hplace : (c.told.counts? (.failed cause)).map (fun m => (c.environment, m)) =
      if c.state.request .failed = c.state then none else some (c.environment, .failed) := by
    rw [Told.counts?, show c.told.state = c.state from rfl]
    cases c.state <;> rfl
  have hlogged := hb.spares (Spares.of_eq (g := h.log (c.failureEvent cause)) rfl rfl)
  have hsignal := hlogged.signal (n := n) hx .failed .failed
  unfold Host.failContext
  rw [hc, hplace]
  dsimp only
  split <;> exact hsignal.spares (Spares.of_eq rfl rfl)

theorem Books.cancelContext {h : Host} {count : Nat → Metric → Nat} (hb : h.Books count) {n : Nat}
    {c : Context} (hc : h.context? n = some c) {x : Environment}
    (hx : h.environment? c.environment = some x) :
    (h.cancelContext n).Books
      (bump count ((c.told.counts? .canceled).map fun m => (c.environment, m))) := by
  have hplace : (c.told.counts? .canceled).map (fun m => (c.environment, m)) =
      if c.state.request .canceled = c.state then none else some (c.environment, .canceled) := by
    rw [Told.counts?, show c.told.state = c.state from rfl]
    cases c.state <;> rfl
  unfold Host.cancelContext
  rw [hc, hplace]
  dsimp only
  refine Books.signal (x := x) ?_ ?_ .canceled .canceled
  · split
    · exact hb
    · exact hb.spares (Spares.of_eq rfl rfl)
  · split <;> exact hx

theorem spares_addProfile (h : Host) (p : Profile) : h.Spares (h.addProfile p).1 := by
  refine .of_counters (fun _ => rfl) (by simp [addProfile]) fun i hi => ?_
  rw [profile, addProfile, List.getElem?_append_left hi, profile]

theorem spares_addOperator (h : Host) (n : Nat) (c : Context) (o : Operator) :
    h.Spares (h.addOperator n c o) := by
  refine .of_counters (fun _ => rfl) (List.length_modify ..).ge fun p hp => ?_
  have hprofile : (h.addOperator n c o).profile p = (h.modifyProfile c.profile o.enter).profile p := rfl
  rw [hprofile, profile, modifyProfile, List.getElem?_modify, profile, List.getElem?_eq_getElem hp]
  simp only [Option.map_eq_map, Option.map_some, Option.getD_some]
  split
  · exact Profile.counters_enter o _
  · rfl

/-- The parts with metrics and environments. -/
def metricsParts : List HostPart := [.metrics, .environments, .surroundings]

theorem Store.spares {h g : Host} {p : HostPart} (hs : h.Store p g) (hp : p ∉ metricsParts) :
    h.Spares g := by
  cases hs with
  | metrics | environments | surroundings => simp [metricsParts] at hp
  | profiles p => exact spares_addProfile h p
  | operators n c o => exact spares_addOperator h n c o
  | _ => exact .of_eq rfl rfl

theorem Spares.refl (h : Host) : h.Spares h := .of_eq rfl rfl

theorem Spares.trans {h g k : Host} (hhg : h.Spares g) (hgk : g.Spares k) : h.Spares k := by
  refine ⟨fun e => (hgk.environments e).trans (hhg.environments e), fun e x hx hplace => ?_⟩
  obtain ⟨hplace', hmetric⟩ := hhg.metrics e x hx hplace
  -- the environment may have been written since, but for the place of its metrics
  have he := hhg.environments e
  rw [hx, Option.map_some, Option.map_eq_some_iff] at he
  obtain ⟨y, hy, hxy⟩ := he
  obtain ⟨hplace'', hmetric'⟩ := hgk.metrics e y hy (hxy ▸ hplace')
  refine ⟨hxy ▸ hplace'', fun m => ?_⟩
  have hsame : ∀ f : Host, f.metric y m = f.metric x m := fun f => by rw [metric, metric, hxy]
  rw [← hsame, hmetric', hsame, hmetric]

theorem Writes.spares {h g : Host} {ps : List HostPart} (hw : Writes ps h g)
    (hps : HostPart.apart ps metricsParts = true) : h.Spares g :=
  hw.keeps Spares.refl Spares.trans (fun hp hs => hs.spares hp) hps

theorem Books.openContext {h g : Host} {count : Nat → Metric → Nat} (hb : h.Books count)
    {number n registry : Nat} {e : Environment} {plan : PlanFragment} {session : Option UserSession}
    (he : h.environment? number = some e)
    (ho : h.openContext number e plan session registry = (g, .ok n)) :
    g.Books (bump count (some (number, .started))) := by
  obtain ⟨options, time, k, allocator, -, hk, hfurnish⟩ := openContext_granted ho
  have hbefore : Writes [.config, .memory, .journal] h k :=
    ((writes_settings h).mono (by simp)).trans ((writes_newChild hk).mono (by simp))
  have hstill : k.environment? number = some e := by
    rw [environment?, (hbefore.sameRecords rfl).environments_eq]
    exact he
  have hcounted := (hb.spares (hbefore.spares rfl)).count hstill .started
  have hadded := hcounted.spares
    (spares_addProfile _ (FragmentProfile.start plan.handle plan.assignment))
  obtain ⟨rfl, -⟩ := Prod.mk.inj hfurnish
  exact hadded.spares (Spares.of_eq rfl rfl)

/-- A new environment that has a new profile for its metrics. -/
theorem Books.addEnvironment {h : Host} {count : Nat → Metric → Nat} (hb : h.Books count)
    {x : Environment} (hx : x.metrics < h.profiles.length)
    (hempty : (h.profile x.metrics).counters = [])
    (hfresh : ∀ e y, h.environment? e = some y → y.metrics ≠ x.metrics) :
    ({ h with environments := h.environments ++ [x] } : Host).Books count := by
  have hsplit : ∀ e y, ({ h with environments := h.environments ++ [x] } : Host).environment? e =
      some y → h.environment? e = some y ∨ e = h.environments.length ∧ y = x := by
    intro e y hy
    have hy' : (h.environments ++ [x])[e]? = some y := hy
    rcases Nat.lt_trichotomy e h.environments.length with he | rfl | he
    · rw [List.getElem?_append_left he] at hy'
      exact Or.inl hy'
    · simp only [List.getElem?_concat_length, Option.some.injEq] at hy'
      exact Or.inr ⟨rfl, hy'.symm⟩
    · rw [List.getElem?_eq_none (by simp; omega)] at hy'
      simp at hy'
  refine ⟨fun e y hy => ?_, fun e e' y y' hy hy' hsame => ?_, fun e y m hy => ?_, fun e m hnone => ?_⟩
  · rcases hsplit e y hy with hold | ⟨-, rfl⟩
    · exact hb.place e y hold
    · exact hx
  · rcases hsplit e y hy with hold | ⟨rfl, rfl⟩ <;> rcases hsplit e' y' hy' with hold' | ⟨rfl, rfl⟩
    · exact hb.apart e e' y y' hold hold' hsame
    · exact absurd hsame (hfresh e y hold)
    · exact absurd hsame.symm (hfresh e' y' hold')
    · rfl
  · rcases hsplit e y hy with hold | ⟨rfl, rfl⟩
    · exact hb.metric_eq e y m hold
    · have hzero : h.metric y m = 0 := by
        rw [metric, Profile.value?, Profile.counter?, hempty]
        rfl
      rw [hb.unused h.environments.length m (List.getElem?_eq_none le_rfl)]
      exact hzero
  · refine hb.unused e m (List.getElem?_eq_none ?_)
    have hlen : (h.environments ++ [x]).length ≤ e := List.getElem?_eq_none_iff.mp hnone
    rw [List.length_append] at hlen
    omega

theorem Books.openEnvironment {h : Host} {count : Nat → Metric → Nat} (hb : h.Books count)
    (root : Nat) (endpoint : Endpoint) (options : Option OptionStack) (services : Services) :
    (h.openEnvironment root endpoint options services).1.Books count := by
  have hadded := hb.spares (spares_addProfile h (Profile.empty Environment.metricsName))
  have hoptions := writes_optionsFor (h.addProfile (Profile.empty Environment.metricsName)).1 options
  have hprofiles := hoptions.profiles_eq rfl
  refine (hadded.spares (hoptions.spares rfl)).addEnvironment ?_ ?_ fun e y hy => ?_
  · rw [hprofiles]
    simp [addProfile]
  · rw [profile, hprofiles]
    simp [addProfile, Profile.empty, Profile.counters]
  · -- the environments that were there have earlier profiles
    rw [environment?, (hoptions.sameRecords rfl).environments_eq] at hy
    exact (hb.place e y hy).ne

/-- What happens elsewhere leaves the metrics alone, and nobody writes the failures of a context. -/
def Leaves (h : Host) : HostCall → Prop
  | .elsewhere s => h.Spares (h.within s)
  | call => call.IsDiscreet

theorem Leaves.isDiscreet {h : Host} {call : HostCall} (hl : h.Leaves call) : call.IsDiscreet := by
  cases call with
  | elsewhere => trivial
  | _ => exact hl

theorem Books.of_silent {h g : Host} {count : Nat → Metric → Nat} (hb : h.Books count)
    {call : HostCall} (hs : h.Spares g) (hn : h.notice? call = none) :
    g.Books (bump count (h.counting? call)) := by
  rw [counting?_of_silent hn, bump_none]
  exact hb.spares hs

theorem Books.act_openContext {h : Host} {count : Nat → Metric → Nat} (hb : h.Books count)
    (environment : Nat) (plan : PlanFragment) (session : Option UserSession) (registry : Nat) :
    (h.act (.openContext environment plan session registry)).Books
      (bump count (h.counting? (.openContext environment plan session registry))) := by
  rw [Host.act]
  cases he : h.environment? environment with
  | none =>
    refine hb.of_silent (.of_eq rfl rfl) ?_
    rw [notice?, he]
    rfl
  | some e =>
    dsimp only
    cases ho : h.openContext environment e plan session registry with
    | mk g outcome =>
      have hnotice : h.notice? (.openContext environment plan session registry) =
          outcome.toOption.map fun n => (n, .opened environment) := by
        rw [notice?, he, Option.bind_some, ho]
      cases outcome with
      | error refusal => exact hb.of_silent ((writes_openContext_error ho).spares rfl) hnotice
      | ok n =>
        rw [counting?, hnotice]
        exact hb.openContext he ho

/-- A call adds one to the metric that it counts in, and no other metric changes. -/
theorem Books.act {h : Host} {count : Nat → Metric → Nat} (hb : h.Books count) (hw : h.Wired)
    {call : HostCall} (hl : h.Leaves call) : (h.act call).Books (bump count (h.counting? call)) := by
  have hplaced : ∀ {n c}, h.context? n = some c → ∃ x, h.environment? c.environment = some x := by
    intro n c hc
    obtain ⟨x, -, hx, -⟩ := (hw n c hc).allocator
    exact ⟨x, hx⟩
  cases call with
  | openContext environment plan session registry =>
    exact hb.act_openContext environment plan session registry
  | fail n cause =>
    rw [Host.act]
    cases hc : h.context? n with
    | none =>
      rw [Host.failContext, hc]
      exact hb.of_silent (.of_eq rfl rfl) (by rw [notice?, hc]; rfl)
    | some c =>
      obtain ⟨x, hx⟩ := hplaced hc
      rw [counting?_of_context hc (s := .failed cause) (by rw [notice?, hc]; rfl)]
      exact hb.failContext hc hx cause
  | cancel n =>
    rw [Host.act]
    cases hc : h.context? n with
    | none =>
      rw [Host.cancelContext, hc]
      exact hb.of_silent (.of_eq rfl rfl) (by rw [notice?, hc]; rfl)
    | some c =>
      obtain ⟨x, hx⟩ := hplaced hc
      rw [counting?_of_context hc (s := .canceled) (by rw [notice?, hc]; rfl)]
      exact hb.cancelContext hc hx
  | rootSchema n =>
    rw [Host.act]
    cases hc : h.context? n with
    | none =>
      rw [Host.rootSchema, hc]
      exact hb.of_silent (.of_eq rfl rfl) (by rw [notice?, hc]; rfl)
    | some c =>
      have hnotice : h.notice? (.rootSchema n) =
          (h.schemaFailure? c).map fun f => (n, .failed f) := by
        rw [notice?, hc, Option.bind_some]
      obtain ⟨factories, hschema⟩ := fst_rootSchema hc
      have hasked : Books { h with factories := factories } count := hb.spares (.of_eq rfl rfl)
      rw [hschema]
      cases hf : h.schemaFailure? c with
      | none => exact hb.of_silent (.of_eq rfl rfl) (by rw [hnotice, hf]; rfl)
      | some f =>
        obtain ⟨x, hx⟩ := hplaced hc
        rw [counting?_of_context hc (s := .failed f) (by rw [hnotice, hf]; rfl)]
        exact hasked.failContext hc hx f
  | closeContext n =>
    -- closing is told, and not counted
    have hquiet : h.counting? (.closeContext n) = none := by
      cases hc : h.context? n with
      | none => exact counting?_of_silent (by rw [notice?, hc]; rfl)
      | some c =>
        rw [counting?_of_context hc (s := .closed) (by rw [notice?, hc]; rfl)]
        rfl
    rw [hquiet, bump_none]
    exact hb.spares ((writes_closeContext h n).spares rfl)
  | openEnvironment root endpoint options services =>
    rw [counting?_of_silent rfl, bump_none, Host.act]
    split
    · exact (hb.spares ((writes_rootFor h root).spares rfl)).openEnvironment _ endpoint options services
    · exact hb
  | elsewhere s => exact hb.of_silent hl rfl
  | deferFailure | takeDeferred | closeDeferred => exact hl.elim
  | _ => exact hb.of_silent ((writes_act h _).spares rfl) rfl

end Host

-- ---------------------------------------------------------------------------
-- Tallies
-- ---------------------------------------------------------------------------

namespace Signal

theorem failsFirst_concat (heard : List Signal) (s : Signal) : failsFirst (heard ++ [s]) =
    (failsFirst heard || (decide (canceled ∉ heard) && s.cause?.isSome)) := by
  induction heard with
  | nil => cases s <;> rfl
  | cons first rest ih => cases first <;> simp [failsFirst, ih]

/-- Without a cancellation every failure counts. -/
theorem failsFirst_eq_false_iff {heard : List Signal} (h : canceled ∉ heard) :
    failsFirst heard = false ↔ causes heard = [] := by
  induction heard with
  | nil => simp [failsFirst, causes]
  | cons first rest ih =>
    have hrest := ih (List.not_mem_of_not_mem_cons h)
    cases first with
    | failed cause => simp [failsFirst, causes, cause?]
    | canceled => exact absurd (List.mem_cons_self ..) h
    | opened | closed => simpa [failsFirst, causes, cause?] using hrest

end Signal

namespace Told

theorem counts?_failed_iff (heard : List Signal) (s : Signal) :
    (after heard).counts? s = some .failed ↔
      Signal.failsFirst (heard ++ [s]) = true ∧ ¬ Signal.failsFirst heard = true := by
  rw [Signal.failsFirst_concat]
  cases s with
  | opened | closed => simp [counts?, Signal.cause?]
  | canceled =>
    rw [counts?]
    split <;> simp [Signal.cause?]
  | failed cause =>
    rw [counts?, state_after, Signal.stateAfter]
    by_cases hcanceled : Signal.canceled ∈ heard
    · simp [hcanceled]
    · have hfirst := Signal.failsFirst_eq_false_iff hcanceled
      by_cases hcauses : Signal.causes heard = []
      · simp [hcanceled, hcauses, hfirst.mpr hcauses, Signal.cause?]
      · have hfails : Signal.failsFirst heard = true := by
          rw [← Bool.not_eq_false, hfirst]
          exact hcauses
        simp [hcanceled, hcauses, hfails]

theorem counts?_canceled_iff (heard : List Signal) (s : Signal) :
    (after heard).counts? s = some .canceled ↔
      Signal.canceled ∈ heard ++ [s] ∧ Signal.canceled ∉ heard := by
  cases s with
  | opened | closed => simp [counts?]
  | failed cause =>
    rw [counts?]
    split <;> simp
  | canceled =>
    rw [counts?, state_after, Signal.stateAfter]
    by_cases hcanceled : Signal.canceled ∈ heard
    · simp [hcanceled]
    · rw [if_neg hcanceled]
      split <;> simp [hcanceled]

theorem counts?_started_iff (t : Told) (s : Signal) :
    t.counts? s = some .started ↔ ∃ e, s = .opened e := by
  cases s with
  | opened e => simp [counts?]
  | closed => simp [counts?]
  | failed | canceled =>
    rw [counts?]
    split <;> simp

end Told

/-- Two sets that differ by one number at most. -/
theorem card_of_agree {S T : Finset Nat} {n : Nat} (hrest : ∀ m ≠ n, m ∈ T ↔ m ∈ S)
    (hstill : n ∈ S → n ∈ T) {new : Prop} [Decidable new] (hnew : new ↔ n ∈ T ∧ n ∉ S) :
    T.card = S.card + if new then 1 else 0 := by
  by_cases h : new
  · obtain ⟨hT, hS⟩ := hnew.mp h
    have hinsert : T = insert n S := by
      ext m
      by_cases hm : m = n
      · simp [hm, hT]
      · simp [hm, hrest m hm]
    rw [if_pos h, hinsert, Finset.card_insert_of_notMem hS]
  · have hsame : T = S := by
      ext m
      by_cases hm : m = n
      · subst hm
        exact ⟨fun hT => by_contra fun hS => h (hnew.mpr ⟨hT, hS⟩), hstill⟩
      · exact hrest m hm
    rw [if_neg h, hsame, Nat.add_zero]

namespace Host

/-- The contexts of an environment whose numbers have a property. -/
def contextsWhere (h : Host) (e : Nat) (p : Nat → Prop) [DecidablePred p] : Finset Nat :=
  (Finset.range h.contexts.length).filter fun n =>
    (h.context? n).map (·.environment) = some e ∧ p n

/-- What the contexts of an environment that heard a story count to. -/
def tally (h : Host) (story : Story) (e : Nat) : Metric → Nat
  | .started => story.countP fun notice => notice.2 = .opened e
  | .failed => (h.contextsWhere e fun n => Signal.failsFirst (story.heard n) = true).card
  | .canceled => (h.contextsWhere e fun n => Signal.canceled ∈ story.heard n).card

theorem mem_contextsWhere {h : Host} {e n : Nat} {p : Nat → Prop} [DecidablePred p] :
    n ∈ h.contextsWhere e p ↔ (∃ t, h.told n = some t ∧ t.environment = e) ∧ p n := by
  rw [contextsWhere, Finset.mem_filter, Finset.mem_range, told, context?]
  constructor
  · rintro ⟨-, henvironment, hp⟩
    obtain ⟨c, hc, rfl⟩ := Option.map_eq_some_iff.mp henvironment
    exact ⟨⟨c.told, by rw [hc]; rfl, rfl⟩, hp⟩
  · rintro ⟨⟨t, ht, rfl⟩, hp⟩
    obtain ⟨c, hc, rfl⟩ := Option.map_eq_some_iff.mp ht
    exact ⟨(List.getElem?_eq_some_iff.mp hc).1, by rw [hc]; rfl, hp⟩

/-- One signal makes one context have a property that signals do not take away, or changes nothing. -/
theorem card_contextsWhere {h : Host} {story : Story} (ht : h.Tells story) {call : HostCall}
    (hd : call.IsDiscreet) {n : Nat} {s : Signal} (hn : h.notice? call = some (n, s))
    {p : List Signal → Prop} [DecidablePred p] (hnil : ¬ p [])
    (hstays : ∀ heard, p heard → p (heard ++ [s])) (e : Nat) :
    ((h.act call).contextsWhere e fun m => p (Story.heard (story ++ [(n, s)]) m)).card =
      (h.contextsWhere e fun m => p (story.heard m)).card +
        if ((Told.after (story.heard n)).hear s).environment = e ∧
          p (story.heard n ++ [s]) ∧ ¬ p (story.heard n) then 1 else 0 := by
  have htold : (h.act call).told =
      Function.update h.told n (some ((Told.after (story.heard n)).hear s)) := by
    rw [told_act h hd, hn, hearing, ht.told_getD]
  have hheard : Story.heard (story ++ [(n, s)]) n = story.heard n ++ [s] := by
    rw [Story.heard_append, Story.heard_self]
  -- a context that is there stays in its environment
  have hthere : ∀ {t}, h.told n = some t →
      t.environment = ((Told.after (story.heard n)).hear s).environment := by
    intro t hnt
    rw [← ht.told_getD n, hnt, Option.getD_some, environment_hear hn hnt]
  have hafter : (n ∈ (h.act call).contextsWhere e fun m => p (Story.heard (story ++ [(n, s)]) m)) ↔
      ((Told.after (story.heard n)).hear s).environment = e ∧ p (story.heard n ++ [s]) := by
    rw [mem_contextsWhere, htold, Function.update_self, hheard]
    simp
  have hbefore : (n ∈ h.contextsWhere e fun m => p (story.heard m)) ↔
      ((Told.after (story.heard n)).hear s).environment = e ∧ p (story.heard n) := by
    rw [mem_contextsWhere]
    constructor
    · rintro ⟨⟨t, hnt, rfl⟩, hp⟩
      exact ⟨(hthere hnt).symm, hp⟩
    · rintro ⟨rfl, hp⟩
      have hnonempty : story.heard n ≠ [] := fun hnone => hnil (hnone ▸ hp)
      have hnt := ht n
      rw [if_neg hnonempty] at hnt
      exact ⟨⟨_, hnt, hthere hnt⟩, hp⟩
  refine card_of_agree (n := n) (fun m hm => ?_) ?_ ?_
  · rw [mem_contextsWhere, mem_contextsWhere, htold, Function.update_of_ne hm, Story.heard_append,
      Story.heard_of_ne hm, List.append_nil]
  · rw [hafter, hbefore]
    exact fun hp => ⟨hp.1, hstays _ hp.2⟩
  · rw [hafter, hbefore]
    tauto

/-- The tally of the story grows where the call counts. -/
theorem tally_act {h : Host} {story : Story} (ht : h.Tells story) {call : HostCall}
    (hd : call.IsDiscreet) : (h.act call).tally (story ++ (h.notice? call).toList) =
      bump (h.tally story) (h.counting? call) := by
  funext e m
  cases hn : h.notice? call with
  | none =>
    have htold : (h.act call).told = h.told := by
      rw [told_act h hd, hn]
      rfl
    have hsame : ∀ (p : Nat → Prop) [DecidablePred p],
        (h.act call).contextsWhere e p = h.contextsWhere e p := by
      intro p _
      ext n
      rw [mem_contextsWhere, mem_contextsWhere, htold]
    rw [counting?_of_silent hn, bump_none, Option.toList_none, List.append_nil]
    cases m with
    | started => rfl
    | failed | canceled => exact congrArg Finset.card (hsame _)
  | some notice =>
    obtain ⟨n, s⟩ := notice
    have hcounting : h.counting? call = some (e, m) ↔
        ((Told.after (story.heard n)).hear s).environment = e ∧
          (Told.after (story.heard n)).counts? s = some m := by
      rw [counting?, hn, Option.bind_some]
      dsimp only
      rw [ht.told_getD]
      cases (Told.after (story.heard n)).counts? s <;> simp [and_comm]
    rw [bump, if_congr hcounting rfl rfl, Option.toList_some]
    cases m with
    | started =>
      have hstarted : ((Told.after (story.heard n)).hear s).environment = e ∧
          (Told.after (story.heard n)).counts? s = some .started ↔ s = .opened e := by
        rw [Told.counts?_started_iff]
        constructor
        · rintro ⟨he, environment, rfl⟩
          exact congrArg Signal.opened he
        · rintro rfl
          exact ⟨rfl, e, rfl⟩
      rw [tally, tally, List.countP_append, List.countP_singleton, if_congr hstarted rfl rfl]
      simp
    | failed =>
      rw [if_congr (and_congr_right' (Told.counts?_failed_iff (story.heard n) s)) rfl rfl]
      refine card_contextsWhere ht hd hn (p := fun heard => Signal.failsFirst heard = true) ?_ ?_ e
      · simp [Signal.failsFirst]
      · intro heard hfails
        rw [Signal.failsFirst_concat, hfails, Bool.true_or]
    | canceled =>
      rw [if_congr (and_congr_right' (Told.counts?_canceled_iff (story.heard n) s)) rfl rfl]
      exact card_contextsWhere ht hd hn (p := fun heard => Signal.canceled ∈ heard) (by simp)
        (fun heard hcanceled => List.mem_append_left [s] hcanceled) e

-- ---------------------------------------------------------------------------
-- Runs
-- ---------------------------------------------------------------------------

/-- Nobody but the contexts writes the metrics or the failures of a context in a run. -/
def Undisturbed (h : Host) : List HostCall → Prop
  | [] => True
  | call :: calls => h.Leaves call ∧ (h.act call).Undisturbed calls

theorem Undisturbed.isDiscreet {h : Host} {calls : List HostCall} (hu : h.Undisturbed calls) :
    ∀ call ∈ calls, call.IsDiscreet := by
  induction calls generalizing h with
  | nil => simp
  | cons call calls ih => exact List.forall_mem_cons.mpr ⟨hu.1.isDiscreet, ih hu.2⟩

/-- Through an undisturbed run the metrics stay the tally of the story. -/
theorem Books.actAll {h : Host} {t : Account} (hk : h.arena.Keeps t) (hw : h.Wired) {story : Story}
    (ht : h.Tells story) (hb : h.Books (h.tally story)) {calls : List HostCall}
    (hu : h.Undisturbed calls) :
    (h.actAll calls).Books ((h.actAll calls).tally (story ++ h.story calls)) := by
  induction calls generalizing h t story with
  | nil =>
    rw [Host.story, List.append_nil]
    exact hb
  | cons call calls ih =>
    obtain ⟨hl, hlater⟩ := hu
    rw [Host.story, ← List.append_assoc]
    refine ih (keeps_act hk call) (wired_act hw hk call) (ht.act hl.isDiscreet) ?_ hlater
    rw [tally_act ht hl.isDiscreet]
    exact hb.act hw hl

theorem books_ofProcess (process : Process) :
    (Session.ofProcess process).host.Books ((Session.ofProcess process).host.tally []) := by
  have hnone : ∀ e, (Session.ofProcess process).host.environment? e = none := fun _ => rfl
  constructor
  case unused =>
    intro e m _
    cases m <;> rfl
  all_goals simp [hnone]

/-- After any run the state of a context, its failures and the metrics of its environment are those of the
signals that the contexts were told, in whatever order they came. -/
theorem contexts_and_metrics_agree (process : Process) (calls : List HostCall) {h : Host}
    (hh : h = (Session.ofProcess process).host.actAll calls) {story : Story}
    (hstory : story = (Session.ofProcess process).host.story calls)
    (hu : (Session.ofProcess process).host.Undisturbed calls) :
    (∀ n c, h.context? n = some c →
      c.state = Signal.stateAfter (story.heard n) ∧
      c.deferred.report? = Signal.failureAfter (story.heard n)) ∧
    ∀ e x, h.environment? e = some x → ∀ m : Metric,
      h.metric x m = Word.wrap (h.tally story e m) ∧
      (h.tally story e m ≤ Word.largest → h.metric x m = h.tally story e m) := by
  subst hh hstory
  have htells := (tells_ofProcess process).actAll hu.isDiscreet
  have hwired : (Session.ofProcess process).host.Wired := wired_ofProcess process []
  have hbooks := (books_ofProcess process).actAll Arena.keeps_empty hwired
    (tells_ofProcess process) hu
  rw [List.nil_append] at htells hbooks
  refine ⟨fun n c hc => ?_, fun e x hx m => ?_⟩
  · have htold := htells n
    rw [told, hc] at htold
    split at htold
    · simp at htold
    · have hafter : c.told = .after (Story.heard _ n) := Option.some.inj htold
      constructor
      · rw [← Told.state_after, ← hafter]
        rfl
      · rw [← Told.report?_after, ← hafter]
        rfl
  · have hmetric := hbooks.metric_eq e x m hx
    refine ⟨hmetric, fun hfits => ?_⟩
    rw [hmetric, Word.wrap_of_fits ⟨?_, hfits⟩]
    rw [Word.smallest]
    omega

/-- Three contexts of one environment. The first fails, is canceled, fails again and is closed before its
last failure; the second is canceled first and then asks for the catalog in vain; the third is closed and
fails. Somebody else makes a profile. -/
def mixedSignals : List HostCall :=
  let node : Endpoint := ⟨"localhost", 31010, 31011, 31012⟩
  let plan : PlanFragment := ⟨⟨⟨0, 1⟩, 1, 0⟩, 0, -1, none, node, node, 0, "UTC"⟩
  HostCall.plainServices ++ [.root "root" 1000, .openEnvironment (some 0) node none ⟨0, 0, 0⟩,
    .elsewhere ⟨[], [Profile.empty Environment.metricsName, Profile.empty "scratch"], [], {}, {}⟩,
    .openContext 0 plan none 0, .openContext 0 plan none 0, .fail 0 (.execution "bad record"), .cancel 0,
    .fail 0 (.execution "late record"), .cancel 1, .rootSchema 1, .closeContext 0,
    .fail 0 (.execution "lost record"), .openContext 0 plan (some ⟨"ann", none, []⟩) 0, .closeContext 2,
    .fail 2 (.execution "after the end")]

/-- The host after that run. -/
def mixedHost : Host := (Session.ofProcess {}).host.actAll mixedSignals

/-- What the contexts were told in that run. -/
def mixedStory : Story := (Session.ofProcess {}).host.story mixedSignals

/-- The profile that somebody else makes leaves the metrics as they were. -/
theorem undisturbed_mixedSignals : (Session.ofProcess {}).host.Undisturbed mixedSignals := by
  refine ⟨trivial, trivial, trivial, trivial, trivial, ?_, trivial, trivial, trivial, trivial, trivial, trivial,
    trivial, trivial, trivial, trivial, trivial, trivial, trivial⟩
  refine .of_counters (fun _ => rfl) (by decide +kernel) fun p hp => ?_
  have hlt : p < 1 := hp
  obtain rfl : p = 0 := by omega
  rfl

theorem contexts_and_metrics_agree_mixedSignals :
    ∃ c d x, mixedHost.context? 0 = some c ∧ mixedHost.context? 1 = some d ∧
      mixedHost.environment? 0 = some x ∧
      c.state = .canceled ∧ c.deferred.report? = none ∧
      d.state = .canceled ∧ d.deferred.report? = some Context.notRoot ∧
      mixedHost.metric x .started = 3 ∧ mixedHost.metric x .failed = 2 ∧
      mixedHost.metric x .canceled = 2 := by
  obtain ⟨hcontexts, hmetrics⟩ := contexts_and_metrics_agree {} mixedSignals (h := mixedHost) rfl
    rfl undisturbed_mixedSignals
  have hc : mixedHost.context? 0 = some ((mixedHost.context? 0).get (by decide +kernel)) :=
    (Option.some_get _).symm
  have hd : mixedHost.context? 1 = some ((mixedHost.context? 1).get (by decide +kernel)) :=
    (Option.some_get _).symm
  have hx : mixedHost.environment? 0 = some ((mixedHost.environment? 0).get (by decide +kernel)) :=
    (Option.some_get _).symm
  have hfits : ∀ m, (mixedHost.tally mixedStory 0 m : Int) ≤ Word.largest := by
    intro m
    cases m <;> decide +kernel
  refine ⟨_, _, _, hc, hd, hx, ?_, ?_, ?_, ?_, ?_, ?_, ?_⟩
  · exact (hcontexts 0 _ hc).1.trans (by decide +kernel)
  · exact (hcontexts 0 _ hc).2.trans (by decide +kernel)
  · exact (hcontexts 1 _ hd).1.trans (by decide +kernel)
  · exact (hcontexts 1 _ hd).2.trans (by decide +kernel)
  · exact ((hmetrics 0 _ hx .started).2 (hfits .started)).trans (by decide +kernel)
  · exact ((hmetrics 0 _ hx .failed).2 (hfits .failed)).trans (by decide +kernel)
  · exact ((hmetrics 0 _ hx .canceled).2 (hfits .canceled)).trans (by decide +kernel)

end Host

end FragmentHost

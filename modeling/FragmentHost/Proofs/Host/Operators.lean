import FragmentHost.Proofs.Context.Operators
import FragmentHost.Proofs.Host.Opening

/-!
# The statistics of contexts

A context is asked for operators, and batches are reported through the handles that it gives out. Whatever else
is asked of the host in between, the operators of a context are those that it was asked for, in that order, and
the totals of an operator are those of the batches that came through a handle with its type and its number
(`operators_kept_apart`), as words that wrap around.

Two invariants carry it. Every environment and every context has a profile of its own (`Housed`), so that what
is written for one of them shows nowhere else; and the profile of a context shows what was reported to it
(`Informed`). Both stay through every call (`reporting_actWith`). Most calls leave the statistics alone
(`Writes.sameStatistics`); what somebody else writes is taken to spare the profile of the context (`Unwritten`).
-/

namespace FragmentHost

/-- A call with those that concern the statistics of a context. -/
inductive StatisticsCall where
  | host (call : HostCall)
  /-- A batch of records, through the handle with this number among those of the context. -/
  | batch (context handle : Nat) (records : Int)
  /-- A look at the profile of the context, after some time. -/
  | refresh (context : Nat) (elapsed : Int)

/-- Where the statistics of a context are, and its operators. -/
def Context.statistics (c : Context) : Nat × List Operator := (c.profile, c.operators)

namespace Host

/-- The host after a call. -/
def actWith (h : Host) : StatisticsCall → Host
  | .host call => h.act call
  | .batch context handle records =>
    match h.context? context with
    | some c =>
      match c.operators[handle]? with
      | some o => h.modifyProfile c.profile (o.addBatch records)
      | none => h
    | none => h
  | .refresh context elapsed =>
    match h.context? context with
    | some c => h.refreshProfile c elapsed
    | none => h

/-- The host after calls, one after the other. -/
def actAllWith (h : Host) (calls : List StatisticsCall) : Host := calls.foldl actWith h

/-- What was reported to context `n`, after one more call. -/
def noting (h : Host) (n : Nat) (r : Reports) : StatisticsCall → Reports
  | .host (.addOperator context o) => if context = n ∧ n < h.contexts.length then r.addOperator o else r
  | .batch context handle records => if context = n then r.addBatch handle records else r
  | _ => r

/-- What was reported to context `n`, after calls. -/
def notingAll (h : Host) (n : Nat) (r : Reports) : List StatisticsCall → Reports
  | [] => r
  | call :: calls => (h.actWith call).notingAll n (h.noting n r call) calls

/-- The profiles with the metrics of environments. -/
def metricsPlaces (h : Host) : List Nat := h.environments.map (·.metrics)

/-- The profiles of contexts. -/
def statisticsPlaces (h : Host) : List Nat := h.contexts.map (·.profile)

/-- Every environment and every context has a profile of its own. -/
structure Housed (h : Host) : Prop where
  nodup : (h.metricsPlaces ++ h.statisticsPlaces).Nodup
  there : ∀ p ∈ h.metricsPlaces ++ h.statisticsPlaces, p < h.profiles.length

/-- The profile of context `n` shows what was reported to it. -/
structure Informed (h : Host) (n : Nat) (r : Reports) : Prop where
  shown : ∀ c, h.context? n = some c → c.operators = r.operators ∧ r.Shown (h.profile c.profile)
  /-- Nothing is reported to a context that is yet to be made. -/
  absent : h.context? n = none → r = {}

/-- Profiles are kept apart, and what is shown of context `n` is what was reported to it. -/
structure Reporting (h : Host) (n : Nat) (r : Reports) : Prop where
  housed : h.Housed
  informed : h.Informed n r

/-- From `h` to `g`, nothing was written but metrics, and no environment and no context was added. -/
structure SameStatistics (h g : Host) : Prop where
  contexts : g.contexts.map (·.statistics) = h.contexts.map (·.statistics)
  metrics : g.metricsPlaces = h.metricsPlaces
  length_eq : g.profiles.length = h.profiles.length
  profile : ∀ p ∉ h.metricsPlaces, g.profile p = h.profile p

variable {h g k : Host} {n : Nat} {c d : Context} {r : Reports}

-- ---------------------------------------------------------------------------
-- Profiles of one's own
-- ---------------------------------------------------------------------------

theorem metrics_mem {i : Nat} {e : Environment} (he : h.environment? i = some e) :
    e.metrics ∈ h.metricsPlaces :=
  List.mem_map_of_mem (List.mem_of_getElem? he)

theorem profile_mem (hc : h.context? n = some c) : c.profile ∈ h.statisticsPlaces :=
  List.mem_map_of_mem (List.mem_of_getElem? hc)

theorem Housed.lt (hh : h.Housed) (hc : h.context? n = some c) : c.profile < h.profiles.length :=
  hh.there _ (List.mem_append_right _ (profile_mem hc))

theorem Housed.notMem (hh : h.Housed) (hc : h.context? n = some c) : c.profile ∉ h.metricsPlaces :=
  fun hmetrics => List.disjoint_of_nodup_append hh.nodup hmetrics (profile_mem hc)

/-- Contexts with the same profile are the same. -/
theorem Housed.inj (hh : h.Housed) {m : Nat} (hc : h.context? n = some c) (hd : h.context? m = some d)
    (hsame : c.profile = d.profile) : n = m := by
  have hplace : ∀ {i x}, h.context? i = some x → h.statisticsPlaces[i]? = some x.profile := by
    intro i x hx
    rw [statisticsPlaces, List.getElem?_map, show h.contexts[i]? = some x from hx]
    rfl
  have hlt : n < h.statisticsPlaces.length := (List.getElem?_eq_some_iff.mp (hplace hc)).1
  have hnodup : h.statisticsPlaces.Nodup := hh.nodup.of_append_right
  exact (List.getElem?_inj hlt hnodup).mp ((hplace hc).trans (hsame ▸ (hplace hd).symm))

theorem Housed.of_eq (hh : h.Housed) (hmetrics : g.metricsPlaces = h.metricsPlaces)
    (hstatistics : g.statisticsPlaces = h.statisticsPlaces)
    (hlength : h.profiles.length ≤ g.profiles.length) : g.Housed := by
  constructor
  case nodup => exact hmetrics ▸ hstatistics ▸ hh.nodup
  case there =>
    rw [hmetrics, hstatistics]
    exact fun p hp => (hh.there p hp).trans_le hlength

/-- Who is new gets the next profile. -/
theorem Housed.moveIn (hh : h.Housed)
    (hplaces : (g.metricsPlaces ++ g.statisticsPlaces).Perm
      (h.profiles.length :: (h.metricsPlaces ++ h.statisticsPlaces)))
    (hlength : g.profiles.length = h.profiles.length + 1) : g.Housed := by
  constructor
  case nodup =>
    rw [hplaces.nodup_iff, List.nodup_cons]
    exact ⟨fun hmem => Nat.lt_irrefl _ (hh.there _ hmem), hh.nodup⟩
  case there =>
    intro p hp
    rw [hlength]
    rcases List.mem_cons.mp (hplaces.mem_iff.mp hp) with rfl | hold
    · exact Nat.lt_succ_self _
    · exact (hh.there p hold).trans (Nat.lt_succ_self _)

-- ---------------------------------------------------------------------------
-- What is known of a context
-- ---------------------------------------------------------------------------

/-- A context that stays as it is, with a profile that stays. -/
theorem Informed.stays (hi : h.Informed n r)
    (hcontext : (g.context? n).map (·.statistics) = (h.context? n).map (·.statistics))
    (hprofile : ∀ c, h.context? n = some c → g.profile c.profile = h.profile c.profile) :
    g.Informed n r := by
  constructor
  case shown =>
    intro d hd
    rw [hd, Option.map_some, eq_comm, Option.map_eq_some_iff] at hcontext
    obtain ⟨c, hc, hstatistics⟩ := hcontext
    obtain ⟨hplace, hoperators⟩ := Prod.mk.inj hstatistics
    obtain ⟨hlist, hshown⟩ := hi.shown c hc
    rw [← hoperators, ← hplace, hprofile c hc]
    exact ⟨hlist, hshown⟩
  case absent =>
    intro hnone
    rw [hnone, Option.map_none, eq_comm, Option.map_eq_none_iff] at hcontext
    exact hi.absent hcontext

theorem Informed.of_context (hc : h.context? n = some c) (hoperators : c.operators = r.operators)
    (hshown : r.Shown (h.profile c.profile)) : h.Informed n r := by
  constructor
  case shown =>
    intro d hd
    obtain rfl : c = d := Option.some.inj (hc.symm.trans hd)
    exact ⟨hoperators, hshown⟩
  case absent =>
    intro hnone
    simp [hc] at hnone

-- ---------------------------------------------------------------------------
-- Calls that leave the statistics alone
-- ---------------------------------------------------------------------------

namespace SameStatistics

theorem refl (h : Host) : h.SameStatistics h := ⟨rfl, rfl, rfl, fun _ _ => rfl⟩

theorem trans (hhg : h.SameStatistics g) (hgk : g.SameStatistics k) : h.SameStatistics k :=
  ⟨hgk.contexts.trans hhg.contexts, hgk.metrics.trans hhg.metrics, hgk.length_eq.trans hhg.length_eq,
    fun p hp => (hgk.profile p (hhg.metrics ▸ hp)).trans (hhg.profile p hp)⟩

theorem of_eq (hcontexts : g.contexts = h.contexts) (henvironments : g.environments = h.environments)
    (hprofiles : g.profiles = h.profiles) : h.SameStatistics g := by
  refine ⟨by rw [hcontexts], by rw [metricsPlaces, henvironments, metricsPlaces], by rw [hprofiles],
    fun p _ => ?_⟩
  rw [Host.profile, hprofiles, Host.profile]

theorem reporting (hs : h.SameStatistics g) (hr : h.Reporting n r) : g.Reporting n r := by
  obtain ⟨hh, hi⟩ := hr
  constructor
  case housed =>
    refine hh.of_eq hs.metrics ?_ hs.length_eq.ge
    have hplaces := congrArg (List.map Prod.fst) hs.contexts
    rwa [List.map_map, List.map_map] at hplaces
  case informed =>
    refine hi.stays ?_ fun c hc => hs.profile _ (hh.notMem hc)
    have hcontext : (g.contexts.map (·.statistics))[n]? = (h.contexts.map (·.statistics))[n]? := by
      rw [hs.contexts]
    rwa [List.getElem?_map, List.getElem?_map] at hcontext

end SameStatistics

theorem profile_modifyProfile_of_ne (h : Host) {p q : Nat} (hne : p ≠ q) (change : Profile → Profile) :
    (h.modifyProfile p change).profile q = h.profile q := by
  rw [profile, modifyProfile, List.getElem?_modify_ne _ _ hne, profile]

/-- The parts with environments, contexts and their profiles, but for the metrics. -/
def statisticsParts : List HostPart := [.profiles, .environments, .contexts, .operators, .surroundings]

theorem Store.sameStatistics {p : HostPart} (hs : h.Store p g) (hp : p ∉ statisticsParts) :
    h.SameStatistics g := by
  cases hs with
  | profiles | environments | contexts | operators | surroundings => simp [statisticsParts] at hp
  | metrics he metric =>
    refine ⟨rfl, rfl, List.length_modify .., fun p hp => ?_⟩
    refine profile_modifyProfile_of_ne h ?_ _
    rintro rfl
    exact hp (metrics_mem he)
  | adjust hc i =>
    refine ⟨map_modify_of_eq h.contexts i fun c => ?_, rfl, rfl, fun _ _ => rfl⟩
    cases hc <;> rfl
  | receivers i b => exact ⟨map_modify_of_eq h.contexts i fun _ => rfl, rfl, rfl, fun _ _ => rfl⟩
  | _ => exact .of_eq rfl rfl rfl

theorem Writes.sameStatistics {ps : List HostPart} (hw : Writes ps h g)
    (hps : HostPart.apart ps statisticsParts = true) : h.SameStatistics g :=
  hw.keeps SameStatistics.refl SameStatistics.trans (fun hp hs => hs.sameStatistics hp) hps

-- ---------------------------------------------------------------------------
-- New environments and contexts
-- ---------------------------------------------------------------------------

/-- Profiles that come last leave the others as they are. -/
theorem profile_of_append {ps : List Profile} (hprofiles : g.profiles = h.profiles ++ ps) {p : Nat}
    (hp : p < h.profiles.length) : g.profile p = h.profile p := by
  rw [profile, hprofiles, List.getElem?_append_left hp, profile]

theorem openEnvironment_made (h : Host) (root : Nat) (endpoint : Endpoint) (options : Option OptionStack)
    (services : Services) : ∃ e : Environment, e.metrics = h.profiles.length ∧
      (h.openEnvironment root endpoint options services).1.environments = h.environments ++ [e] ∧
      (h.openEnvironment root endpoint options services).1.contexts = h.contexts ∧
      (h.openEnvironment root endpoint options services).1.profiles =
        h.profiles ++ [Profile.empty Environment.metricsName] := by
  cases options <;> exact ⟨_, rfl, rfl, rfl, rfl⟩

theorem Reporting.openEnvironment (hr : h.Reporting n r) (root : Nat) (endpoint : Endpoint)
    (options : Option OptionStack) (services : Services) :
    (h.openEnvironment root endpoint options services).1.Reporting n r := by
  obtain ⟨e, hmetrics, henvironments, hcontexts, hprofiles⟩ :=
    openEnvironment_made h root endpoint options services
  obtain ⟨hh, hi⟩ := hr
  constructor
  case housed =>
    refine hh.moveIn ?_ (by rw [hprofiles, List.length_append, List.length_singleton])
    rw [metricsPlaces, henvironments, List.map_append, List.map_singleton, hmetrics, statisticsPlaces,
      hcontexts, List.append_assoc, List.singleton_append]
    exact List.perm_middle
  case informed =>
    refine hi.stays ?_ fun c hc => profile_of_append hprofiles (hh.lt hc)
    rw [context?, hcontexts, context?]

/-- A new context has the next profile. -/
theorem profile_of_openContext {number i registry : Nat} {e : Environment} {plan : PlanFragment}
    {session : Option UserSession} (ho : h.openContext number e plan session registry = (g, .ok i))
    (hcontexts : g.contexts = h.contexts ++ [c]) : c.profile = h.profiles.length := by
  obtain ⟨options, time, k, allocator, -, hk, hfurnish⟩ := openContext_granted ho
  have hbefore : Writes [.config, .memory, .journal, .metrics] h (k.count number Environment.started) :=
    (((writes_settings h).mono (by simp)).trans ((writes_newChild hk).mono (by simp))).trans
      ((writes_count k number Environment.started).mono (by simp))
  obtain ⟨rfl, -⟩ := Prod.mk.inj hfurnish
  rw [← (hbefore.sameRecords rfl).contexts_eq] at hcontexts
  have hnew : (k.count number Environment.started).contexts ++ [_] =
      (k.count number Environment.started).contexts ++ [c] := hcontexts
  obtain rfl := List.singleton_inj.mp (List.append_cancel_left hnew)
  exact (hbefore.sameStatistics rfl).length_eq

theorem Housed.openContext (hh : h.Housed) {number i registry : Nat} {e : Environment}
    {plan : PlanFragment} {session : Option UserSession} (he : h.environment? number = some e)
    (ho : h.openContext number e plan session registry = (g, .ok i)) : g.Housed := by
  obtain ⟨-, c, hopened, hmade⟩ := openContext_made he ho
  have hplace := profile_of_openContext ho hopened.contexts_eq
  refine hh.moveIn ?_ ?_
  · rw [metricsPlaces, hopened.environments_eq, statisticsPlaces, hopened.contexts_eq, List.map_append,
      List.map_singleton, hplace, ← List.append_assoc]
    exact List.perm_append_singleton _ _
  · rw [hmade.profiles_eq, List.length_append, List.length_singleton, modifyProfile, List.length_modify]

/-- The new context has nothing but a fresh profile; the others stay as they are. -/
theorem Informed.openContext (hi : h.Informed n r) (hh : h.Housed) {number i registry : Nat}
    {e : Environment} {plan : PlanFragment} {session : Option UserSession} (he : h.environment? number = some e)
    (ho : h.openContext number e plan session registry = (g, .ok i)) : g.Informed n r := by
  obtain ⟨-, c, hopened, hmade⟩ := openContext_made he ho
  have hlength : (h.modifyProfile e.metrics (·.addTo Environment.started .count 1)).profiles.length =
      h.profiles.length := List.length_modify ..
  by_cases hn : n = h.contexts.length
  · have hnone : h.context? n = none := List.getElem?_eq_none hn.ge
    have hnew : g.context? n = some c := by
      rw [context?, hopened.contexts_eq, hn, List.getElem?_concat_length]
    have hprofile : g.profile c.profile = FragmentProfile.start plan.handle plan.assignment := by
      rw [profile_of_openContext ho hopened.contexts_eq, profile, hmade.profiles_eq, ← hlength,
        List.getElem?_concat_length, Option.getD_some]
    rw [hi.absent hnone]
    exact .of_context hnew hmade.bare.1 (hprofile ▸ Reports.Shown.start plan.handle plan.assignment)
  · refine hi.stays ?_ fun d hd => ?_
    · rw [context?, hopened.contexts_eq, context?, List.getElem?_append]
      split
      · rfl
      · next hlt =>
        rw [List.getElem?_eq_none (by simp; omega), List.getElem?_eq_none (by omega)]
    · have hne : e.metrics ≠ d.profile := fun hsame => hh.notMem hd (hsame ▸ metrics_mem he)
      rw [profile_of_append hmade.profiles_eq (hlength ▸ hh.lt hd), profile_modifyProfile_of_ne h hne]

theorem Reporting.openContext (hr : h.Reporting n r) {number i registry : Nat} {e : Environment}
    {plan : PlanFragment} {session : Option UserSession} (he : h.environment? number = some e)
    (ho : h.openContext number e plan session registry = (g, .ok i)) : g.Reporting n r :=
  ⟨hr.housed.openContext he ho, hr.informed.openContext hr.housed he ho⟩

-- ---------------------------------------------------------------------------
-- Operators and batches
-- ---------------------------------------------------------------------------

theorem Housed.modifyProfile (hh : h.Housed) (p : Nat) (change : Profile → Profile) :
    (h.modifyProfile p change).Housed :=
  hh.of_eq rfl rfl (List.length_modify ..).ge

/-- What is written for another context does not show. -/
theorem Informed.modifyOther (hi : h.Informed n r) (hh : h.Housed) {m : Nat} {d : Context}
    (hd : h.context? m = some d) (hne : m ≠ n) (change : Profile → Profile) :
    (h.modifyProfile d.profile change).Informed n r :=
  hi.stays rfl fun _ hc => profile_modifyProfile_of_ne h (fun hsame => hne (hh.inj hd hc hsame)) change

/-- What is written for a context whose operators stay. -/
theorem Reporting.write (hr : h.Reporting n r) {m : Nat} {d : Context} (hd : h.context? m = some d)
    {change : Profile → Profile} {later : Reports}
    (hself : m = n → d.operators = r.operators → r.Shown (h.profile d.profile) →
      later.operators = r.operators ∧ later.Shown (change (h.profile d.profile)))
    (hother : m ≠ n → later = r) : (h.modifyProfile d.profile change).Reporting n later := by
  obtain ⟨hh, hi⟩ := hr
  refine ⟨hh.modifyProfile d.profile change, ?_⟩
  by_cases hm : m = n
  · subst hm
    obtain ⟨hoperators, hshown⟩ := hi.shown d hd
    obtain ⟨hsame, hlater⟩ := hself rfl hoperators hshown
    refine .of_context hd (hoperators.trans hsame.symm) ?_
    rw [profile_modifyProfile h d.profile d.profile change (hh.lt hd), if_pos rfl]
    exact hlater
  · rw [hother hm]
    exact hi.modifyOther hh hd hm change

theorem Reporting.addOperator (hr : h.Reporting n r) {m : Nat} {d : Context}
    (hd : h.context? m = some d) (o : Operator) :
    (h.addOperator m d o).Reporting n (if m = n then r.addOperator o else r) := by
  obtain ⟨hh, hi⟩ := hr
  constructor
  case housed =>
    have hplaces : (h.addOperator m d o).statisticsPlaces = h.statisticsPlaces :=
      map_modify_of_eq h.contexts m fun _ => rfl
    exact (hh.modifyProfile d.profile o.enter).of_eq rfl hplaces le_rfl
  case informed =>
    by_cases hm : m = n
    · subst hm
      rw [if_pos rfl]
      obtain ⟨hoperators, hshown⟩ := hi.shown d hd
      have hadded : (h.addOperator m d o).context? m = some { d with operators := d.operators ++ [o] } := by
        show (h.contexts.modify m _)[m]? = _
        rw [List.getElem?_modify_eq, show h.contexts[m]? = some d from hd]
        rfl
      refine .of_context hadded (congrArg (· ++ [o]) hoperators) ?_
      show (r.addOperator o).Shown ((h.modifyProfile d.profile o.enter).profile d.profile)
      rw [profile_modifyProfile h d.profile d.profile o.enter (hh.lt hd), if_pos rfl]
      exact hshown.enter o
    · rw [if_neg hm]
      refine (hi.modifyOther hh hd hm o.enter).stays ?_ fun _ _ => rfl
      rw [context?, Host.addOperator, modifyContext, List.getElem?_modify_ne _ _ hm]
      rfl

/-- A batch through a handle that there is not is none. -/
theorem Reporting.unheard (hr : h.Reporting n r) {m handle : Nat} (records : Int)
    (hnone : m = n → r.operators[handle]? = none) :
    h.Reporting n (if m = n then r.addBatch handle records else r) := by
  split
  · next hm =>
    rw [Reports.addBatch_of_none (hnone hm)]
    exact hr
  · exact hr

-- ---------------------------------------------------------------------------
-- Runs
-- ---------------------------------------------------------------------------

/-- What happens elsewhere loses no profile and spares the one of context `n`. -/
def Spared (h : Host) (n : Nat) : StatisticsCall → Prop
  | .host (.elsewhere s) => h.profiles.length ≤ s.profiles.length ∧
    ∀ c, h.context? n = some c → (h.within s).profile c.profile = h.profile c.profile
  | _ => True

/-- Nobody else writes the profile of context `n` in a run. -/
def Unwritten (h : Host) (n : Nat) : List StatisticsCall → Prop
  | [] => True
  | call :: calls => h.Spared n call ∧ (h.actWith call).Unwritten n calls

theorem reporting_act (hr : h.Reporting n r) {call : HostCall} (hs : h.Spared n (.host call)) :
    (h.act call).Reporting n (h.noting n r (.host call)) := by
  cases call with
  | openEnvironment root endpoint options services =>
    rw [act]
    split
    · have hroot := ((writes_rootFor h root).sameStatistics rfl).reporting hr
      exact hroot.openEnvironment _ endpoint options services
    · exact hr
  | openContext number plan session registry =>
    rw [act]
    split
    · next e he =>
      cases ho : h.openContext number e plan session registry with
      | mk g outcome =>
        cases outcome with
        | error refusal => exact ((writes_openContext_error ho).sameStatistics rfl).reporting hr
        | ok i => exact hr.openContext he ho
    · exact hr
  | addOperator i o =>
    rw [act, noting]
    split
    · next c hc =>
      have hlt : i < h.contexts.length := (List.getElem?_eq_some_iff.mp hc).1
      have hthere : (i = n ∧ n < h.contexts.length) ↔ i = n := and_iff_left_of_imp fun heq => heq ▸ hlt
      rw [if_congr hthere rfl rfl]
      exact hr.addOperator hc o
    · next hnone =>
      have hge : h.contexts.length ≤ i := List.getElem?_eq_none_iff.mp hnone
      rw [if_neg fun hboth => (hboth.1 ▸ hge).not_gt hboth.2]
      exact hr
  | elsewhere s => exact ⟨hr.housed.of_eq rfl rfl hs.1, hr.informed.stays rfl hs.2⟩
  | _ => exact ((writes_act h _).sameStatistics rfl).reporting hr

/-- Whatever is asked of a host, what it shows of a context is what was reported to the context. -/
theorem reporting_actWith (hr : h.Reporting n r) {call : StatisticsCall} (hs : h.Spared n call) :
    (h.actWith call).Reporting n (h.noting n r call) := by
  cases call with
  | host call => exact reporting_act hr hs
  | batch i handle records =>
    rw [actWith, noting]
    split
    · next c hc =>
      have hhandle (hin : i = n) : c.operators[handle]? = r.operators[handle]? := by
        rw [(hr.informed.shown c (hin ▸ hc)).1]
      split
      · next o ho =>
        refine hr.write hc (fun hin _ hshown => ?_) fun hin => if_neg hin
        rw [hhandle hin] at ho
        rw [if_pos hin]
        exact ⟨rfl, hshown.addBatch ho records⟩
      · next hnone => exact hr.unheard records fun hin => (hhandle hin).symm.trans hnone
    · next hnone =>
      refine hr.unheard records fun hin => ?_
      rw [hr.informed.absent (hin ▸ hnone)]
      rfl
  | refresh i elapsed =>
    rw [actWith]
    split
    · next c hc =>
      exact hr.write hc (fun _ _ hshown => ⟨rfl, hshown.refresh elapsed _⟩) fun _ => rfl
    · exact hr

theorem reporting_actAllWith (hr : h.Reporting n r) {calls : List StatisticsCall}
    (hu : h.Unwritten n calls) : (h.actAllWith calls).Reporting n (h.notingAll n r calls) := by
  induction calls generalizing h r with
  | nil => exact hr
  | cons call calls ih => exact ih (reporting_actWith hr hu.1) hu.2

/-- At first there is neither an environment nor a context. -/
theorem reporting_ofProcess (process : Process) (n : Nat) :
    (Session.ofProcess process).host.Reporting n {} := by
  have hcontexts : (Session.ofProcess process).host.contexts = [] := rfl
  have henvironments : (Session.ofProcess process).host.environments = [] := rfl
  constructor
  case housed => constructor <;> simp [metricsPlaces, statisticsPlaces, hcontexts, henvironments]
  case informed => constructor <;> simp [context?, hcontexts]

/-- After any run that nobody else writes into, a context has the operators that it was asked for, in that order.
Each of them has a node of its own below the profile, with the number and the records of the batches that came
through a handle with its type and its number and nothing else; it is not the node for memory. -/
theorem operators_kept_apart (process : Process) (calls : List StatisticsCall) (n : Nat) {h : Host}
    (hh : h = (Session.ofProcess process).host.actAllWith calls) {r : Reports}
    (hr : r = (Session.ofProcess process).host.notingAll n {} calls)
    (hu : (Session.ofProcess process).host.Unwritten n calls) {c : Context}
    (hc : h.context? n = some c) :
    c.operators = r.operators ∧
    (∀ o ∈ c.operators,
      o.total Operator.batches (h.profile c.profile) = Word.wrap (r.recordsOf o).length ∧
      o.total Operator.records (h.profile c.profile) = Word.wrap (r.recordsOf o).sum ∧
      (h.profile c.profile).child? o.node = some (r.node o) ∧ o.node ≠ Profile.chartNode) ∧
    ∀ o p : Operator, o.node = p.node ↔ o = p := by
  subst hh hr
  have hreporting := reporting_actAllWith (reporting_ofProcess process n) hu
  obtain ⟨hoperators, hshown⟩ := hreporting.informed.shown c hc
  refine ⟨hoperators, fun o ho => ?_, fun _ _ => Operator.node_inj⟩
  rw [hoperators] at ho
  refine ⟨hshown.total_batches ho, hshown.total_records ho, ?_, o.node_ne_chartNode⟩
  rw [hshown.child o, if_pos ho]

/-- A context that is asked for the same operator twice, and for one whose type reads like the node of the
first. Batches come through all three handles, through one that there is not, and when the context was closed.
Another context has an operator of the same type and number, and somebody else makes a profile. -/
def mixedReports : List StatisticsCall :=
  let node : Endpoint := ⟨"localhost", 31010, 31011, 31012⟩
  let plan : PlanFragment := ⟨⟨⟨0, 1⟩, 1, 0⟩, 0, -1, none, node, node, 0, "UTC"⟩
  HostCall.plainServices.map .host ++
  [.host (.root "root" 1000), .host (.openEnvironment (some 0) node none ⟨0, 0, 0⟩),
    .host (.elsewhere ⟨[], [Profile.empty Environment.metricsName, Profile.empty "scratch"], [], {}, {}⟩),
    .host (.openContext 0 plan none 0), .host (.openContext 0 plan none 0),
    .host (.addOperator 0 ⟨3, "Scan"⟩), .host (.addOperator 0 ⟨-1, "Scan (id=3)"⟩),
    .host (.addOperator 1 ⟨3, "Scan"⟩), .batch 0 0 10, .batch 0 1 9223372036854775807, .batch 1 0 100,
    .host (.addOperator 0 ⟨3, "Scan"⟩), .batch 0 2 5, .refresh 0 7, .batch 0 3 1, .host (.closeContext 0),
    .batch 0 1 1]

/-- The host after that run. -/
def mixedReportsHost : Host := (Session.ofProcess {}).host.actAllWith mixedReports

/-- There is no context yet when somebody else makes a profile. -/
theorem unwritten_mixedReports : (Session.ofProcess {}).host.Unwritten 0 mixedReports := by
  refine ⟨trivial, trivial, trivial, trivial, trivial, ⟨by decide +kernel, fun c hc => ?_⟩, trivial, trivial,
    trivial, trivial, trivial, trivial, trivial, trivial, trivial, trivial, trivial, trivial, trivial, trivial,
    trivial⟩
  have hnone : (none : Option Context) = some c := hc
  exact absurd hnone (by simp)

theorem operators_kept_apart_mixedReports :
    ∃ c, mixedReportsHost.context? 0 = some c ∧
      c.operators = [⟨3, "Scan"⟩, ⟨-1, "Scan (id=3)"⟩, ⟨3, "Scan"⟩] ∧
      Operator.total ⟨3, "Scan"⟩ Operator.batches (mixedReportsHost.profile c.profile) = 2 ∧
      Operator.total ⟨3, "Scan"⟩ Operator.records (mixedReportsHost.profile c.profile) = 15 ∧
      Operator.total ⟨-1, "Scan (id=3)"⟩ Operator.batches (mixedReportsHost.profile c.profile) = 2 ∧
      Operator.total ⟨-1, "Scan (id=3)"⟩ Operator.records (mixedReportsHost.profile c.profile) =
        Word.smallest := by
  have hc : mixedReportsHost.context? 0 = some ((mixedReportsHost.context? 0).get (by decide +kernel)) :=
    (Option.some_get _).symm
  obtain ⟨hlist, hkept, -⟩ := operators_kept_apart {} mixedReports 0 (h := mixedReportsHost) rfl rfl
    unwritten_mixedReports hc
  have hasked : ((Session.ofProcess {}).host.notingAll 0 {} mixedReports).operators =
      [⟨3, "Scan"⟩, ⟨-1, "Scan (id=3)"⟩, ⟨3, "Scan"⟩] := by decide +kernel
  rw [hlist, hasked] at hkept
  obtain ⟨hbatches, hrecords, -⟩ := hkept ⟨3, "Scan"⟩ (by decide)
  obtain ⟨hbatches', hrecords', -⟩ := hkept ⟨-1, "Scan (id=3)"⟩ (by decide)
  exact ⟨_, hc, hlist.trans hasked, hbatches.trans (by decide +kernel), hrecords.trans (by decide +kernel),
    hbatches'.trans (by decide +kernel), hrecords'.trans (by decide +kernel)⟩

end Host

end FragmentHost

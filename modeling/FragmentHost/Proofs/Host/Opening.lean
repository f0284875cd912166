import FragmentHost.Proofs.Host.Metrics
import FragmentHost.Proofs.Memory.Atomicity

/-!
# Making a context

Three things can go wrong when a context is made: its options, the time of its query, and the reservation
under the root of its environment. A failure is one of the setup and leaves the host as it was, apart from
the configuration that was read for it (`openContext_error`). Otherwise the reservation is made, the start
is counted, and there is a new context without anything (`openContext_made`).

`Host.openContext` answers each failure with a host in which nothing was written yet. Here the steps are
also taken on one host that is written in place, down to the figures of the allocators
(`openInPlace`). The two agree (`openInPlace_eq`), so that what fails comes before what is written.

Starts are counted in the profile of the environment. Whatever is asked of a host, its environments keep
their profiles (`placed_act`).
-/

namespace FragmentHost

-- ---------------------------------------------------------------------------
-- What can go wrong
-- ---------------------------------------------------------------------------

/-- The failure is one of the setup. -/
def Failure.IsSetup (f : Failure) : Prop := ∃ text, f = .setup text

theorem PlanOption.isSetup_of_ofPlan {text : Option String} {f : Failure}
    (h : ofPlan text = .error f) : f.IsSetup := by
  unfold ofPlan at h
  cases text with
  | none => simp at h
  | some text =>
    dsimp only at h
    split at h
    · simp at h
    · split at h
      · split at h
        · exact ⟨_, (Except.error.inj h).symm⟩
        · split at h
          · next fault hfault =>
            -- an option without a value of its kind
            obtain ⟨o, -, ho⟩ := List.exists_of_findSome?_eq_some hfault
            rw [fault?] at ho
            split at ho
            · simp at ho
            · exact ⟨_, (Except.error.inj h).symm.trans (Option.some.inj ho).symm⟩
          · simp at h
      · exact ⟨_, (Except.error.inj h).symm⟩

theorem QueryTime.isSetup_of_make {zones : ZoneTable} {millis : Int} {zone : String} {f : Failure}
    (h : make zones millis zone = .error f) : f.IsSetup := by
  unfold make at h
  split at h
  · exact ⟨_, (Except.error.inj h).symm⟩
  · split at h
    · simp at h
    · exact ⟨_, (Except.error.inj h).symm⟩

namespace Host

variable {h g k : Host} {number n registry : Nat} {e : Environment} {plan : PlanFragment}
  {session : Option UserSession}

theorem isSetup_of_prepare {zones : ZoneTable} {f : Failure} (h : prepare zones e plan = .error f) :
    f.IsSetup := by
  unfold prepare at h
  split at h
  · next hoptions => exact Except.error.inj h ▸ PlanOption.isSetup_of_ofPlan hoptions
  · split at h
    · next htime => exact Except.error.inj h ▸ QueryTime.isSetup_of_make htime
    · simp at h

/-- A context that could not be made leaves the host as it was, apart from the configuration. -/
theorem openContext_error {f : Failure}
    (ho : h.openContext number e plan session registry = (g, .error f)) :
    f.IsSetup ∧ g = { h with config := g.config } := by
  unfold openContext at ho
  split at ho
  · next hprepare =>
    obtain ⟨rfl, hf⟩ := Prod.mk.inj ho
    exact ⟨Except.error.inj hf ▸ isSetup_of_prepare hprepare, rfl⟩
  · dsimp only at ho
    split at ho
    · obtain ⟨rfl, hf⟩ := Prod.mk.inj ho
      exact ⟨⟨_, (Except.error.inj hf).symm⟩, rfl⟩
    · simp at ho

-- ---------------------------------------------------------------------------
-- What is made
-- ---------------------------------------------------------------------------

theorem count_of_environment {metric : String} (he : h.environment? number = some e) :
    h.count number metric = h.modifyProfile e.metrics (·.addTo metric .count 1) := by
  rw [count, he]

/-- A new context: what it adds, and that nothing else of memory and profiles changes. -/
structure Made (h g : Host) (e : Environment) (plan : PlanFragment) (c : Context) : Prop where
  profiles_eq : g.profiles = (h.modifyProfile e.metrics (·.addTo Environment.started .count 1)).profiles ++
    [FragmentProfile.start plan.handle plan.assignment]
  buffers_eq : g.arena.buffers = h.arena.buffers
  pools_eq : ∃ pool, g.arena.pools = h.arena.pools ++ [pool] ∧ pool.tracked = some []
  pool_eq : c.pool = h.arena.pools.length
  bare : c.operators = [] ∧ c.tunnels = []

theorem openContext_made (he : h.environment? number = some e)
    (ho : h.openContext number e plan session registry = (g, .ok n)) :
    n = h.contexts.length ∧ ∃ c, h.Opened g number e plan c ∧ h.Made g e plan c := by
  obtain ⟨hn, c, hopened⟩ := openContext_ok ho
  obtain ⟨options, time, k, allocator, -, hk, hfurnish⟩ := openContext_granted ho
  have hbefore : Writes [.config, .memory, .journal] h k :=
    ((writes_settings h).mono (by simp)).trans ((writes_newChild hk).mono (by simp))
  have hsame := hbefore.sameRecords rfl
  have hstill : k.environment? number = some e := by
    rw [environment?, hsame.environments_eq]
    exact he
  have harena := arena_newChild hk
  rw [furnish, count_of_environment hstill] at hfurnish
  obtain ⟨rfl, -⟩ := Prod.mk.inj hfurnish
  refine ⟨hn, c, hopened, ?_⟩
  -- the new context is the last one on both sides
  have hlast := hopened.contexts_eq
  rw [← hsame.contexts_eq] at hlast
  obtain rfl := List.singleton_inj.mp (List.append_cancel_left hlast)
  have hpools : ∀ pool, k.arena.pools ++ [pool] = h.arena.pools ++ [pool] := by
    rw [harena]
    exact fun _ => rfl
  refine ⟨?_, ?_, ⟨_, hpools _, rfl⟩, ?_, rfl, rfl⟩
  · show (k.modifyProfile e.metrics _).profiles ++ _ = _
    rw [modifyProfile, hbefore.profiles_eq rfl]
    rfl
  · show k.arena.buffers = _
    rw [harena]
    rfl
  · show k.arena.pools.length = _
    rw [harena]
    rfl

-- ---------------------------------------------------------------------------
-- The steps
-- ---------------------------------------------------------------------------

/-- A context made in steps. The host that comes back is the one that was written in until the context was
made or a step failed; the allocator of the context is the next one. -/
def openInPlace (h : Host) (number : Nat) (e : Environment) (p : PlanFragment)
    (session : Option UserSession) (registry : Nat) : Host × Except Failure Nat :=
  match PlanOption.ofPlan p.options with
  | .error f => (h, .error f)
  | .ok overrides =>
    match QueryTime.make h.zones p.start p.zone with
    | .error f => (h, .error f)
    | .ok time =>
      let (config, h) := h.settings
      let owner := p.handle.ownerText
      match h.forest.newChildInPlace e.root owner p.initial p.max config.applyFragmentLimit with
      -- whatever was written of the reservation stays written
      | (f, some refusal) => (h.withForest f, .error (Context.withoutMemory refusal))
      | (f, none) =>
        let allocator := h.forest.nodes.length
        let h := (h.withForest f).log
          (Allocator.creationEvent (f.label e.root) owner p.initial p.max config.applyFragmentLimit)
        let options := e.options.push (Overrides.ofList overrides)
        let (h, n) := h.furnish number p session registry options time allocator
        (h, .ok n)

/-- The steps end where the answer says: with a context, or with nothing written. -/
theorem openInPlace_eq (hf : h.forest.Linked) (number : Nat) (e : Environment) (plan : PlanFragment)
    (session : Option UserSession) (registry : Nat) :
    h.openInPlace number e plan session registry = h.openContext number e plan session registry := by
  unfold openInPlace openContext prepare
  cases PlanOption.ofPlan plan.options with
  | error f => rfl
  | ok overrides =>
    dsimp only
    cases QueryTime.make h.zones plan.start plan.zone with
    | error f => rfl
    | ok time =>
      dsimp only
      have hsettings : h.settings.2.forest = h.forest := rfl
      rw [hsettings, Forest.newChildInPlace_eq hf, newChild, hsettings]
      cases hm : h.forest.newChild e.root plan.handle.ownerText plan.initial plan.max
        h.settings.1.applyFragmentLimit with
      | error refusal => rfl
      | ok made =>
        obtain ⟨f, allocator⟩ := made
        obtain ⟨rfl, -⟩ := Forest.made_of_newChild hf hm
        rfl

-- ---------------------------------------------------------------------------
-- Where starts are counted
-- ---------------------------------------------------------------------------

/-- From `h` to `g` environments kept the places of their metrics, and no profile was lost. -/
structure Tends (h g : Host) : Prop where
  environments : ∀ n, (g.environment? n).map (·.metrics) = (h.environment? n).map (·.metrics)
  length_le : h.profiles.length ≤ g.profiles.length

/-- Each environment has a profile for its metrics. -/
def Placed (h : Host) : Prop := ∀ n e, h.environment? n = some e → e.metrics < h.profiles.length

theorem Placed.tends (hp : h.Placed) (ht : h.Tends g) : g.Placed := by
  intro n e he
  have hbefore := ht.environments n
  rw [he, Option.map_some, eq_comm, Option.map_eq_some_iff] at hbefore
  obtain ⟨e', he', hsame⟩ := hbefore
  exact hsame ▸ (hp n e' he').trans_le ht.length_le

theorem Tends.of_le (henvironments : g.environments = h.environments)
    (hlength : h.profiles.length ≤ g.profiles.length) : h.Tends g := by
  refine ⟨fun n => ?_, hlength⟩
  rw [environment?, henvironments, environment?]

theorem Tends.refl (h : Host) : h.Tends h := .of_le rfl le_rfl

theorem Tends.trans (hhg : h.Tends g) (hgk : g.Tends k) : h.Tends k :=
  ⟨fun n => (hgk.environments n).trans (hhg.environments n), hhg.length_le.trans hgk.length_le⟩

theorem Store.tends {p : HostPart} (hs : h.Store p g) (hp : p ∉ [.environments, .surroundings]) :
    h.Tends g := by
  cases hs with
  | environments | surroundings => simp at hp
  | profiles p => exact .of_le rfl (by simp)
  | metrics | operators => exact .of_le rfl (List.length_modify ..).ge
  | _ => exact .of_le rfl le_rfl

theorem Writes.tends {ps : List HostPart} (hw : Writes ps h g)
    (hps : HostPart.apart ps [.environments, .surroundings] = true) : h.Tends g :=
  hw.keeps Tends.refl Tends.trans (fun hp hs => hs.tends hp) hps

/-- What happens elsewhere loses no profile. -/
def Tended (h : Host) : HostCall → Prop
  | .elsewhere s => h.Tends (h.within s)
  | _ => True

/-- A new environment comes with a new profile. -/
theorem Placed.openEnvironment (hp : h.Placed) (root : Nat) (endpoint : Endpoint)
    (options : Option OptionStack) (services : Services) :
    (h.openEnvironment root endpoint options services).1.Placed := by
  have hoptions := writes_optionsFor (h.addProfile (Profile.empty Environment.metricsName)).1 options
  have hadded : h.Tends ((h.addProfile (Profile.empty Environment.metricsName)).1.optionsFor options).1 :=
    (writes_addProfile h _).tends rfl |>.trans (hoptions.tends rfl)
  intro n e he
  rcases List.mem_append.mp (List.mem_of_getElem? he) with hold | hnew
  · obtain ⟨i, hi⟩ := List.mem_iff_getElem?.mp hold
    exact hp.tends hadded i e hi
  · rw [List.mem_singleton.mp hnew]
    show h.profiles.length < _
    have hprofiles := hoptions.profiles_eq rfl
    have hlength := congrArg List.length hprofiles
    exact lt_of_lt_of_eq (by simp [addProfile]) hlength.symm

/-- Whatever is asked of a host, its environments have profiles for their metrics. -/
theorem placed_act (hp : h.Placed) {call : HostCall} (ht : h.Tended call) : (h.act call).Placed := by
  cases call with
  | openEnvironment root endpoint options services =>
    rw [act]
    split
    · exact (hp.tends ((writes_rootFor h root).tends rfl)).openEnvironment _ endpoint options services
    · exact hp
  | elsewhere s => exact hp.tends ht
  | _ => exact hp.tends ((writes_act h _).tends rfl)

/-- What happens elsewhere in a run loses no profile. -/
def TendedAll (h : Host) : List HostCall → Prop
  | [] => True
  | call :: calls => h.Tended call ∧ (h.act call).TendedAll calls

theorem TendedAll.append {calls later : List HostCall} (hcalls : h.TendedAll calls)
    (hlater : (h.actAll calls).TendedAll later) : h.TendedAll (calls ++ later) := by
  induction calls generalizing h with
  | nil => exact hlater
  | cons call calls ih => exact ⟨hcalls.1, ih hcalls.2 hlater⟩

theorem placed_actAll {calls : List HostCall} (hp : h.Placed) (ht : h.TendedAll calls) :
    (h.actAll calls).Placed := by
  induction calls generalizing h with
  | nil => exact hp
  | cons call calls ih => exact ih (placed_act hp ht.1) ht.2

end Host

end FragmentHost

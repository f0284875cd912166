import FragmentHost.Proofs.Host.Conservation

/-!
# What a context is connected with

A context draws from an allocator of its own under the root of its environment, and its pool draws from
the same allocator. That is settled when the context is made, and nothing that is asked of the host
changes it. `Host.Rewires` lists what may change of contexts and environments without making a context; every
other store is one of these changes (`Store.rewires`), and `wired_act` carries the connections through any
run.
-/

namespace FragmentHost

/-- `d` is what became of context `c`. -/
structure Context.Follows (c d : Context) : Prop where
  fragment_eq : d.fragment = c.fragment
  environment_eq : d.environment = c.environment
  allocator_eq : d.allocator = c.allocator
  pool_eq : d.pool = c.pool
  deferred_sound : c.deferred.Sound → d.deferred.Sound

theorem Context.Follows.refl (c : Context) : c.Follows c := ⟨rfl, rfl, rfl, rfl, id⟩

theorem Context.Follows.trans {b c d : Context} (hbc : b.Follows c) (hcd : c.Follows d) :
    b.Follows d :=
  ⟨hcd.fragment_eq.trans hbc.fragment_eq, hcd.environment_eq.trans hbc.environment_eq,
    hcd.allocator_eq.trans hbc.allocator_eq, hcd.pool_eq.trans hbc.pool_eq,
    fun hs => hcd.deferred_sound (hbc.deferred_sound hs)⟩

/-- A change of one part of a context leaves its connections alone; it has no other incoming buffers then. -/
theorem Context.Adjusts.follows {part : HostPart} {change : Context → Context}
    (h : Adjusts part change) (c : Context) :
    c.Follows (change c) ∧ ∀ i, (change c).incoming = some i → c.incoming = some i := by
  cases h with
  | state | tunnels => exact ⟨⟨rfl, rfl, rfl, rfl, id⟩, fun _ hi => hi⟩
  | failures hsound => exact ⟨⟨rfl, rfl, rfl, rfl, hsound _⟩, fun _ hi => hi⟩
  | closing hsound => exact ⟨⟨rfl, rfl, rfl, rfl, fun _ => hsound⟩, fun _ hi => by simp at hi⟩

namespace Host

-- ---------------------------------------------------------------------------
-- What stays on record
-- ---------------------------------------------------------------------------

/-- Contexts, environments and incoming buffers are the same. -/
structure SameRecords (h g : Host) : Prop where
  contexts_eq : g.contexts = h.contexts
  environments_eq : g.environments = h.environments
  incoming_eq : g.incoming = h.incoming

theorem SameRecords.refl (h : Host) : h.SameRecords h := ⟨rfl, rfl, rfl⟩

theorem SameRecords.trans {h g k : Host} (hhg : h.SameRecords g) (hgk : g.SameRecords k) :
    h.SameRecords k :=
  ⟨hgk.contexts_eq.trans hhg.contexts_eq, hgk.environments_eq.trans hhg.environments_eq,
    hgk.incoming_eq.trans hhg.incoming_eq⟩

/-- The parts that contexts, environments and incoming buffers are in. -/
def recordParts : List HostPart :=
  [.environments, .contexts, .states, .failures, .tunnels, .closing, .receivers, .operators, .incoming]

theorem Store.sameRecords {h g : Host} {p : HostPart} (hs : h.Store p g) (hp : p ∉ recordParts) :
    h.SameRecords g := by
  cases hs with
  | environments | contexts | receivers | operators | incoming => simp [recordParts] at hp
  | adjust hc => cases hc <;> simp [recordParts] at hp
  | _ => exact ⟨rfl, rfl, rfl⟩

theorem Writes.sameRecords {h g : Host} {ps : List HostPart} (hw : Writes ps h g)
    (hps : HostPart.apart ps recordParts = true) : h.SameRecords g :=
  hw.keeps SameRecords.refl SameRecords.trans (fun hp hs => hs.sameRecords hp) hps

/-- The parts that profiles are in. -/
def profileParts : List HostPart := [.metrics, .profiles, .operators, .surroundings]

theorem Store.profiles_eq {h g : Host} {p : HostPart} (hs : h.Store p g) (hp : p ∉ profileParts) :
    g.profiles = h.profiles := by
  cases hs with
  | metrics | profiles | operators | surroundings => simp [profileParts] at hp
  | _ => rfl

theorem Writes.profiles_eq {h g : Host} {ps : List HostPart} (hw : Writes ps h g)
    (hps : HostPart.apart ps profileParts = true) : g.profiles = h.profiles :=
  hw.same (fun hp hs => hs.profiles_eq hp) hps

-- ---------------------------------------------------------------------------
-- What calls may change
-- ---------------------------------------------------------------------------

/-- The contexts of `g` are those of `h`, further on; environments keep their roots, and incoming
buffers are only added. -/
structure Rewires (h g : Host) : Prop where
  length_eq : g.contexts.length = h.contexts.length
  contexts : ∀ n d, g.context? n = some d → ∃ c, h.context? n = some c ∧ c.Follows d ∧
    ∀ i, d.incoming = some i → c.incoming = some i ∨ i < g.incoming.length
  environments : ∀ i e, h.environment? i = some e → ∃ e', g.environment? i = some e' ∧ e'.root = e.root
  incoming : h.incoming.length ≤ g.incoming.length

theorem Rewires.of_eq {h g : Host} (hcontexts : g.contexts = h.contexts)
    (henvironments : g.environments = h.environments) (hincoming : g.incoming = h.incoming) :
    h.Rewires g := by
  refine ⟨by rw [hcontexts], fun n d hd => ⟨d, ?_, Context.Follows.refl d, fun i hi => Or.inl hi⟩,
    fun i e he => ⟨e, ?_, rfl⟩, hincoming ▸ le_rfl⟩
  · rw [context?, hcontexts] at hd
    exact hd
  · rw [environment?, henvironments]
    exact he

theorem SameRecords.rewires {h g : Host} (hs : h.SameRecords g) : h.Rewires g :=
  .of_eq hs.contexts_eq hs.environments_eq hs.incoming_eq

theorem Rewires.refl (h : Host) : h.Rewires h := .of_eq rfl rfl rfl

theorem Rewires.trans {h g k : Host} (hhg : h.Rewires g) (hgk : g.Rewires k) : h.Rewires k := by
  refine ⟨hgk.length_eq.trans hhg.length_eq, ?_, ?_, hhg.incoming.trans hgk.incoming⟩
  · intro n d hd
    obtain ⟨c, hc, hcd, hin⟩ := hgk.contexts n d hd
    obtain ⟨b, hb, hbc, hin'⟩ := hhg.contexts n c hc
    refine ⟨b, hb, hbc.trans hcd, fun i hi => ?_⟩
    rcases hin i hi with hi | hi
    · rcases hin' i hi with hi | hi
      · exact Or.inl hi
      · exact Or.inr (hi.trans_le hgk.incoming)
    · exact Or.inr hi
  · intro i e he
    obtain ⟨e', he', hroot⟩ := hhg.environments i e he
    obtain ⟨e'', he'', hroot'⟩ := hgk.environments i e' he'
    exact ⟨e'', he'', hroot'.trans hroot⟩

theorem rewires_modifyContext (h : Host) (n : Nat) {change : Context → Context}
    (hchange : ∀ c : Context, c.Follows (change c))
    (hincoming : ∀ (c : Context) (i : Nat), (change c).incoming = some i →
      c.incoming = some i ∨ i < h.incoming.length) :
    h.Rewires (h.modifyContext n change) := by
  refine ⟨List.length_modify .., fun m d hd => ?_, fun i e he => ⟨e, he, rfl⟩, le_rfl⟩
  have hd' : (h.contexts.modify n change)[m]? = some d := hd
  rw [List.getElem?_modify] at hd'
  obtain ⟨c, hc, rfl⟩ := Option.map_eq_some_iff.mp hd'
  refine ⟨c, hc, ?_⟩
  split
  · exact ⟨hchange c, fun i hi => hincoming c i hi⟩
  · exact ⟨Context.Follows.refl c, fun i hi => Or.inl hi⟩

theorem rewires_addIncoming (h : Host) (b : IncomingBuffers) :
    h.Rewires { h with incoming := h.incoming ++ [b] } :=
  ⟨rfl, fun _ d hd => ⟨d, hd, Context.Follows.refl d, fun _ hi => Or.inl hi⟩, fun _ e he => ⟨e, he, rfl⟩,
    by simp⟩

/-- A new environment comes after the ones that are there. -/
theorem rewires_addEnvironment (h : Host) (x : Environment) :
    h.Rewires { h with environments := h.environments ++ [x] } := by
  refine ⟨rfl, fun _ d hd => ⟨d, hd, Context.Follows.refl d, fun _ hi => Or.inl hi⟩,
    fun i e he => ⟨e, ?_, rfl⟩, le_rfl⟩
  have hlt : i < h.environments.length := (List.getElem?_eq_some_iff.mp he).1
  show (h.environments ++ [x])[i]? = some e
  rw [List.getElem?_append_left hlt]
  exact he

/-- Whatever is written but a new context, contexts go on and environments keep their roots. -/
theorem Store.rewires {h g : Host} {p : HostPart} (hs : h.Store p g) (hp : p ∉ [.contexts]) :
    h.Rewires g := by
  cases hs with
  | contexts => simp at hp
  | environments x => exact rewires_addEnvironment h x
  | adjust hc n =>
    exact rewires_modifyContext h n (fun c => (hc.follows c).1) fun c i hi => Or.inl ((hc.follows c).2 i hi)
  | receivers n b =>
    refine (rewires_addIncoming h b).trans
      (rewires_modifyContext _ n (fun _ => ⟨rfl, rfl, rfl, rfl, id⟩) fun c i hi => Or.inr ?_)
    rw [← Option.some.inj hi]
    simp
  | operators n c o =>
    have hprofile : h.Rewires (h.modifyProfile c.profile o.enter) := .of_eq rfl rfl rfl
    exact hprofile.trans
      (rewires_modifyContext _ n (fun _ => ⟨rfl, rfl, rfl, rfl, id⟩) fun _ _ hi => Or.inl hi)
  | incoming n change =>
    exact ⟨rfl, fun _ d hd => ⟨d, hd, Context.Follows.refl d, fun _ hi => Or.inl hi⟩,
      fun _ e he => ⟨e, he, rfl⟩, (List.length_modify ..).ge⟩
  | _ => exact .of_eq rfl rfl rfl

theorem Writes.rewires {h g : Host} {ps : List HostPart} (hw : Writes ps h g)
    (hps : HostPart.apart ps [.contexts] = true) : h.Rewires g :=
  hw.keeps Rewires.refl Rewires.trans (fun hp hs => hs.rewires hp) hps

theorem releaseIncoming_same (h : Host) (c : Context) (d : Deferred) :
    (h.releaseIncoming c d).1.contexts = h.contexts ∧
      (h.releaseIncoming c d).1.environments = h.environments ∧
      (h.releaseIncoming c d).1.arena = h.arena ∧
      (h.releaseIncoming c d).1.incoming.length = h.incoming.length := by
  unfold releaseIncoming
  split
  · exact ⟨rfl, rfl, rfl, rfl⟩
  · split
    · exact ⟨rfl, rfl, rfl, rfl⟩
    · exact ⟨rfl, rfl, rfl, List.length_modify ..⟩

-- ---------------------------------------------------------------------------
-- New contexts
-- ---------------------------------------------------------------------------

/-- Context `c` was made in `h`, which became `g`. -/
structure Opened (h g : Host) (number : Nat) (e : Environment) (plan : PlanFragment) (c : Context) :
    Prop where
  contexts_eq : g.contexts = h.contexts ++ [c]
  environments_eq : g.environments = h.environments
  incoming_eq : g.incoming = h.incoming
  fragment_eq : c.fragment = plan
  environment_eq : c.environment = number
  fresh : c.deferred = {} ∧ c.incoming = none ∧ c.isClosed = false ∧ c.state = .ok
  allocator : h.forest.newChild e.root plan.handle.ownerText plan.initial plan.max
    h.settings.1.applyFragmentLimit = .ok (g.forest, c.allocator)
  pool : ∃ pool, g.arena.pool? c.pool = some pool ∧ pool.allocator = c.allocator

theorem newChild_ok {h g : Host} {parent child : Nat} {label : String} {initial max : Int}
    {obeysLimits : Bool} (hg : h.newChild parent label initial max obeysLimits = .ok (g, child)) :
    h.forest.newChild parent label initial max obeysLimits = .ok (g.forest, child) := by
  unfold newChild at hg
  split at hg
  · simp at hg
  · next hf =>
    simp only [Except.ok.injEq, Prod.mk.injEq] at hg
    obtain ⟨rfl, rfl⟩ := hg
    exact hf

/-- A context that was made had its options and its time, its reservation was granted, and then it was
furnished. -/
theorem openContext_granted {h g : Host} {number n registry : Nat} {e : Environment}
    {plan : PlanFragment} {session : Option UserSession}
    (ho : h.openContext number e plan session registry = (g, .ok n)) :
    ∃ options time k allocator, prepare h.zones e plan = .ok (options, time) ∧
      h.settings.2.newChild e.root plan.handle.ownerText plan.initial plan.max
        h.settings.1.applyFragmentLimit = .ok (k, allocator) ∧
      k.furnish number plan session registry options time allocator = (g, n) := by
  unfold openContext at ho
  split at ho
  · simp at ho
  · next options time hprepare =>
    dsimp only at ho
    split at ho
    · simp at ho
    · next k allocator hk =>
      obtain ⟨hg, hn⟩ := Prod.mk.inj ho
      exact ⟨options, time, k, allocator, hprepare, hk, Prod.ext hg (Except.ok.inj hn)⟩

theorem openContext_ok {h g : Host} {number n registry : Nat} {e : Environment}
    {plan : PlanFragment} {session : Option UserSession}
    (ho : h.openContext number e plan session registry = (g, .ok n)) :
    n = h.contexts.length ∧ ∃ c, h.Opened g number e plan c := by
  obtain ⟨options, time, k, allocator, -, hk, hfurnish⟩ := openContext_granted ho
  have hbefore : h.SameRecords (k.count number Environment.started) :=
    ((writes_settings h).sameRecords rfl).trans
      (((writes_newChild hk).sameRecords rfl).trans ((writes_count k number _).sameRecords rfl))
  obtain ⟨rfl, rfl⟩ := Prod.mk.inj hfurnish
  refine ⟨congrArg List.length hbefore.contexts_eq, ?_⟩
  apply Exists.intro
  constructor
  case contexts_eq =>
    show (k.count number Environment.started).contexts ++ [_] = _
    rw [hbefore.contexts_eq]
  case environments_eq => exact hbefore.environments_eq
  case incoming_eq => exact hbefore.incoming_eq
  case fragment_eq => rfl
  case environment_eq => rfl
  case fresh => exact ⟨rfl, rfl, rfl, rfl⟩
  case allocator =>
    have hforest : (k.count number Environment.started).forest = k.forest :=
      congrArg Arena.forest (arena_count k number _)
    exact (newChild_ok hk).trans (by rw [← hforest]; rfl)
  case pool => exact ⟨_, (Arena.pool?_openPool _ _ _ _ _).trans (if_pos rfl), rfl⟩

-- ---------------------------------------------------------------------------
-- Connections
-- ---------------------------------------------------------------------------

/-- What a context is connected with: an allocator right below the root of its environment with the
reservation of the plan, a pool on that allocator, and incoming buffers that are there. -/
structure WiredTo (h : Host) (c : Context) : Prop where
  allocator : ∃ e a, h.environment? c.environment = some e ∧ h.forest.get? c.allocator = some a ∧
    a.above.head? = some e.root ∧ a.initial = c.fragment.initial
  pool : ∃ pool, h.arena.pool? c.pool = some pool ∧ pool.allocator = c.allocator
  deferred_sound : c.deferred.Sound
  incoming : ∀ i, c.incoming = some i → i < h.incoming.length

/-- All contexts of the host are connected. -/
def Wired (h : Host) : Prop := ∀ n c, h.context? n = some c → h.WiredTo c

/-- A context stays connected while the forest evolves and pools and environments stay. -/
theorem WiredTo.rewires {h g : Host} {c d : Context} (hc : h.WiredTo c) (hr : h.Rewires g)
    {closing : List Nat} (hforest : h.forest.Evolves g.forest)
    (hpools : h.arena.PoolsStay g.arena closing) (hcd : c.Follows d)
    (hincoming : ∀ i, d.incoming = some i → c.incoming = some i ∨ i < g.incoming.length) :
    g.WiredTo d := by
  obtain ⟨e, a, he, ha, habove, hinitial⟩ := hc.allocator
  obtain ⟨e', he', hroot⟩ := hr.environments c.environment e he
  obtain ⟨b, hb, hab⟩ := hforest.old c.allocator a ha
  obtain ⟨pool, hpool, hallocator⟩ := hc.pool
  obtain ⟨pool', hpool', hallocator', -⟩ := hpools c.pool pool hpool
  refine ⟨⟨e', b, ?_, ?_, ?_, ?_⟩, ⟨pool', ?_, ?_⟩, hcd.deferred_sound hc.deferred_sound, ?_⟩
  · rw [hcd.environment_eq, he']
  · rw [hcd.allocator_eq, hb]
  · rw [hab.above_eq, habove, hroot]
  · rw [hab.fixed.2.2.1, hinitial, hcd.fragment_eq]
  · rw [hcd.pool_eq, hpool']
  · rw [hallocator', hallocator, hcd.allocator_eq]
  · intro i hi
    rcases hincoming i hi with hi | hi
    · exact (hc.incoming i hi).trans_le hr.incoming
    · exact hi

theorem Wired.rewires {h g : Host} (hw : h.Wired) (hr : h.Rewires g)
    {closing : List Nat} (hforest : h.forest.Evolves g.forest)
    (hpools : h.arena.PoolsStay g.arena closing) : g.Wired := by
  intro n d hd
  obtain ⟨c, hc, hcd, hincoming⟩ := hr.contexts n d hd
  exact (hw n c hc).rewires hr hforest hpools hcd hincoming

end Host

/-- A new child is right below its parent, with what was asked for. -/
theorem Forest.get?_newChild {f g : Forest} {parent child : Nat} {label : String} {initial max : Int}
    {obeysLimits : Bool} (h : f.newChild parent label initial max obeysLimits = .ok (g, child)) :
    ∃ a, g.get? child = some a ∧ a.above.head? = some parent ∧ a.initial = initial ∧ a.max = max ∧
      a.obeysLimits = obeysLimits := by
  obtain ⟨-, ⟨p, hp, -⟩, f', hf', rfl, rfl⟩ := newChild_ok h
  -- added at the end; the record in the parent comes after
  have hlast : (f'.add (f.newborn parent label initial max obeysLimits)).1.get? f'.nodes.length =
      some (f.newborn parent label initial max obeysLimits) := by
    rw [get?_add, if_pos rfl]
  obtain ⟨b, hb, hnewborn⟩ := (evolves_enter (f'.add (f.newborn parent label initial max
    obeysLimits)).1 parent f'.nodes.length).old _ _ hlast
  obtain ⟨-, -, hinitial, hmax, hobeys⟩ := hnewborn.fixed
  refine ⟨b, hb, ?_, hinitial, hmax, hobeys⟩
  rw [hnewborn.above_eq]
  show (f.path parent).head? = some parent
  rw [Forest.path_of_get? hp]
  rfl

namespace Host

/-- A new context is connected from the start, and the others stay connected. -/
theorem Wired.opened {h g : Host} {number : Nat} {e : Environment} {plan : PlanFragment}
    {c : Context} (hw : h.Wired) (ho : h.Opened g number e plan c)
    (he : h.environment? number = some e) {closing : List Nat} (hforest : h.forest.Evolves g.forest)
    (hpools : h.arena.PoolsStay g.arena closing) : g.Wired := by
  have hold : h.Rewires { g with contexts := h.contexts } :=
    .of_eq rfl ho.environments_eq ho.incoming_eq
  have hwold : Wired { g with contexts := h.contexts } := hw.rewires hold hforest hpools
  intro n d hd
  rw [context?, ho.contexts_eq] at hd
  -- an older context, the new one, or none
  rcases Nat.lt_trichotomy n h.contexts.length with hn | rfl | hn
  · rw [List.getElem?_append_left hn] at hd
    have hwd := hwold n d hd
    exact ⟨hwd.allocator, hwd.pool, hwd.deferred_sound, hwd.incoming⟩
  · rw [List.getElem?_append_right le_rfl, Nat.sub_self] at hd
    obtain rfl : c = d := Option.some.inj hd
    obtain ⟨hdeferred, hincoming, -, -⟩ := ho.fresh
    obtain ⟨a, ha, habove, hinitial, -⟩ := Forest.get?_newChild ho.allocator
    refine ⟨⟨e, a, ?_, ha, habove, ?_⟩, ho.pool, ?_, ?_⟩
    · rw [ho.environment_eq, environment?, ho.environments_eq, ← environment?, he]
    · rw [hinitial, ho.fragment_eq]
    · rw [hdeferred]
      exact Deferred.sound_empty
    · rw [hincoming]
      simp
  · rw [List.getElem?_eq_none (by simp; omega)] at hd
    simp at hd

/-- Whatever is asked of a host, a context was made or those that are there went on. -/
theorem rewires_act (h : Host) (c : HostCall) : h.Rewires (h.act c) ∨
    ∃ number e plan d, h.environment? number = some e ∧ h.Opened (h.act c) number e plan d := by
  cases c with
  | openContext environment plan session registry =>
    rw [act]
    cases he : h.environment? environment with
    | none => exact Or.inl (.refl h)
    | some e =>
      dsimp only
      cases ho : h.openContext environment e plan session registry with
      | mk g outcome =>
        cases outcome with
        | error refusal => exact Or.inl ((writes_openContext_error ho).rewires rfl)
        | ok n =>
          obtain ⟨-, d, hopened⟩ := openContext_ok ho
          exact Or.inr ⟨environment, e, plan, d, he, hopened⟩
  | _ => exact Or.inl ((writes_act h _).rewires rfl)

/-- Whatever is asked of a host, its contexts stay connected. -/
theorem wired_act {h : Host} {t : Account} (hw : h.Wired) (hk : h.arena.Keeps t) (c : HostCall) :
    (h.act c).Wired := by
  have hforest := evolves_act hk c
  have hpools := poolsStay_act h c
  rcases rewires_act h c with hr | ⟨number, e, plan, d, he, hopened⟩
  · exact hw.rewires hr hforest hpools
  · exact hw.opened hopened he hforest hpools

/-- A context is never lost, and what it is connected with stays. -/
theorem follows_act (h : Host) (call : HostCall) {n : Nat} {c : Context}
    (hc : h.context? n = some c) : ∃ d, (h.act call).context? n = some d ∧ c.Follows d := by
  have hlt : n < h.contexts.length := (List.getElem?_eq_some_iff.mp hc).1
  rcases rewires_act h call with hr | ⟨number, e, plan, d, he, hopened⟩
  · obtain ⟨d, hd⟩ : ∃ d, (h.act call).context? n = some d :=
      ⟨_, List.getElem?_eq_getElem (hr.length_eq ▸ hlt)⟩
    obtain ⟨c', hc', hfollows, -⟩ := hr.contexts n d hd
    obtain rfl : c = c' := Option.some.inj (hc.symm.trans hc')
    exact ⟨d, hd, hfollows⟩
  · refine ⟨c, ?_, Context.Follows.refl c⟩
    rw [context?, hopened.contexts_eq, List.getElem?_append_left hlt]
    exact hc

theorem follows_actAll (h : Host) (calls : List HostCall) {n : Nat} {c : Context}
    (hc : h.context? n = some c) : ∃ d, (h.actAll calls).context? n = some d ∧ c.Follows d := by
  induction calls generalizing h c with
  | nil => exact ⟨c, hc, Context.Follows.refl c⟩
  | cons call calls ih =>
    obtain ⟨d, hd, hcd⟩ := follows_act h call hc
    obtain ⟨d', hd', hdd'⟩ := ih (h.act call) hd
    exact ⟨d', hd', hcd.trans hdd'⟩

theorem wired_actAll {h : Host} {t : Account} (hw : h.Wired) (hk : h.arena.Keeps t)
    (calls : List HostCall) : (h.actAll calls).Wired := by
  induction calls generalizing h t with
  | nil => exact hw
  | cons c calls ih => exact ih (wired_act hw hk c) (keeps_act hk c)

theorem wired_ofProcess (process : Process) (calls : List HostCall) :
    ((Session.ofProcess process).host.actAll calls).Wired := by
  refine wired_actAll ?_ Arena.keeps_empty calls
  intro n c hc
  simp [context?, Session.ofProcess] at hc

end Host

end FragmentHost

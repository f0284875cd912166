import FragmentHost.Proofs.Host.Opening
import FragmentHost.Session.Run

/-!
# Sessions as runs

Whatever is asked of a session comes down to calls of its host: names are looked up, the host is called,
and what nobody holds is given up at the end (`leads_step`). None of them loses a profile elsewhere. What
holds of every run of a host therefore holds of every session (`leads_run`), such as that environments
have profiles for their metrics (`placed_run`).
-/

namespace FragmentHost

namespace Host

-- ---------------------------------------------------------------------------
-- Hosts that runs lead to
-- ---------------------------------------------------------------------------

/-- A run of calls leads from `h` to `g`. -/
def Reaches (h g : Host) : Prop := ∃ calls, g = h.actAll calls

/-- A run of calls leads from `h` to `g`, and nothing on the way loses a profile elsewhere. -/
def Leads (h g : Host) : Prop := ∃ calls, g = h.actAll calls ∧ h.TendedAll calls

theorem Leads.refl (h : Host) : h.Leads h := ⟨[], rfl, trivial⟩

theorem Leads.trans {h g k : Host} (hhg : h.Leads g) (hgk : g.Leads k) : h.Leads k := by
  obtain ⟨calls, rfl, hcalls⟩ := hhg
  obtain ⟨later, rfl, hlater⟩ := hgk
  exact ⟨calls ++ later, (actAll_append h calls later).symm, hcalls.append hlater⟩

theorem Leads.reaches {h g : Host} (hl : h.Leads g) : h.Reaches g :=
  hl.imp fun _ h => h.1

theorem Leads.placed {h g : Host} (hl : h.Leads g) (hp : h.Placed) : g.Placed := by
  obtain ⟨calls, rfl, hcalls⟩ := hl
  exact placed_actAll hp hcalls

theorem leads_act (h : Host) (c : HostCall) (ht : h.Tended c) : h.Leads (h.act c) :=
  ⟨[c], rfl, ht, trivial⟩

theorem leads_of_act {h g : Host} (c : HostCall) (ht : h.Tended c) (hg : h.act c = g) : h.Leads g :=
  hg ▸ leads_act h c ht

/-- What a host keeps besides memory, services, environments and contexts. -/
def surroundings (h : Host) : Surroundings := ⟨h.options, h.profiles, h.registries, h.journal, h.config⟩

/-- Options, registries, the log and the configuration may become anything, and profiles as long as none
is lost. -/
theorem leads_elsewhere {h g : Host} (hg : h.within g.surroundings = g) (ht : h.Tends g) : h.Leads g := by
  refine leads_of_act (.elsewhere g.surroundings) ?_ hg
  rw [Tended, hg]
  exact ht

theorem leads_modifyProfile (h : Host) (p : Nat) (change : Profile → Profile) :
    h.Leads (h.modifyProfile p change) :=
  leads_elsewhere rfl (.of_le rfl (List.length_modify ..).ge)

theorem leads_newChild {h g : Host} {parent child : Nat} {label : String} {initial max : Int}
    {obeysLimits : Bool} (hg : h.newChild parent label initial max obeysLimits = .ok (g, child)) :
    h.Leads g :=
  leads_of_act (.child parent label initial max obeysLimits) trivial (by rw [act, hg, orSame])

theorem leads_consume {h g : Host} {allocator : Nat} {bytes : Int}
    (hg : h.consume allocator bytes = .ok g) : h.Leads g :=
  leads_of_act (.consume allocator bytes) trivial (by rw [act, hg]; rfl)

theorem leads_getDefault {h g : Host} {pool b : Nat} (hg : h.getDefault pool = .ok (g, b)) :
    h.Leads g :=
  leads_of_act (.getDefault pool) trivial (by rw [act, hg, orSame])

theorem leads_getBuffer {h g : Host} {pool size b : Nat} (hg : h.getBuffer pool size = .ok (g, b)) :
    h.Leads g :=
  leads_of_act (.getBuffer pool size) trivial (by rw [act, hg, orSame])

/-- What is written into a buffer that is not there is lost. -/
theorem leads_modifyBuffer {h : Host} {b start : Nat} {bytes : List UInt8} {written : Buffer}
    {fits : Bool}
    (hw : ((h.arena.buffer? b).getD default).write start bytes = .ok (written, fits)) :
    h.Leads { h with arena := h.arena.modifyBuffer b fun _ => written } := by
  cases hb : h.arena.buffer? b with
  | none =>
    have hsame : h.arena.modifyBuffer b (fun _ => written) = h.arena := by
      rw [Arena.modifyBuffer, List.modify_eq_self (List.getElem?_eq_none_iff.mp hb)]
    rw [hsame]
    exact .refl h
  | some x =>
    rw [hb, Option.getD_some] at hw
    exact leads_of_act (.write b start bytes) trivial (by rw [act, writeBuffer, hb]; simp only [hw])

/-- A context is changed like by a change that agrees on the context that is there. -/
theorem modifyContext_congr {h : Host} {n : Nat} {c : Context} (hc : h.context? n = some c)
    {change other : Context → Context} (hsame : change c = other c) :
    h.modifyContext n change = h.modifyContext n other := by
  have hcontexts : h.contexts.modify n change = h.contexts.modify n other := by
    refine List.ext_getElem? fun m => ?_
    rw [List.getElem?_modify, List.getElem?_modify]
    by_cases hnm : n = m
    · subst hnm
      rw [show h.contexts[n]? = some c from hc]
      simp [hsame]
    · simp [hnm]
  rw [modifyContext, hcontexts, modifyContext]

theorem leads_deferFailure {h : Host} {n : Nat} {c : Context} (hc : h.context? n = some c)
    {f : Failure} {d : Deferred} (hd : c.deferred.add f = .ok d) :
    h.Leads (h.modifyContext n fun c => { c with deferred := d }) := by
  refine leads_of_act (.deferFailure n f) trivial (modifyContext_congr hc ?_)
  simp only [Deferred.absorb, hd]

theorem leads_takeDeferred {h : Host} {n : Nat} {c : Context} (hc : h.context? n = some c) :
    h.Leads (h.modifyContext n fun x => { x with deferred := c.deferred.take.2 }) :=
  leads_of_act (.takeDeferred n) trivial (modifyContext_congr hc rfl)

theorem leads_settings (h : Host) : h.Leads h.settings.2 :=
  leads_elsewhere rfl (.of_le rfl le_rfl)

theorem leads_rootFor (h : Host) (root : Option Nat) : h.Leads (h.rootFor root).1 := by
  cases root with
  | some r => exact .refl h
  | none =>
    exact (leads_settings h).trans
      (leads_act h.settings.2 (.root Environment.rootLabel h.settings.1.rootLimit) trivial)

theorem leads_openContext {h : Host} {number : Nat} {e : Environment}
    (he : h.environment? number = some e) (plan : PlanFragment) (session : Option UserSession)
    (registry : Nat) : h.Leads (h.openContext number e plan session registry).1 :=
  leads_of_act (.openContext number plan session registry) trivial (by rw [act, he])

/-- The services of its own that an environment gets are there. -/
theorem leads_ownServices (h : Host) (pool controller : Answers Endpoint Tunnel)
    (factory : Answers UserSession (Except Failure SchemaTree)) :
    h.Leads (h.ownServices pool controller factory).1 ∧
      (h.ownServices pool controller factory).1.hasServices (h.ownServices pool controller factory).2 =
        true := by
  refine ⟨?_, by simp [ownServices, takeIn, hasServices]⟩
  exact ((leads_act h (.takeIn (.pool pool)) trivial).trans
    (leads_act _ (.takeIn (.controller controller)) trivial)).trans
    (leads_act _ (.takeIn (.factory factory)) trivial)

/-- A cache above a new pool. -/
theorem leads_openCache (h : Host) (answers : Answers Endpoint Tunnel) :
    h.Leads ((h.takeIn (.pool answers)).openCache h.pools.length).1 := by
  have hpool : h.pools.length < (h.takeIn (.pool answers)).pools.length := by simp [takeIn]
  exact (leads_act h (.takeIn (.pool answers)) trivial).trans
    (leads_of_act (.openCache h.pools.length) trivial (if_pos hpool))

theorem leads_addOperator {h : Host} {n : Nat} {c : Context} (hc : h.context? n = some c)
    (o : Operator) : h.Leads (h.addOperator n c o) :=
  leads_of_act (.addOperator n o) trivial (by rw [act, hc])

end Host

namespace Session

-- ---------------------------------------------------------------------------
-- Steps of a command
-- ---------------------------------------------------------------------------

/-- The host of the outcome is one that a run leads to. -/
def Comes (s : Session) (o : Outcome) : Prop := s.host.Leads o.1.host

/-- Names, refusals and answers leave the host as it is. -/
theorem comes_same {s : Session} {o : Outcome} (h : o.1.host = s.host) : s.Comes o := by
  rw [Comes, h]
  exact .refl s.host

theorem comes_find {s : Session} {α : Type} {table : Names → Dictionary α} {name : String}
    {next : α → Outcome} (h : ∀ x, s.Comes (next x)) : s.Comes (s.find table name next) := by
  unfold find
  split
  · exact h _
  · exact comes_same rfl

theorem comes_findOptional {s : Session} {α : Type} {table : Names → Dictionary α}
    {name : Option String} {next : Option α → Outcome} (h : ∀ x, s.Comes (next x)) :
    s.Comes (s.findOptional table name next) := by
  unfold findOptional
  split
  · exact h none
  · exact comes_find fun x => h (some x)

theorem comes_findNode {s : Session} {name : String} {next : Nat → Outcome}
    (h : ∀ n, s.Comes (next n)) : s.Comes (s.findNode name next) := by
  refine comes_find fun m => ?_
  cases m with
  | node number => exact h number
  | overrides stack => exact comes_same rfl

theorem comes_findEnvironment {s : Session} {name : String} {next : Nat → Environment → Outcome}
    (h : ∀ n e, s.host.environment? n = some e → s.Comes (next n e)) :
    s.Comes (s.findEnvironment name next) := by
  refine comes_find fun n => ?_
  split
  · next e he => exact h n e he
  · exact comes_same rfl

theorem comes_findContext {s : Session} {name : String} {next : Nat → Context → Outcome}
    (h : ∀ n c, s.host.context? n = some c → s.Comes (next n c)) :
    s.Comes (s.findContext name next) := by
  refine comes_find fun n => ?_
  split
  · next c hc => exact h n c hc
  · exact comes_same rfl

theorem comes_attempt {s : Session} {α : Type} {result : Except Failure α} {next : α → Outcome}
    (h : ∀ x, result = .ok x → s.Comes (next x)) : s.Comes (s.attempt result next) := by
  unfold attempt
  split
  · exact h _ rfl
  · exact comes_same rfl

theorem comes_report {s : Session} {h : Host} (hh : s.host.Leads h) (outcome : Option Failure) :
    s.Comes ((s.on h).report outcome) := by
  cases outcome <;> exact hh

theorem comes_handOut {s : Session} {name : String} {result : Except Failure (Host × Nat)}
    (h : ∀ g b, result = .ok (g, b) → s.host.Leads g) : s.Comes (s.handOut name result) :=
  comes_attempt fun x hx => h x.1 x.2 hx

/-- A handle of the old buffer goes with the request. -/
theorem comes_replaceBuffer (s : Session) (name : String) (pool old size : Nat) :
    s.Comes (s.replaceBuffer name pool old size) := by
  have hlead : s.host.Leads (s.host.replaceBuffer s.names.holders pool old size).1 :=
    Host.leads_act s.host (.replaceBuffer pool old size s.names.holders) trivial
  unfold replaceBuffer
  generalize s.host.replaceBuffer s.names.holders pool old size = replaced at hlead ⊢
  obtain ⟨h, result⟩ := replaced
  cases result <;> exact hlead

theorem comes_reserve (s : Session) (new : String) (parent : Nat) (r : ReservationRequest)
    (detailed : Bool) : s.Comes (s.reserve new parent r detailed) :=
  comes_attempt fun _ hx => Host.leads_newChild hx

-- ---------------------------------------------------------------------------
-- Commands
-- ---------------------------------------------------------------------------

theorem comes_onAllocators (s : Session) (c : AllocatorCommand) : s.Comes (s.onAllocators c) := by
  cases c with
  | root new label limit => exact Host.leads_act s.host (.root label limit) trivial
  | child new parent request =>
    exact comes_find fun a => s.comes_reserve new a.number request false
  | tracker new parent request =>
    refine comes_find fun a => ?_
    split
    · exact s.comes_reserve new a.number request true
    · exact comes_same rfl
  | childAt new parent index =>
    refine comes_find fun a => ?_
    split <;> exact comes_same rfl
  | consume allocator bytes =>
    exact comes_find fun a => comes_attempt fun _ hx => Host.leads_consume hx
  | release allocator bytes =>
    exact comes_find fun a => Host.leads_act s.host (.release a.number bytes) trivial
  | limit allocator limit =>
    exact comes_find fun a => Host.leads_act s.host (.limit a.number limit) trivial
  | close allocator =>
    refine comes_find fun a => comes_report ?_ _
    exact Host.leads_act s.host (.closeAllocator a.number) trivial
  | drop allocator => exact comes_find fun _ => comes_same rfl
  | info allocator => exact comes_find fun a => comes_same rfl

theorem comes_onPools (s : Session) (c : PoolCommand) : s.Comes (s.onPools c) := by
  cases c with
  | make new allocator owner defaultSize =>
    exact comes_find fun a => Host.leads_act s.host (.openPool owner a.number defaultSize) trivial
  | get pool new => exact comes_find fun p => comes_handOut fun _ _ hg => Host.leads_getDefault hg
  | getSize pool new size =>
    exact comes_find fun p => comes_handOut fun _ _ hg => Host.leads_getBuffer hg
  | replace pool buffer new size =>
    exact comes_find fun b => comes_find fun p => s.comes_replaceBuffer new p b size
  | size pool => exact comes_find fun p => comes_same rfl
  | close pool => exact comes_find fun p => Host.leads_act s.host (.closePool p) trivial
  | drop pool => exact comes_find fun _ => comes_same rfl

theorem comes_onBuffers (s : Session) (c : BufferCommand) : s.Comes (s.onBuffers c) := by
  cases c with
  | release buffer => exact comes_find fun b => Host.leads_act s.host (.releaseBuffer b) trivial
  | write buffer start bytes =>
    exact comes_find fun b => comes_attempt fun _ hx => Host.leads_modifyBuffer hx
  | read buffer start count => exact comes_find fun b => comes_attempt fun _ _ => comes_same rfl
  | info buffer | drop buffer => exact comes_find fun _ => comes_same rfl

/-- What is recorded on the side is in the names and in the log. -/
theorem leads_settle (s : Session) (name : String) (d : Deferred) (events : List LogEvent) :
    s.host.Leads (s.settle name d events).host :=
  Host.leads_elsewhere rfl (.of_le rfl le_rfl)

theorem comes_releaseInto (s : Session) (name : String) (d : Deferred) (resource : Releasable) :
    s.Comes (s.releaseInto name d resource) := by
  cases resource with
  | absent => exact s.leads_settle name d []
  | allocator allocator =>
    refine comes_find fun a => (Host.leads_act s.host (.closeAllocator a.number) trivial).trans ?_
    exact leads_settle (s.on (s.host.closeAllocator a.number).1) name _ _
  | pool pool =>
    refine comes_find fun p => (Host.leads_act s.host (.closePool p) trivial).trans ?_
    exact leads_settle (s.on (s.host.closePool p)) name _ _
  | resource resource failure => exact s.leads_settle name _ _

theorem comes_onDeferred (s : Session) (c : DeferredCommand) : s.Comes (s.onDeferred c) := by
  cases c with
  | make new => exact comes_same rfl
  | add deferred f => exact comes_find fun d => comes_attempt fun _ _ => comes_same rfl
  | close deferred =>
    refine comes_find fun d => ?_
    show s.Comes ((s.setDeferred deferred d.close.2).report d.close.1)
    cases d.close.1 <;> exact comes_same rfl
  | release deferred resource => exact comes_find fun d => s.comes_releaseInto deferred d resource
  | peek deferred | take deferred | isClosed deferred => exact comes_find fun _ => comes_same rfl

theorem comes_onStates (s : Session) (c : StateCommand) : s.Comes (s.onStates c) := by
  cases c with
  | make new => exact comes_same rfl
  | request state target => exact comes_find fun _ => comes_same rfl

/-- Setting options one after the other. -/
theorem leads_setOptions (h : Host) (number : Nat) (options : List PlanOption) :
    h.Leads (options.foldl (fun h o => h.setOption number o) h) := by
  induction options generalizing h with
  | nil => exact .refl h
  | cons o options ih =>
    have hset : h.Leads (h.setOption number o) := Host.leads_elsewhere rfl (.of_le rfl le_rfl)
    exact hset.trans (ih (h.setOption number o))

theorem comes_onOptions (s : Session) (c : OptionCommand) : s.Comes (s.onOptions c) := by
  cases c with
  | makeNode new => exact Host.leads_elsewhere rfl (.of_le rfl le_rfl)
  | makeOverrides new manager plan =>
    exact comes_find fun _ => comes_attempt fun _ _ => comes_same rfl
  | set manager option => exact comes_findNode fun n => Host.leads_elsewhere rfl (.of_le rfl le_rfl)
  | setAll manager plan =>
    exact comes_findNode fun n => comes_attempt fun options _ => leads_setOptions s.host n options
  | get manager name => exact comes_find fun _ => comes_same rfl

/-- A change of a node is one of a profile. -/
theorem leads_modifyAt (s : Session) (place : ProfileName) (change : Profile → Profile) :
    s.host.Leads (s.modifyProfile place change).host :=
  Host.leads_modifyProfile s.host place.profile _

theorem comes_onProfiles (s : Session) (c : ProfileCommand) : s.Comes (s.onProfiles c) := by
  cases c with
  | make new name =>
    exact Host.leads_elsewhere rfl ((Host.writes_addProfile s.host (Profile.empty name)).tends rfl)
  | child profile new name =>
    exact comes_find fun p => s.leads_modifyAt p _
  | findChild profile new name =>
    refine comes_find fun p => ?_
    split <;> exact comes_same rfl
  | setInfo profile key value => exact comes_find fun p => s.leads_modifyAt p _
  | counter profile name unit new =>
    refine comes_find fun p => ?_
    cases new <;> exact s.leads_modifyAt p _
  | add profile name unit n | set profile name unit n =>
    exact comes_find fun p => s.leads_modifyAt p _
  | timing profile name =>
    exact comes_find fun p => s.leads_modifyAt p _
  | attach profile allocator =>
    exact comes_find fun a => comes_find fun p => s.leads_modifyAt p _
  | children | info | value | listing => exact comes_find fun _ => comes_same rfl

theorem comes_modifyCounter (s : Session) (name : String) (change : Counter → Counter) :
    s.Comes (s.modifyCounter name change) := by
  refine comes_find fun c => ?_
  cases c with
  | inProfile place counter =>
    exact s.leads_modifyAt place _
  | alone c => exact comes_same rfl

theorem comes_onCounters (s : Session) (c : CounterCommand) : s.Comes (s.onCounters c) := by
  cases c with
  | make new name unit => exact comes_same rfl
  | add counter n => exact s.comes_modifyCounter counter _
  | set counter n => exact s.comes_modifyCounter counter _

theorem comes_onRegistries (s : Session) (c : RegistryCommand) : s.Comes (s.onRegistries c) := by
  cases c with
  | make new => exact Host.leads_elsewhere rfl (.of_le rfl le_rfl)
  | register registry signature =>
    exact comes_find fun r => Host.leads_elsewhere rfl (.of_le rfl le_rfl)
  | size | lookup | resolve => exact comes_find fun _ => comes_same rfl

theorem comes_onSchemas (s : Session) (c : SchemaCommand) : s.Comes (s.onSchemas c) := by
  cases c with
  | make new => exact comes_same rfl
  | same schema other => exact comes_find fun _ => comes_find fun _ => comes_same rfl
  | add | find | whole => exact comes_find fun _ => comes_same rfl

theorem comes_onTunnels (s : Session) (c : TunnelCommand) : s.Comes (s.onTunnels c) := by
  cases c with
  | make new => exact Host.leads_openCache s.host Tunnel.numbered
  | get cache endpoint =>
    exact comes_find fun n => Host.leads_act s.host (.cachedTunnel n endpoint) trivial
  | size cache => exact comes_find fun _ => comes_same rfl

theorem comes_onEnvironments (s : Session) (c : EnvironmentCommand) :
    s.Comes (s.onEnvironments c) := by
  cases c with
  | make new root endpoint options catalog =>
    refine comes_findOptional fun a => ?_
    have hroot := Host.leads_rootFor s.host (a.map (·.number))
    generalize s.host.rootFor (a.map (·.number)) = made at hroot ⊢
    obtain ⟨h, root⟩ := made
    -- the root is kept also if there are no such options
    refine hroot.trans (comes_findOptional (s := s.on h) fun m => ?_)
    obtain ⟨hservices, hthere⟩ :=
      Host.leads_ownServices h Tunnel.numbered Tunnel.numbered catalog.schemas
    refine hservices.trans (Host.leads_of_act (.openEnvironment (some root) endpoint (m.map (·.stack))
      (h.ownServices Tunnel.numbered Tunnel.numbered catalog.schemas).2) trivial ?_)
    exact if_pos hthere
  | nameRoot | metrics | option | drop => exact comes_findEnvironment fun _ _ _ => comes_same rfl

/-- A context is made in a host whose configuration was read, with a registry that was there or is
new. -/
theorem comes_makeContext (s : Session) (new environment : String) (request : PlanRequest)
    (user registry : Option String) :
    s.Comes (s.makeContext new environment request user registry) := by
  refine comes_findOptional fun r => (Host.leads_settings s.host).trans ?_
  refine comes_findEnvironment (s := s.on s.host.settings.2) fun n e he => ?_
  have hregistry : s.host.settings.2.Leads (registryFor s.host.settings.2 r).1 := by
    cases r <;> exact Host.leads_elsewhere rfl (.of_le rfl le_rfl)
  have he' : (registryFor s.host.settings.2 r).1.environment? n = some e := by
    cases r <;> exact he
  have hopen := Host.leads_openContext he' (request.complete s.host.settings.1)
    (user.map fun u => { user := u }) (registryFor s.host.settings.2 r).2
  refine (hregistry.trans hopen).trans ?_
  exact comes_attempt (s := s.on _) fun _ _ => Host.Leads.refl _

theorem comes_onContexts (s : Session) (c : ContextCommand) : s.Comes (s.onContexts c) := by
  cases c with
  | make new environment request user registry =>
    exact s.comes_makeContext new environment request user registry
  | fail context cause =>
    exact comes_findContext fun n _ _ => Host.leads_act s.host (.fail n cause) trivial
  | cancel context => exact comes_findContext fun n _ _ => Host.leads_act s.host (.cancel n) trivial
  | deferFailure context f =>
    exact comes_findContext fun n c hc => comes_attempt fun _ hd => Host.leads_deferFailure hc hd
  | takeDeferred context => exact comes_findContext fun n c hc => Host.leads_takeDeferred hc
  | close context =>
    refine comes_findContext fun n _ _ => comes_report ?_ _
    exact Host.leads_act s.host (.closeContext n) trivial
  | child context new request =>
    exact comes_findContext fun _ c _ => s.comes_reserve new c.allocator request false
  | limit context limit =>
    exact comes_findContext fun _ c _ => Host.leads_act s.host (.limit c.allocator limit) trivial
  | buffer context new =>
    exact comes_findContext fun _ c _ => comes_handOut fun _ _ hg => Host.leads_getDefault hg
  | bufferOfSize context new size =>
    exact comes_findContext fun _ c _ => comes_handOut fun _ _ hg => Host.leads_getBuffer hg
  | replace context buffer new size =>
    exact comes_find fun b => comes_findContext fun _ c _ => s.comes_replaceBuffer new c.pool b size
  | dataTunnel context endpoint =>
    exact comes_findContext fun n _ _ => Host.leads_act s.host (.dataTunnel n endpoint) trivial
  | controlTunnel context endpoint =>
    exact comes_findContext fun n _ _ => Host.leads_act s.host (.controlTunnel n endpoint) trivial
  | schema context => exact comes_findContext fun n _ _ => Host.leads_act s.host (.rootSchema n) trivial
  | attach context new incoming =>
    exact comes_findContext fun n _ _ => Host.leads_act s.host (.attach n incoming) trivial
  | operator context new operator =>
    exact comes_findContext fun n c hc => Host.leads_addOperator hc operator
  | batch operator records =>
    exact comes_find fun o => Host.leads_modifyProfile s.host o.profile _
  | profile context new =>
    refine comes_findContext fun _ c _ => ?_
    cases new <;> exact Host.leads_modifyProfile s.host c.profile _
  | incomingReport incoming => exact comes_find fun _ => comes_same rfl
  | cause | drop | nameAllocator | incoming | option | functions | time | info | operators =>
    exact comes_findContext fun _ _ _ => comes_same rfl

theorem comes_configured (s : Session) (result : Except ConfigError Config × ConfigSource) :
    s.Comes (s.configured result) := by
  unfold configured
  dsimp only
  split <;> exact Host.leads_elsewhere rfl (.of_le rfl le_rfl)

theorem comes_onConfig (s : Session) (c : ConfigCommand) : s.Comes (s.onConfig c) := by
  cases c with
  | reservations => exact Host.leads_settings s.host
  | load | fromPath | current => exact s.comes_configured _

theorem comes_onLog (s : Session) (c : LogCommand) : s.Comes (s.onLog c) := by
  cases c with
  | openLog how => cases how <;> exact Host.leads_elsewhere rfl (.of_le rfl le_rfl)
  | destination => exact comes_same rfl
  | emit level message spans => exact Host.leads_elsewhere rfl (.of_le rfl le_rfl)

-- ---------------------------------------------------------------------------
-- Runs
-- ---------------------------------------------------------------------------

theorem comes_perform (s : Session) (c : Command) : s.Comes (s.perform c) := by
  cases c with
  | allocator c => exact s.comes_onAllocators c
  | pool c => exact s.comes_onPools c
  | buffer c => exact s.comes_onBuffers c
  | deferred c => exact s.comes_onDeferred c
  | state c => exact s.comes_onStates c
  | option c => exact s.comes_onOptions c
  | profile c => exact s.comes_onProfiles c
  | counter c => exact s.comes_onCounters c
  | registry c => exact s.comes_onRegistries c
  | schema c => exact s.comes_onSchemas c
  | tunnel c => exact s.comes_onTunnels c
  | environment c => exact s.comes_onEnvironments c
  | context c => exact s.comes_onContexts c
  | config c => exact s.comes_onConfig c
  | log c => exact s.comes_onLog c

/-- A command, and giving up what nobody holds then, is a run of calls of the host. -/
theorem leads_step (s : Session) (c : Command) : s.host.Leads (s.step c).1.host :=
  (s.comes_perform c).trans
    (Host.leads_act (s.perform c).1.host (.keep (s.perform c).1.names.holders) trivial)

theorem leads_run (s : Session) (commands : List Command) :
    s.host.Leads (s.run commands).1.host := by
  induction commands generalizing s with
  | nil => exact .refl s.host
  | cons c rest ih => exact (s.leads_step c).trans (ih (s.step c).1)

/-- Every session is a run of calls of its host. -/
theorem reaches_run (s : Session) (commands : List Command) :
    s.host.Reaches (s.run commands).1.host :=
  (s.leads_run commands).reaches

/-- In every session environments have profiles for their metrics. -/
theorem placed_run (process : Process) (commands : List Command) :
    ((ofProcess process).run commands).1.host.Placed := by
  refine ((ofProcess process).leads_run commands).placed fun n e he => ?_
  simp [ofProcess, Host.environment?] at he

end Session

end FragmentHost

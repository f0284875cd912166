import FragmentHost.Proofs.Host.Opening
import FragmentHost.Proofs.Host.TunnelCaches

/-!
# The tunnels of a node

Any number of contexts, of one environment or of several, and any number of bare caches may be above one
pool, and they are all holders of its tunnels (`Host.tunnelsOver`). A look-up through either is the same
steps (`Host.lookUp_eq`). Whatever else is asked of a host leaves holders and pools as they are: a new
context and a new cache hold nothing, and a new pool was asked nothing (`Host.tunnelsOver_act`,
`Host.pools_act`). So one step lemma carries what is known of a pool through a run (`Host.kept_act`,
`Host.kept_actAll`). Controllers are asked each time.

The main statement is `tunnels_kept`.
-/

namespace FragmentHost

/-- The holder and the endpoint of a look-up of a data tunnel. -/
def HostCall.lookup? : HostCall → Option (TunnelHolder × Endpoint)
  | .dataTunnel n target => some (.context n, target)
  | .cachedTunnel k target => some (.cache k, target)
  | _ => none

namespace Host

variable {h g : Host} {p q : Nat} {x : TunnelHolder} {cache : TunnelCache}

-- ---------------------------------------------------------------------------
-- Holders
-- ---------------------------------------------------------------------------

/-- The pool of a holder and the tunnels that it has. -/
def holding? (h : Host) : TunnelHolder → Option (Nat × TunnelCache)
  | .context n => (h.context? n).bind fun c =>
    (h.environment? c.environment).map fun e => (e.services.pool, c.tunnels)
  | .cache k => h.caches[k]?.map fun c => (c.pool, c.tunnels)

/-- What the holders above a pool have. -/
def tunnelsOver (h : Host) (p : Nat) (x : TunnelHolder) : TunnelCache :=
  (h.holding? x).elim [] fun held => if held.1 = p then held.2 else []

/-- The host after a holder got other tunnels. -/
def hold (h : Host) (x : TunnelHolder) (tunnels : TunnelCache) : Host :=
  match x with
  | .context n => h.modifyContext n fun c => { c with tunnels }
  | .cache k => { h with caches := h.caches.modify k fun c => { c with tunnels } }

/-- The data tunnel of a holder to an endpoint. -/
def lookUp (h : Host) (target : Endpoint) : TunnelHolder → Host × Option Tunnel
  | .context n => h.dataTunnel n target
  | .cache k => h.cachedTunnel k target

/-- The data tunnel that a call looks up through a holder above a pool. -/
def dataLookup? (p : Nat) (h : Host) (call : HostCall) : Option TunnelLookup :=
  call.lookup?.bind fun (x, target) =>
    if (h.holding? x).map (·.1) = some p then (h.lookUp target x).2.map (⟨x, target, ·⟩) else none

/-- The control tunnel that a call looks up with a controller. -/
def controlLookup? (k : Nat) (h : Host) : HostCall → Option TunnelLookup
  | .controlTunnel n target =>
    (h.context? n).bind fun c =>
      if (h.environment? c.environment).map (·.services.controller) = some k then
        (h.controlTunnel n target).2.map (⟨.context n, target, ·⟩)
      else none
  | _ => none

/-- What is noted of the calls of a run. -/
def noted (h : Host) (note? : Host → HostCall → Option TunnelLookup) :
    List HostCall → List TunnelLookup
  | [] => []
  | c :: calls => (note? h c).toList ++ (h.act c).noted note? calls

theorem noted_concat (h : Host) (note? : Host → HostCall → Option TunnelLookup)
    (calls : List HostCall) (c : HostCall) :
    h.noted note? (calls ++ [c]) = h.noted note? calls ++ (note? (h.actAll calls) c).toList := by
  induction calls generalizing h with
  | nil => simp [noted]
  | cons d calls ih => rw [List.cons_append, noted, noted, ih, List.append_assoc, actAll_cons]

/-- A look-up through any holder: what it has is what it has afterwards, or the pool is asked. -/
theorem lookUp_eq (h : Host) (target : Endpoint) (x : TunnelHolder) :
    h.lookUp target x = match h.holding? x with
      | none => (h, none)
      | some (p, cache) =>
        ((h.tunnelThrough cache p target).1.hold x (h.tunnelThrough cache p target).2.1,
          (h.tunnelThrough cache p target).2.2) := by
  cases x with
  | context n =>
    rw [lookUp, dataTunnel, holding?]
    cases h.context? n with
    | none => rfl
    | some c =>
      rw [Option.bind_some]
      dsimp only
      cases h.environment? c.environment <;> rfl
  | cache k =>
    rw [lookUp, cachedTunnel, holding?]
    cases h.caches[k]? <;> rfl

theorem context?_modifyContext (h : Host) (n m : Nat) (change : Context → Context) :
    (h.modifyContext n change).context? m =
      (h.context? m).map fun c => if n = m then change c else c :=
  List.getElem?_modify ..

/-- The one holder has other tunnels. -/
theorem holding?_hold (hx : h.holding? x = some (p, cache)) (tunnels : TunnelCache) :
    (h.hold x tunnels).holding? = Function.update h.holding? x (some (p, tunnels)) := by
  funext y
  cases x with
  | context n =>
    obtain ⟨c, hc, hheld⟩ := Option.bind_eq_some_iff.mp hx
    obtain ⟨e, he, hpair⟩ := Option.map_eq_some_iff.mp hheld
    obtain ⟨rfl, -⟩ := Prod.mk.inj hpair
    cases y with
    | context m =>
      have hthen : (h.hold (.context n) tunnels).holding? (.context m) =
          ((h.context? m).map fun c => if n = m then { c with tunnels } else c).bind fun c =>
            (h.environment? c.environment).map fun e => (e.services.pool, c.tunnels) :=
        congrArg (Option.bind · _) (context?_modifyContext h n m _)
      rw [hthen]
      by_cases hm : m = n
      · subst hm
        simp [hc, he]
      · rw [Function.update_of_ne (by simpa using hm), holding?]
        simp [Ne.symm hm]
    | cache k => rfl
  | cache n =>
    obtain ⟨c, hc, hpair⟩ := Option.map_eq_some_iff.mp hx
    obtain ⟨rfl, -⟩ := Prod.mk.inj hpair
    cases y with
    | context m => rfl
    | cache m =>
      have hthen : (h.hold (.cache n) tunnels).holding? (.cache m) =
          (h.caches[m]?.map fun c => if n = m then { c with tunnels } else c).map fun c =>
            (c.pool, c.tunnels) :=
        congrArg (Option.map _) (List.getElem?_modify ..)
      rw [hthen]
      by_cases hm : m = n
      · subst hm
        simp [hc]
      · rw [Function.update_of_ne (by simpa using hm), holding?]
        simp [Ne.symm hm]

theorem tunnelsOver_hold (hx : h.holding? x = some (q, cache)) (tunnels : TunnelCache) (p : Nat) :
    (h.hold x tunnels).tunnelsOver p =
      if q = p then Function.update (h.tunnelsOver p) x tunnels else h.tunnelsOver p := by
  funext y
  rw [tunnelsOver, holding?_hold hx]
  by_cases hy : y = x
  · subst hy
    split <;> simp_all [tunnelsOver]
  · rw [Function.update_of_ne hy, ← tunnelsOver]
    split
    · rw [Function.update_of_ne hy]
    · rfl

theorem tunnelsOver_self (hx : h.holding? x = some (p, cache)) : h.tunnelsOver p x = cache := by
  rw [tunnelsOver, hx]
  exact if_pos rfl

-- ---------------------------------------------------------------------------
-- What leaves holders and services alone
-- ---------------------------------------------------------------------------

theorem Store.pools_eq {part : HostPart} (hs : h.Store part g) (hp : part ∉ [.pools]) :
    g.pools = h.pools := by
  cases hs with
  | pools => simp at hp
  | _ => rfl

theorem Writes.pools_eq {ps : List HostPart} (hw : Writes ps h g)
    (hps : HostPart.apart ps [.pools] = true) : g.pools = h.pools :=
  hw.same (fun hp hs => hs.pools_eq hp) hps

theorem Store.controllers_eq {part : HostPart} (hs : h.Store part g) (hp : part ∉ [.controllers]) :
    g.controllers = h.controllers := by
  cases hs with
  | controllers => simp at hp
  | _ => rfl

theorem Writes.controllers_eq {ps : List HostPart} (hw : Writes ps h g)
    (hps : HostPart.apart ps [.controllers] = true) : g.controllers = h.controllers :=
  hw.same (fun hp hs => hs.controllers_eq hp) hps

theorem Store.caches_eq {part : HostPart} (hs : h.Store part g) (hp : part ∉ [.caches]) :
    g.caches = h.caches := by
  cases hs with
  | caches => simp at hp
  | _ => rfl

theorem Writes.caches_eq {ps : List HostPart} (hw : Writes ps h g)
    (hps : HostPart.apart ps [.caches] = true) : g.caches = h.caches :=
  hw.same (fun hp hs => hs.caches_eq hp) hps

/-- The parts that holders of tunnels are in. -/
def holderParts : List HostPart := [.environments, .contexts, .tunnels, .caches]

theorem holding?_modifyContext (h : Host) (n : Nat) {change : Context → Context}
    (hchange : ∀ c, ((change c).environment, (change c).tunnels) = (c.environment, c.tunnels)) :
    (h.modifyContext n change).holding? = h.holding? := by
  have hsame : (h.contexts.modify n change).map (fun c => (c.environment, c.tunnels)) =
      h.contexts.map fun c => (c.environment, c.tunnels) := map_modify_of_eq _ _ hchange
  funext x
  cases x with
  | cache k => rfl
  | context m =>
    have hm := congrArg (fun l => l[m]?) hsame
    simp only [List.getElem?_map] at hm
    rw [holding?, holding?, context?, context?, modifyContext]
    cases hc : h.contexts[m]? with
    | none => simp_all
    | some c =>
      obtain ⟨d, hd, hpair⟩ := Option.map_eq_some_iff.mp (hm.trans (congrArg _ hc))
      obtain ⟨henvironment, htunnels⟩ := Prod.mk.inj hpair
      rw [hd, Option.bind_some, Option.bind_some, henvironment, htunnels]
      rfl

theorem Store.holding?_eq {part : HostPart} (hs : h.Store part g) (hp : part ∉ holderParts) :
    g.holding? = h.holding? := by
  cases hs with
  | environments | contexts | caches => simp [holderParts] at hp
  | adjust hc =>
    cases hc with
    | tunnels => simp [holderParts] at hp
    | state | failures | closing => exact holding?_modifyContext h _ fun _ => rfl
  | receivers n b => exact holding?_modifyContext { h with incoming := h.incoming ++ [b] } n fun _ => rfl
  | operators n c o => exact holding?_modifyContext (h.modifyProfile c.profile o.enter) n fun _ => rfl
  | _ =>
    funext x
    cases x <;> rfl

theorem Writes.holding?_eq {ps : List HostPart} (hw : Writes ps h g)
    (hps : HostPart.apart ps holderParts = true) : g.holding? = h.holding? :=
  hw.same (fun hp hs => hs.holding?_eq hp) hps

theorem tunnelsOver_of_holding (hg : g.holding? = h.holding?) : g.tunnelsOver = h.tunnelsOver := by
  funext p x
  rw [tunnelsOver, tunnelsOver, hg]

/-- A new context holds nothing. -/
theorem tunnelsOver_openContext {number n registry : Nat} {e : Environment} {plan : PlanFragment}
    {session : Option UserSession} (he : h.environment? number = some e)
    (ho : h.openContext number e plan session registry = (g, .ok n)) : g.tunnelsOver = h.tunnelsOver := by
  have hwrites := writes_openContext h number e plan session registry
  rw [ho] at hwrites
  have hcaches := hwrites.caches_eq rfl
  obtain ⟨-, c, hopened, hmade⟩ := openContext_made he ho
  funext p x
  rw [tunnelsOver, tunnelsOver]
  cases x with
  | cache k => rw [holding?, hcaches, holding?]
  | context m =>
    rw [holding?, holding?, context?, context?, hopened.contexts_eq]
    have henvironments : g.environment? = h.environment? := by
      funext i
      rw [environment?, hopened.environments_eq, environment?]
    rw [henvironments]
    rcases Nat.lt_trichotomy m h.contexts.length with hlt | rfl | hgt
    · rw [List.getElem?_append_left hlt]
    · rw [List.getElem?_concat_length, List.getElem?_eq_none le_rfl, Option.bind_some, hmade.bare.2]
      cases h.environment? c.environment <;> simp
    · rw [List.getElem?_eq_none (by simp; omega), List.getElem?_eq_none hgt.le]

theorem environments_openEnvironment (h : Host) (root : Nat) (endpoint : Endpoint)
    (options : Option OptionStack) (services : Services) :
    ∃ e, (h.openEnvironment root endpoint options services).1.environments = h.environments ++ [e] ∧
      e.services = services := by
  have hoptions := writes_optionsFor (h.addProfile (Profile.empty Environment.metricsName)).1 options
  have hbefore := (hoptions.sameRecords rfl).environments_eq
  exact ⟨_, congrArg (· ++ [_]) hbefore, rfl⟩

/-- A new environment has no contexts. -/
theorem tunnelsOver_openEnvironment
    (hhoused : ∀ m c, h.context? m = some c → c.environment < h.environments.length) (root : Nat)
    (endpoint : Endpoint) (options : Option OptionStack) (services : Services) :
    (h.openEnvironment root endpoint options services).1.tunnelsOver = h.tunnelsOver := by
  obtain ⟨e, he, -⟩ := environments_openEnvironment h root endpoint options services
  have hcontexts : (h.openEnvironment root endpoint options services).1.contexts = h.contexts := by
    cases options <;> rfl
  have hcaches := (writes_openEnvironment h root endpoint options services).caches_eq rfl
  refine tunnelsOver_of_holding ?_
  funext x
  cases x with
  | cache k => rw [holding?, hcaches, holding?]
  | context m =>
    rw [holding?, holding?, context?, hcontexts, context?]
    cases hm : h.contexts[m]? with
    | none => rfl
    | some c =>
      have hlt := hhoused m c hm
      rw [Option.bind_some, Option.bind_some, environment?, he, List.getElem?_append_left hlt, environment?]

/-- A new cache holds nothing. -/
theorem tunnelsOver_openCache (h : Host) (pool : Nat) :
    (h.openCache pool).1.tunnelsOver = h.tunnelsOver := by
  funext p x
  rw [tunnelsOver, tunnelsOver]
  cases x with
  | context m => rfl
  | cache k =>
    rw [holding?, holding?, openCache]
    dsimp only
    rcases Nat.lt_trichotomy k h.caches.length with hlt | rfl | hgt
    · rw [List.getElem?_append_left hlt]
    · rw [List.getElem?_concat_length, List.getElem?_eq_none le_rfl]
      simp
    · rw [List.getElem?_eq_none (by simp; omega), List.getElem?_eq_none hgt.le]

/-- Only look-ups change what holders have. -/
theorem tunnelsOver_act (hw : h.Wired) {call : HostCall} (hcall : call.lookup? = none) :
    (h.act call).tunnelsOver = h.tunnelsOver := by
  cases call with
  | openContext number plan session registry =>
    rw [act]
    cases he : h.environment? number with
    | none => rfl
    | some e =>
      dsimp only
      cases ho : h.openContext number e plan session registry with
      | mk g outcome =>
        cases outcome with
        | error refusal =>
          exact tunnelsOver_of_holding ((writes_openContext_error ho).holding?_eq rfl)
        | ok n => exact tunnelsOver_openContext he ho
  | openEnvironment root endpoint options services =>
    rw [act]
    split
    · have hroot := (writes_rootFor h root).holding?_eq rfl
      have hsame := (writes_rootFor h root).sameRecords rfl
      have hhoused : ∀ m c, (h.rootFor root).1.context? m = some c →
          c.environment < (h.rootFor root).1.environments.length := by
        intro m c hc
        rw [context?, hsame.contexts_eq] at hc
        obtain ⟨x, -, hx, -⟩ := (hw m c hc).allocator
        rw [hsame.environments_eq]
        exact (List.getElem?_eq_some_iff.mp hx).1
      rw [tunnelsOver_openEnvironment hhoused, tunnelsOver_of_holding hroot]
    · rfl
  | openCache pool =>
    rw [act]
    split
    · exact tunnelsOver_openCache h pool
    · rfl
  | dataTunnel | cachedTunnel => simp [HostCall.lookup?] at hcall
  | _ => exact tunnelsOver_of_holding ((writes_act h _).holding?_eq rfl)

/-- Nobody has asked a service that is taken in. -/
theorem dialogues_takeIn (h : Host) (offer : ServiceOffer) :
    Service.dialogueAt (h.takeIn offer).pools = Service.dialogueAt h.pools ∧
      Service.dialogueAt (h.takeIn offer).controllers = Service.dialogueAt h.controllers := by
  cases offer with
  | pool answers => exact ⟨Service.dialogueAt_append h.pools answers, rfl⟩
  | controller answers => exact ⟨rfl, Service.dialogueAt_append h.controllers answers⟩
  | factory answers => exact ⟨rfl, rfl⟩

/-- Only look-ups ask pools. -/
theorem pools_act (h : Host) {call : HostCall} (hcall : call.lookup? = none) :
    Service.dialogueAt (h.act call).pools = Service.dialogueAt h.pools := by
  cases call with
  | takeIn offer => exact (dialogues_takeIn h offer).1
  | dataTunnel | cachedTunnel => simp [HostCall.lookup?] at hcall
  | _ => exact congrArg _ ((writes_act h _).pools_eq rfl)

-- ---------------------------------------------------------------------------
-- Look-ups
-- ---------------------------------------------------------------------------

theorem act_lookup {call : HostCall} {target : Endpoint} (hcall : call.lookup? = some (x, target)) :
    h.act call = (h.lookUp target x).1 := by
  cases call with
  | dataTunnel n e =>
    obtain ⟨rfl, rfl⟩ := Prod.mk.inj (Option.some.inj hcall)
    rfl
  | cachedTunnel k e =>
    obtain ⟨rfl, rfl⟩ := Prod.mk.inj (Option.some.inj hcall)
    rfl
  | _ => simp [HostCall.lookup?] at hcall

/-- A holder that is not there is not noted, and neither is one above another pool. -/
theorem dataLookup?_eq {call : HostCall} {target : Endpoint} (hcall : call.lookup? = some (x, target)) :
    dataLookup? p h call =
      if (h.holding? x).map (·.1) = some p then (h.lookUp target x).2.map (⟨x, target, ·⟩) else none := by
  rw [dataLookup?, hcall, Option.bind_some]

theorem pools_hold (h : Host) (x : TunnelHolder) (tunnels : TunnelCache) :
    (h.hold x tunnels).pools = h.pools := by
  cases x <;> rfl

theorem tunnelThrough_of_found {target : Endpoint} {t : Tunnel} (hfound : cache.lookup target = some t) :
    h.tunnelThrough cache p target = (h, cache, some t) := by
  rw [tunnelThrough, hfound]

theorem tunnelThrough_of_unanswered {target : Endpoint} (hmiss : cache.lookup target = none)
    (hask : Service.askAt h.pools p target = none) : h.tunnelThrough cache p target = (h, cache, none) := by
  simp only [tunnelThrough, hmiss, hask]

theorem tunnelThrough_of_answered {target : Endpoint} {t : Tunnel} {pools : List TunnelSource}
    (hmiss : cache.lookup target = none) (hask : Service.askAt h.pools p target = some (t, pools)) : h.tunnelThrough cache p target =
      ({ h with pools := pools }.log (TunnelCache.cachedEvent target), cache ++ [(target, t)], some t) := by
  simp only [tunnelThrough, hmiss, hask]

/-- What a look-up does: a holder that finds the endpoint has it already; otherwise its pool is asked, and it
keeps the answer. -/
theorem lookUp_cases (hx : h.holding? x = some (p, cache)) (target : Endpoint) :
    ((h.lookUp target x).1.tunnelsOver = h.tunnelsOver ∧ (h.lookUp target x).1.pools = h.pools ∧
      ∀ t, (h.lookUp target x).2 = some t → cache.lookup target = some t) ∨
    ∃ t, cache.lookup target = none ∧ (h.lookUp target x).2 = some t ∧
      (∀ q, (h.lookUp target x).1.tunnelsOver q =
        if p = q then Function.update (h.tunnelsOver q) x (cache ++ [(target, t)]) else h.tunnelsOver q) ∧
      Service.dialogueAt (h.lookUp target x).1.pools = Function.update (Service.dialogueAt h.pools) p
        (Service.dialogueAt h.pools p ++ [(target, t)]) := by
  have hback : (h.hold x cache).tunnelsOver = h.tunnelsOver := by
    funext q
    rw [tunnelsOver_hold hx]
    split
    · next hq => rw [← hq, ← tunnelsOver_self hx, Function.update_eq_self]
    · rfl
  have hlook : h.lookUp target x = ((h.tunnelThrough cache p target).1.hold x
      (h.tunnelThrough cache p target).2.1, (h.tunnelThrough cache p target).2.2) := by
    rw [lookUp_eq, hx]
  cases hfound : cache.lookup target with
  | some t =>
    rw [hlook, tunnelThrough_of_found hfound]
    exact Or.inl ⟨hback, pools_hold h x cache, fun _ ht => ht⟩
  | none =>
    cases hask : Service.askAt h.pools p target with
    | none =>
      rw [hlook, tunnelThrough_of_unanswered hfound hask]
      exact Or.inl ⟨hback, pools_hold h x cache, by simp⟩
    | some answer =>
      obtain ⟨t, pools⟩ := answer
      -- asking the pool leaves the holders alone
      have hsame : ({ h with pools := pools }.log (TunnelCache.cachedEvent target)).holding? =
          h.holding? := by
        funext y
        cases y <;> rfl
      rw [hlook, tunnelThrough_of_answered hfound hask]
      refine Or.inr ⟨t, rfl, rfl, fun q => ?_, ?_⟩
      · rw [tunnelsOver_hold (by rw [hsame, hx]), tunnelsOver_of_holding hsame]
      · rw [pools_hold]
        exact Service.dialogueAt_askAt hask

/-- One look-up keeps what is known of a pool and of the holders above it. -/
theorem kept_lookUp {first lookups : List TunnelLookup} {call : HostCall} {target : Endpoint}
    (hkept : Kept first lookups (h.tunnelsOver p) (Service.dialogueAt h.pools p))
    (hcall : call.lookup? = some (x, target)) :
    ∃ first, Kept first (lookups ++ (dataLookup? p h call).toList) ((h.act call).tunnelsOver p)
      (Service.dialogueAt (h.act call).pools p) := by
  rw [act_lookup hcall, dataLookup?_eq hcall]
  cases hx : h.holding? x with
  | none =>
    rw [lookUp_eq, hx]
    exact ⟨first, by simpa using hkept⟩
  | some held =>
    obtain ⟨q, cache⟩ := held
    have hq : (Option.map (·.1) (some (q, cache)) = some p) ↔ q = p := by simp
    simp only [hq]
    by_cases hq : q = p
    · subst hq
      rw [if_pos rfl]
      have hself := tunnelsOver_self hx
      rcases lookUp_cases hx target with ⟨htunnels, hpools, hfound⟩ | ⟨t, hmiss, ht, htunnels, hpools⟩
      · rw [htunnels, hpools]
        cases ht : (h.lookUp target x).2 with
        | none => exact ⟨first, by simpa using hkept⟩
        | some t => exact ⟨first, hkept.hit (hself ▸ hfound t ht)⟩
      · rw [ht, htunnels, if_pos rfl, hpools, Function.update_self, ← hself]
        exact ⟨_, hkept.miss (hself ▸ hmiss) t⟩
    · rw [if_neg hq]
      rcases lookUp_cases hx target with ⟨htunnels, hpools, -⟩ | ⟨t, -, -, htunnels, hpools⟩
      · rw [htunnels, hpools]
        exact ⟨first, by simpa using hkept⟩
      · rw [htunnels, if_neg hq, hpools, Function.update_of_ne (Ne.symm hq)]
        exact ⟨first, by simpa using hkept⟩

/-- Whatever is asked of a host, what is known of a pool and of the holders above it stays true. -/
theorem kept_act {first lookups : List TunnelLookup} (hw : h.Wired)
    (hkept : Kept first lookups (h.tunnelsOver p) (Service.dialogueAt h.pools p)) (call : HostCall) :
    ∃ first, Kept first (lookups ++ (dataLookup? p h call).toList) ((h.act call).tunnelsOver p)
      (Service.dialogueAt (h.act call).pools p) := by
  cases hcall : call.lookup? with
  | some looked => exact kept_lookUp hkept hcall
  | none =>
    rw [dataLookup?, hcall, tunnelsOver_act hw hcall, pools_act h hcall]
    exact ⟨first, by simpa using hkept⟩

theorem kept_ofProcess (process : Process) (calls : List HostCall) (p : Nat) :
    ∃ first, Kept first ((Session.ofProcess process).host.noted (dataLookup? p) calls)
      (((Session.ofProcess process).host.actAll calls).tunnelsOver p)
      (Service.dialogueAt ((Session.ofProcess process).host.actAll calls).pools p) := by
  induction calls using List.reverseRecOn with
  | nil =>
    have hnone : (Session.ofProcess process).host.tunnelsOver p = fun _ => [] := by
      funext x
      cases x <;> rfl
    rw [noted, actAll_nil, hnone]
    exact ⟨[], Kept.empty⟩
  | append_singleton calls call ih =>
    obtain ⟨first, hkept⟩ := ih
    rw [noted_concat, actAll_append]
    exact kept_act (wired_ofProcess process calls) hkept call

-- ---------------------------------------------------------------------------
-- Controllers
-- ---------------------------------------------------------------------------

/-- A controller is asked for every control tunnel that is looked up with it, and for nothing else. -/
theorem controllers_act (h : Host) (k : Nat) (call : HostCall) :
    Service.dialogueAt (h.act call).controllers k = Service.dialogueAt h.controllers k ++
      (controlLookup? k h call).toList.map (·.entry) := by
  cases call with
  | takeIn offer =>
    rw [act, (dialogues_takeIn h offer).2]
    simp [controlLookup?]
  | controlTunnel n target =>
    rw [controlLookup?, act, controlTunnel]
    cases hc : h.context? n with
    | none => simp
    | some c =>
      dsimp only
      rw [Option.bind_some]
      cases he : h.environment? c.environment with
      | none => simp
      | some e =>
        dsimp only
        cases hask : Service.askAt h.controllers e.services.controller target with
        | none => simp
        | some answer =>
          obtain ⟨t, controllers⟩ := answer
          dsimp only
          rw [Service.dialogueAt_askAt hask]
          by_cases hk : e.services.controller = k
          · subst hk
            simp [TunnelLookup.entry]
          · rw [Function.update_of_ne (Ne.symm hk)]
            simp [hk]
  | _ =>
    rw [(writes_act h _).controllers_eq rfl]
    simp [controlLookup?]

theorem controllers_actAll (h : Host) (k : Nat) (calls : List HostCall) :
    Service.dialogueAt (h.actAll calls).controllers k = Service.dialogueAt h.controllers k ++
      (h.noted (controlLookup? k) calls).map (·.entry) := by
  induction calls generalizing h with
  | nil => simp [noted]
  | cons call calls ih => rw [actAll_cons, ih, controllers_act, noted, List.map_append, List.append_assoc]

-- ---------------------------------------------------------------------------
-- Answers
-- ---------------------------------------------------------------------------

/-- The services of environments and the pools of caches are there. -/
structure Served (h : Host) : Prop where
  environments : ∀ i e, h.environment? i = some e →
    e.services.pool < h.pools.length ∧ e.services.controller < h.controllers.length
  caches : ∀ (k : Nat) (c : BareCache), h.caches[k]? = some c → c.pool < h.pools.length

/-- From `h` to `g` environments and the pools of caches are the same, and no service was lost. -/
structure Supplies (h g : Host) : Prop where
  environments_eq : g.environments = h.environments
  caches_eq : g.caches.map BareCache.pool = h.caches.map BareCache.pool
  pools_le : h.pools.length ≤ g.pools.length
  controllers_le : h.controllers.length ≤ g.controllers.length

theorem Supplies.refl (h : Host) : h.Supplies h := ⟨rfl, rfl, le_rfl, le_rfl⟩

theorem Supplies.trans {k : Host} (hhg : h.Supplies g) (hgk : g.Supplies k) : h.Supplies k :=
  ⟨hgk.environments_eq.trans hhg.environments_eq, hgk.caches_eq.trans hhg.caches_eq,
    hhg.pools_le.trans hgk.pools_le, hhg.controllers_le.trans hgk.controllers_le⟩

theorem length_le_of_continues {α β : Type} {before after : List (Service α β)}
    (hs : Service.Continues before after) : before.length ≤ after.length := by
  simpa using List.IsPrefix.length_le hs

theorem Store.supplies {part : HostPart} (hs : h.Store part g) (hp : part ∉ [.environments, .caches]) :
    h.Supplies g := by
  cases hs with
  | environments | caches => simp at hp
  | pools hs => exact ⟨rfl, rfl, length_le_of_continues hs, le_rfl⟩
  | controllers hs => exact ⟨rfl, rfl, le_rfl, length_le_of_continues hs⟩
  | _ => exact ⟨rfl, rfl, le_rfl, le_rfl⟩

theorem Writes.supplies {ps : List HostPart} (hw : Writes ps h g)
    (hps : HostPart.apart ps [.environments, .caches] = true) : h.Supplies g :=
  hw.keeps Supplies.refl Supplies.trans (fun hp hs => hs.supplies hp) hps

theorem Served.supplies (hserved : h.Served) (hs : h.Supplies g) : g.Served := by
  constructor
  case environments =>
    intro i e he
    rw [environment?, hs.environments_eq] at he
    obtain ⟨hpool, hcontroller⟩ := hserved.environments i e he
    exact ⟨hpool.trans_le hs.pools_le, hcontroller.trans_le hs.controllers_le⟩
  case caches =>
    intro k c hc
    have hpool : (h.caches.map BareCache.pool)[k]? = some c.pool := by
      rw [← hs.caches_eq, List.getElem?_map, hc]
      rfl
    rw [List.getElem?_map] at hpool
    obtain ⟨d, hd, hsame⟩ := Option.map_eq_some_iff.mp hpool
    exact hsame ▸ (hserved.caches k d hd).trans_le hs.pools_le

theorem supplies_cachedTunnel (h : Host) (k : Nat) (target : Endpoint) :
    h.Supplies (h.cachedTunnel k target).1 := by
  unfold cachedTunnel
  split
  · exact .refl h
  · next c _ =>
    have hthrough := (writes_tunnelThrough h c.tunnels c.pool target).supplies rfl
    exact hthrough.trans ⟨rfl, map_modify_of_eq _ _ fun _ => rfl, le_rfl, le_rfl⟩

/-- Whatever is asked of a host, its environments and caches are above services that are there. -/
theorem served_act (hserved : h.Served) (call : HostCall) : (h.act call).Served := by
  cases call with
  | openEnvironment root endpoint options services =>
    rw [act]
    split
    · next hservices =>
      have hroot := hserved.supplies ((writes_rootFor h root).supplies rfl)
      obtain ⟨x, hx, rfl⟩ := environments_openEnvironment (h.rootFor root).1 (h.rootFor root).2 endpoint
        options services
      have hwrites := writes_openEnvironment (h.rootFor root).1 (h.rootFor root).2 endpoint options x.services
      have hpools := hwrites.pools_eq rfl
      have hcontrollers := hwrites.controllers_eq rfl
      have hcaches := hwrites.caches_eq rfl
      constructor
      case environments =>
        intro i e he
        rw [environment?, hx] at he
        rw [hpools, hcontrollers]
        rcases List.mem_append.mp (List.mem_of_getElem? he) with hold | hnew
        · obtain ⟨j, hj⟩ := List.mem_iff_getElem?.mp hold
          exact hroot.environments j e hj
        · have hthere : h.Supplies (h.rootFor root).1 := (writes_rootFor h root).supplies rfl
          rw [hasServices] at hservices
          simp only [Bool.and_eq_true, decide_eq_true_eq] at hservices
          rw [List.mem_singleton.mp hnew]
          exact ⟨hservices.1.1.trans_le hthere.pools_le, hservices.1.2.trans_le hthere.controllers_le⟩
      case caches =>
        rw [hcaches, hpools]
        exact hroot.caches
    · exact hserved
  | openCache pool =>
    rw [act]
    split
    · next hpool =>
      refine ⟨hserved.environments, fun k c hc => ?_⟩
      rcases List.mem_append.mp (List.mem_of_getElem? hc) with hold | hnew
      · obtain ⟨i, hi⟩ := List.mem_iff_getElem?.mp hold
        exact hserved.caches i c hi
      · rw [List.mem_singleton.mp hnew]
        exact hpool
    · exact hserved
  | cachedTunnel k target => exact hserved.supplies (supplies_cachedTunnel h k target)
  | _ => exact hserved.supplies ((writes_act h _).supplies rfl)

theorem served_ofProcess (process : Process) (calls : List HostCall) :
    ((Session.ofProcess process).host.actAll calls).Served := by
  induction calls using List.reverseRecOn with
  | nil => constructor <;> simp [environment?, Session.ofProcess]
  | append_singleton calls call ih =>
    rw [actAll_append]
    exact served_act ih call

theorem isSome_askAt {α β : Type} {services : List (Service α β)} {number : Nat} (request : α)
    (hlt : number < services.length) : (Service.askAt services number request).isSome = true := by
  rw [Service.askAt, List.getElem?_eq_getElem hlt]
  rfl

/-- A look-up through a holder that is there has an answer. -/
theorem isSome_lookUp (hserved : h.Served) (target : Endpoint) (x : TunnelHolder) :
    (h.lookUp target x).2.isSome = (h.holding? x).isSome := by
  rw [lookUp_eq]
  cases hx : h.holding? x with
  | none => rfl
  | some held =>
    obtain ⟨p, cache⟩ := held
    have hlt : p < h.pools.length := by
      cases x with
      | context n =>
        obtain ⟨c, -, hheld⟩ := Option.bind_eq_some_iff.mp hx
        obtain ⟨e, he, hpair⟩ := Option.map_eq_some_iff.mp hheld
        obtain ⟨rfl, -⟩ := Prod.mk.inj hpair
        exact (hserved.environments _ e he).1
      | cache k =>
        obtain ⟨c, hc, hpair⟩ := Option.map_eq_some_iff.mp hx
        obtain ⟨rfl, -⟩ := Prod.mk.inj hpair
        exact hserved.caches k c hc
    obtain ⟨answer, hask⟩ := Option.isSome_iff_exists.mp (isSome_askAt target hlt)
    cases hfound : cache.lookup target with
    | some t => exact congrArg (·.2.2.isSome) (tunnelThrough_of_found hfound)
    | none => exact congrArg (·.2.2.isSome) (tunnelThrough_of_answered hfound hask)

/-- Contexts have environments, so that look-ups through them have answers. -/
theorem answers_of_wired (hw : h.Wired) (hserved : h.Served) (n : Nat) (target : Endpoint) :
    (h.dataTunnel n target).2.isSome = (h.context? n).isSome ∧
      (h.controlTunnel n target).2.isSome = (h.context? n).isSome := by
  have hdata := isSome_lookUp hserved target (.context n)
  rw [lookUp, holding?] at hdata
  rw [hdata, controlTunnel]
  cases hc : h.context? n with
  | none => exact ⟨rfl, rfl⟩
  | some c =>
    obtain ⟨e, -, he, -⟩ := (hw n c hc).allocator
    obtain ⟨answer, hask⟩ :=
      Option.isSome_iff_exists.mp (isSome_askAt target (hserved.environments _ e he).2)
    dsimp only
    rw [Option.bind_some, he]
    dsimp only
    rw [hask]
    exact ⟨rfl, rfl⟩

end Host

-- ---------------------------------------------------------------------------
-- Main statement
-- ---------------------------------------------------------------------------

/-- Whatever is asked of a node, the contexts and the bare caches above one pool keep the data tunnels that
were looked up through them, each its own, if the pool opened a new tunnel at each request; control tunnels
come from the controller each time; and every look-up through a context or a cache that is there has an
answer. -/
theorem tunnels_kept (process : Process) (calls : List HostCall) :
    let start := (Session.ofProcess process).host
    let h := start.actAll calls
    (∀ p pool, h.pools[p]? = some pool → pool.Fresh →
      KeepsTunnels (start.noted (Host.dataLookup? p) calls) (h.tunnelsOver p) pool) ∧
    (∀ k controller, h.controllers[k]? = some controller →
      Forwarded (start.noted (Host.controlLookup? k) calls) controller) ∧
    (∀ n target, (h.dataTunnel n target).2.isSome = (h.context? n).isSome ∧
      (h.controlTunnel n target).2.isSome = (h.context? n).isSome) ∧
    ∀ k target, (h.cachedTunnel k target).2.isSome = h.caches[k]?.isSome := by
  intro start h
  have hserved := Host.served_ofProcess process calls
  refine ⟨?_, ?_, Host.answers_of_wired (Host.wired_ofProcess process calls) hserved, ?_⟩
  · intro p pool hpool hfresh
    obtain ⟨first, hkept⟩ := Host.kept_ofProcess process calls p
    have hdialogue : Service.dialogueAt h.pools p = pool.dialogue := by
      rw [Service.dialogueAt, hpool]
      rfl
    rw [hdialogue] at hkept
    exact hkept.keepsTunnels hfresh
  · intro k controller hcontroller
    have hdialogue : Service.dialogueAt h.controllers k = controller.dialogue := by
      rw [Service.dialogueAt, hcontroller]
      rfl
    have hrun := Host.controllers_actAll start k calls
    rw [hdialogue] at hrun
    exact forwarded_of_dialogue hrun
  · intro k target
    have hcached := Host.isSome_lookUp hserved target (.cache k)
    rwa [Host.lookUp, Host.holding?, Option.isSome_map] at hcached

/-- Two nodes of one text. -/
def nearNode : Endpoint := ⟨"node", 1, 2, 3⟩

def farNode : Endpoint := ⟨"node", 1, 9, 3⟩

/-- A fragment that reserves nothing. -/
def talkingPlan : PlanFragment := ⟨⟨⟨1, 2⟩, 1, 0⟩, 0, 500, none, nearNode, nearNode, 0, "UTC"⟩

/-- Contexts of two environments and a cache above one pool. -/
def sharedPoolRun : List HostCall :=
  HostCall.plainServices ++ [.root "root" 1000, .openEnvironment (some 0) nearNode none ⟨0, 0, 0⟩,
    .openEnvironment (some 0) nearNode none ⟨0, 0, 0⟩, .openContext 0 talkingPlan none 0,
    .openContext 1 talkingPlan none 0, .openCache 0, .dataTunnel 0 nearNode, .dataTunnel 0 farNode,
    .dataTunnel 1 nearNode, .cachedTunnel 0 nearNode, .dataTunnel 0 nearNode, .controlTunnel 0 nearNode]

def sharedPoolNode : Host := (Session.ofProcess {}).host.actAll sharedPoolRun

/-- The pool after the run. -/
def sharedPool : TunnelSource := ⟨Tunnel.numbered, [nearNode, farNode, nearNode, nearNode]⟩

theorem pools_sharedPoolNode : sharedPoolNode.pools[0]? = some sharedPool := rfl

/-- Only the last data tunnel was there already. -/
theorem tunnels_kept_sharedPool :
    nearNode.text = farNode.text ∧ sharedPoolNode.pools[0]? = some sharedPool ∧ sharedPool.Fresh ∧
      ((Session.ofProcess {}).host.noted (Host.dataLookup? 0) sharedPoolRun).map (·.tunnel.number) =
        [1, 2, 3, 4, 1] ∧
      KeepsTunnels ((Session.ofProcess {}).host.noted (Host.dataLookup? 0) sharedPoolRun)
        (sharedPoolNode.tunnelsOver 0) sharedPool := by
  have hfresh : sharedPool.Fresh := TunnelSource.fresh_of_numbered rfl
  exact ⟨by decide +kernel, pools_sharedPoolNode, hfresh, by decide +kernel,
    (tunnels_kept {} sharedPoolRun).1 0 sharedPool pools_sharedPoolNode hfresh⟩

end FragmentHost

import FragmentHost.Proofs.Failure.Aggregation
import FragmentHost.Proofs.Host.Calls
import Mathlib.Logic.Relation

/-!
# What calls write

A host is written in parts. `Host.Store` lists every way in which a part is ever written, and each operation
of a host is a sequence of such stores (`Host.Writes`), with the parts of a call in `HostCall.parts`:
`writes_act` goes through the calls once. What a call leaves alone is then read off its parts: a relation
between states that the stores of these parts keep is kept by the call (`Writes.keeps`).
-/

namespace FragmentHost

/-- The parts of a host that are written by themselves. -/
inductive HostPart where
  | memory
  | journal
  | config
  | options
  | pools
  | controllers
  | factories
  | caches
  /-- The counters of environments. -/
  | metrics
  /-- More profiles. -/
  | profiles
  /-- More environments. -/
  | environments
  /-- More contexts. -/
  | contexts
  /-- Of a context: its state. -/
  | states
  /-- Of a context: its failures. -/
  | failures
  /-- Of a context: its tunnels. -/
  | tunnels
  /-- Of a context: that it is closed. -/
  | closing
  /-- Of a context: its incoming buffers, which are new. -/
  | receivers
  /-- Of a context: its operators, with their nodes in the profile. -/
  | operators
  /-- The incoming buffers that are there. -/
  | incoming
  | surroundings
  deriving DecidableEq, Repr

namespace HostPart

/-- None of the parts `ps` is among the parts `qs`. -/
def apart (ps qs : List HostPart) : Bool := ps.all fun p => !qs.contains p

theorem notMem_of_apart {ps qs : List HostPart} (h : apart ps qs = true) {p : HostPart} (hp : p ∈ ps) :
    p ∉ qs := by
  have hall := List.all_eq_true.mp h p hp
  simpa using hall

end HostPart

/-- The parts that a call may write. -/
def HostCall.parts : HostCall → List HostPart
  | .root _ _ | .consume _ _ | .release _ _ | .closeAllocator _ | .openPool _ _ _ | .getDefault _
  | .getBuffer _ _ | .releaseBuffer _ | .write _ _ _ => [.memory]
  | .child _ _ _ _ _ | .limit _ _ | .replaceBuffer _ _ _ _ | .closePool _ | .keep _ =>
    [.memory, .journal]
  | .takeIn _ => [.pools, .controllers, .factories]
  | .openEnvironment _ _ _ _ => [.config, .memory, .profiles, .options, .environments]
  | .openContext _ _ _ _ => [.config, .memory, .journal, .metrics, .profiles, .contexts]
  | .fail _ _ => [.journal, .states, .metrics, .failures]
  | .cancel _ => [.journal, .states, .metrics]
  | .rootSchema _ => [.factories, .journal, .states, .metrics, .failures]
  | .attach _ _ => [.receivers]
  | .deferFailure _ _ | .takeDeferred _ | .closeDeferred _ => [.failures]
  | .openCache _ => [.caches]
  | .cachedTunnel _ _ => [.pools, .journal, .caches]
  | .dataTunnel _ _ => [.pools, .journal, .tunnels]
  | .controlTunnel _ _ => [.controllers]
  | .addOperator _ _ => [.operators]
  | .closeContext _ => [.memory, .journal, .incoming, .closing]
  | .elsewhere _ => [.surroundings]

/-- The changes of one context by itself, with the part that each of them writes. -/
inductive Context.Adjusts : HostPart → (Context → Context) → Prop where
  | state (target : Lifecycle) : Adjusts .states fun c => { c with state := c.state.request target }
  | failures {change : Deferred → Deferred} (h : ∀ d, d.Sound → (change d).Sound) :
    Adjusts .failures fun c => { c with deferred := change c.deferred }
  | tunnels (tunnels : TunnelCache) : Adjusts .tunnels fun c => { c with tunnels }
  | closing {d : Deferred} (h : d.Sound) :
    Adjusts .closing fun c => { c with isClosed := true, incoming := none, deferred := d }

/-- A change that spares a part of the elements. -/
theorem map_modify_of_eq {α β : Type} (l : List α) (i : Nat) {change : α → α} {part : α → β}
    (hchange : ∀ x, part (change x) = part x) : (l.modify i change).map part = l.map part := by
  refine List.ext_getElem? fun j => ?_
  rw [List.getElem?_map, List.getElem?_map, List.getElem?_modify]
  cases l[j]? with
  | none => rfl
  | some x =>
    by_cases hij : i = j
    · simp [hij, hchange]
    · simp [hij]

/-- Services go on with the answers that they give, and services are only added. -/
def Service.Continues {α β : Type} (before after : List (Service α β)) : Prop :=
  before.map (·.answers) <+: after.map (·.answers)

theorem Service.Continues.refl {α β : Type} (services : List (Service α β)) :
    Continues services services :=
  List.prefix_rfl

theorem Service.continues_append {α β : Type} (services : List (Service α β)) (s : Service α β) :
    Continues services (services ++ [s]) := by
  rw [Continues, List.map_append]
  exact List.prefix_append _ _

/-- A service that was asked goes on with its answers. -/
theorem Service.continues_askAt {α β : Type} {services after : List (Service α β)} {number : Nat}
    {request : α} {answer : β} (h : askAt services number request = some (answer, after)) :
    Continues services after := by
  obtain ⟨s, hs, hask⟩ := Option.map_eq_some_iff.mp h
  obtain ⟨-, rfl⟩ := Prod.mk.inj hask
  have hsame : (services.set number (s.ask request).2).map (·.answers) = services.map (·.answers) := by
    rw [List.map_set, answers_ask]
    refine List.ext_getElem? fun i => ?_
    by_cases hi : number = i
    · subst hi
      obtain ⟨hlt, rfl⟩ := List.getElem?_eq_some_iff.mp hs
      simp [hlt]
    · rw [List.getElem?_set_ne hi]
  rw [Continues, hsame]

namespace Host

/-- One part of a host is written once. -/
inductive Store (h : Host) : HostPart → Host → Prop where
  | memory (a : Arena) : Store h .memory { h with arena := a }
  | journal (j : Journal) : Store h .journal { h with journal := j }
  | config (c : ConfigSource) : Store h .config { h with config := c }
  | options (os : List NodeOptions) : Store h .options { h with options := os }
  | pools {ss : List TunnelSource} (hs : Service.Continues h.pools ss) :
    Store h .pools { h with pools := ss }
  | controllers {ss : List TunnelSource} (hs : Service.Continues h.controllers ss) :
    Store h .controllers { h with controllers := ss }
  | factories {ss : List SchemaFactory} (hs : Service.Continues h.factories ss) :
    Store h .factories { h with factories := ss }
  | caches {cs : List BareCache} (hc : h.caches.map (·.pool) <+: cs.map (·.pool)) :
    Store h .caches { h with caches := cs }
  | metrics {e : Nat} {x : Environment} (hx : h.environment? e = some x) (metric : String) :
    Store h .metrics (h.modifyProfile x.metrics (·.addTo metric .count 1))
  | profiles (p : Profile) : Store h .profiles { h with profiles := h.profiles ++ [p] }
  | environments (x : Environment) : Store h .environments { h with environments := h.environments ++ [x] }
  | contexts (c : Context) : Store h .contexts { h with contexts := h.contexts ++ [c] }
  | adjust {part : HostPart} {change : Context → Context} (hc : Context.Adjusts part change) (n : Nat) :
    Store h part (h.modifyContext n change)
  | receivers (n : Nat) (b : IncomingBuffers) : Store h .receivers (h.attachIncoming n b).1
  | operators (n : Nat) (c : Context) (o : Operator) : Store h .operators (h.addOperator n c o)
  | incoming (n : Nat) (change : IncomingBuffers → IncomingBuffers) :
    Store h .incoming { h with incoming := h.incoming.modify n change }
  | surroundings (s : Surroundings) : Store h .surroundings (h.within s)

/-- From `h` to `g`, these parts were written and no others. -/
def Writes (ps : List HostPart) : Host → Host → Prop :=
  Relation.ReflTransGen fun h g => ∃ p ∈ ps, h.Store p g

variable {h g k : Host} {ps qs : List HostPart}

namespace Writes

theorem refl (ps : List HostPart) (h : Host) : Writes ps h h := Relation.ReflTransGen.refl

theorem trans (hhg : Writes ps h g) (hgk : Writes ps g k) : Writes ps h k :=
  Relation.ReflTransGen.trans hhg hgk

theorem mono (hw : Writes ps h g) (hsub : ps ⊆ qs) : Writes qs h g :=
  Relation.ReflTransGen.mono (fun _ _ ⟨p, hp, hs⟩ => ⟨p, hsub hp, hs⟩) _ _ hw

/-- Whatever single stores keep is kept by all of them. -/
theorem keeps {R : Host → Host → Prop} (hrefl : ∀ h, R h h)
    (htrans : ∀ {h g k}, R h g → R g k → R h k)
    (hstore : ∀ {h g p}, p ∉ qs → Store h p g → R h g)
    (hw : Writes ps h g) (hps : HostPart.apart ps qs = true) : R h g := by
  induction hw with
  | refl => exact hrefl h
  | tail _ hlast ih =>
    obtain ⟨p, hp, hs⟩ := hlast
    exact htrans ih (hstore (HostPart.notMem_of_apart hps hp) hs)

/-- What single stores leave as it is is left as it is by all of them. -/
theorem same {α : Type} {f : Host → α} (hstore : ∀ {h g p}, p ∉ qs → Store h p g → f g = f h)
    (hw : Writes ps h g) (hps : HostPart.apart ps qs = true) : f g = f h :=
  hw.keeps (R := fun h g => f g = f h) (fun _ => rfl) (fun hhg hgk => hgk.trans hhg) hstore hps

end Writes

theorem Store.writes {p : HostPart} (hs : h.Store p g) : Writes [p] h g :=
  Relation.ReflTransGen.single ⟨p, List.mem_singleton_self p, hs⟩

/-- One more store. -/
theorem Store.after {p : HostPart} (hs : g.Store p k) (hw : Writes ps h g) (hp : p ∈ ps) : Writes ps h k :=
  Relation.ReflTransGen.tail hw ⟨p, hp, hs⟩

-- ---------------------------------------------------------------------------
-- Memory
-- ---------------------------------------------------------------------------

theorem writes_memory (h : Host) (a : Arena) : Writes [.memory] h { h with arena := a } :=
  (Store.memory a).writes

theorem writes_journal (h : Host) (j : Journal) : Writes [.journal] h { h with journal := j } :=
  (Store.journal j).writes

theorem writes_both (h : Host) (a : Arena) (j : Journal) :
    Writes [.memory, .journal] h { h with arena := a, journal := j } :=
  (Store.journal j).after ((writes_memory h a).mono (by simp)) (by simp)

theorem writes_newChild {parent child : Nat} {label : String} {initial max : Int} {obeysLimits : Bool}
    (hg : h.newChild parent label initial max obeysLimits = .ok (g, child)) :
    Writes [.memory, .journal] h g := by
  unfold newChild at hg
  split at hg
  · simp at hg
  · obtain ⟨rfl, -⟩ := Prod.mk.inj (Except.ok.inj hg)
    exact writes_both h _ _

theorem writes_orSame {outcome : Except Failure (Host × Nat)}
    (hok : ∀ g n, outcome = .ok (g, n) → Writes ps h g) : Writes ps h (h.orSame outcome) := by
  cases ho : outcome with
  | error refusal => exact .refl ps h
  | ok made => exact hok made.1 made.2 ho

theorem writes_ofArena (h : Host) (outcome : Except Failure (Arena × Nat)) :
    Writes [.memory] h (h.orSame (h.ofArena outcome)) := by
  cases outcome with
  | error refusal => exact .refl _ h
  | ok made => exact writes_memory h made.1

theorem writes_writeBuffer (h : Host) (b start : Nat) (bytes : List UInt8) :
    Writes [.memory] h (h.writeBuffer b start bytes) := by
  unfold writeBuffer
  split
  · exact .refl _ h
  · split
    · exact writes_memory h _
    · exact .refl _ h

theorem writes_dropAllocator (h : Host) (i : Nat) : Writes [.memory, .journal] h (h.dropAllocator i) := by
  unfold dropAllocator
  split
  · split
    · exact writes_both h _ _
    · exact (writes_memory h _).mono (by simp)
  · exact (writes_memory h _).mono (by simp)

theorem writes_giveUpAllocators (h : Host) (names : Holders) (allocators : List Nat) :
    Writes [.memory, .journal] h (h.giveUpAllocators names allocators) := by
  have hfold : ∀ (held : List Nat) (g : Host), Writes [.memory, .journal] g (allocators.foldl
      (fun g i => if held.contains i || g.forest.isDropped i then g else g.dropAllocator i) g) := by
    intro held
    induction allocators with
    | nil => exact .refl _
    | cons i rest ih =>
      intro g
      rw [List.foldl_cons]
      refine Writes.trans ?_ (ih _)
      split
      · exact .refl _ g
      · exact writes_dropAllocator g i
  exact hfold _ h

theorem writes_collect (h : Host) (names : Holders) : Writes [.memory, .journal] h (h.collect names) :=
  ((writes_memory h _).mono (by simp)).trans (writes_giveUpAllocators _ names _)

theorem writes_dropBuffer (h : Host) (names : Holders) (b : Nat) :
    Writes [.memory, .journal] h (h.dropBuffer names b) :=
  ((writes_memory h _).mono (by simp)).trans (writes_giveUpAllocators _ names _)

theorem writes_replaceBuffer (h : Host) (names : Holders) (pool old size : Nat) :
    Writes [.memory, .journal] h (h.replaceBuffer names pool old size).1 := by
  unfold replaceBuffer
  split
  · exact (writes_memory h _).mono (by simp)
  · exact writes_dropBuffer h names old

-- ---------------------------------------------------------------------------
-- Services and tunnels
-- ---------------------------------------------------------------------------

theorem writes_takeIn (h : Host) (offer : ServiceOffer) :
    Writes [.pools, .controllers, .factories] h (h.takeIn offer) := by
  cases offer with
  | pool => exact (Store.pools (Service.continues_append _ _)).writes.mono (by simp)
  | controller => exact (Store.controllers (Service.continues_append _ _)).writes.mono (by simp)
  | factory => exact (Store.factories (Service.continues_append _ _)).writes.mono (by simp)

theorem writes_tunnelThrough (h : Host) (cache : TunnelCache) (pool : Nat) (target : Endpoint) :
    Writes [.pools, .journal] h (h.tunnelThrough cache pool target).1 := by
  unfold tunnelThrough
  split
  · exact .refl _ h
  · split
    · exact .refl _ h
    · next hask =>
      exact (Store.journal _).after ((Store.pools (Service.continues_askAt hask)).writes.mono (by simp))
        (by simp)

theorem writes_openCache (h : Host) (pool : Nat) : Writes [.caches] h (h.openCache pool).1 := by
  refine (Store.caches ?_).writes
  rw [List.map_append]
  exact List.prefix_append _ _

theorem writes_cachedTunnel (h : Host) (number : Nat) (target : Endpoint) :
    Writes [.pools, .journal, .caches] h (h.cachedTunnel number target).1 := by
  unfold cachedTunnel
  split
  · exact .refl _ h
  · next c _ =>
    have hthrough := writes_tunnelThrough h c.tunnels c.pool target
    have hpools : ∀ (cs : List BareCache) (tunnels : TunnelCache),
        (cs.modify number fun x => { x with tunnels }).map (·.pool) = cs.map (·.pool) :=
      fun cs _ => map_modify_of_eq cs number fun _ => rfl
    refine (Store.caches ?_).after (hthrough.mono (by simp)) (by simp)
    rw [hpools]

theorem writes_dataTunnel (h : Host) (n : Nat) (target : Endpoint) :
    Writes [.pools, .journal, .tunnels] h (h.dataTunnel n target).1 := by
  unfold dataTunnel
  split
  · exact .refl _ h
  · next c _ =>
    split
    · exact .refl _ h
    · next e _ =>
      have hthrough := writes_tunnelThrough h c.tunnels e.services.pool target
      exact (Store.adjust (.tunnels _) n).after (hthrough.mono (by simp)) (by simp)

theorem writes_controlTunnel (h : Host) (n : Nat) (target : Endpoint) :
    Writes [.controllers] h (h.controlTunnel n target).1 := by
  unfold controlTunnel
  split
  · exact .refl _ h
  · split
    · exact .refl _ h
    · split
      · exact .refl _ h
      · next hask => exact (Store.controllers (Service.continues_askAt hask)).writes

-- ---------------------------------------------------------------------------
-- Environments and contexts
-- ---------------------------------------------------------------------------

theorem writes_settings (h : Host) : Writes [.config] h h.settings.2 := (Store.config _).writes

theorem writes_rootFor (h : Host) (root : Option Nat) : Writes [.config, .memory] h (h.rootFor root).1 := by
  cases root with
  | some r => exact .refl _ h
  | none => exact (Store.memory _).after ((writes_settings h).mono (by simp)) (by simp)

theorem writes_addProfile (h : Host) (p : Profile) : Writes [.profiles] h (h.addProfile p).1 :=
  (Store.profiles p).writes

theorem writes_optionsFor (h : Host) (options : Option OptionStack) :
    Writes [.options] h (h.optionsFor options).1 := by
  cases options with
  | some s => exact .refl _ h
  | none => exact (Store.options _).writes

theorem writes_openEnvironment (h : Host) (root : Nat) (endpoint : Endpoint)
    (options : Option OptionStack) (services : Services) :
    Writes [.profiles, .options, .environments] h (h.openEnvironment root endpoint options services).1 := by
  have hprofile : Writes [.profiles, .options, .environments] h
      (h.addProfile (Profile.empty Environment.metricsName)).1 :=
    (writes_addProfile h _).mono (by simp)
  exact (Store.environments _).after (hprofile.trans ((writes_optionsFor _ options).mono (by simp)))
    (by simp)

theorem writes_count (h : Host) (e : Nat) (metric : String) : Writes [.metrics] h (h.count e metric) := by
  unfold count
  split
  · exact .refl _ h
  · next x hx => exact (Store.metrics hx metric).writes

/-- A context that could not be made: nothing but the configuration was read for it. -/
theorem writes_openContext_error {number registry : Nat} {e : Environment} {plan : PlanFragment}
    {session : Option UserSession} {refusal : Failure}
    (ho : h.openContext number e plan session registry = (g, .error refusal)) : Writes [.config] h g := by
  unfold openContext at ho
  split at ho
  · obtain ⟨rfl, -⟩ := Prod.mk.inj ho
    exact .refl _ h
  · dsimp only at ho
    split at ho
    · obtain ⟨rfl, -⟩ := Prod.mk.inj ho
      exact writes_settings h
    · simp at ho

theorem writes_furnish (h : Host) (number : Nat) (p : PlanFragment) (session : Option UserSession)
    (registry : Nat) (options : OptionStack) (time : QueryTime) (allocator : Nat) :
    Writes [.config, .memory, .journal, .metrics, .profiles, .contexts] h
      (h.furnish number p session registry options time allocator).1 := by
  have hcounted : Writes [.config, .memory, .journal, .metrics, .profiles, .contexts] h
      (h.count number Environment.started) :=
    (writes_count h number Environment.started).mono (by simp)
  have hprofile := (Store.profiles (FragmentProfile.start p.handle p.assignment)).after hcounted
    (by simp)
  have hsettings := hprofile.trans ((writes_settings _).mono (by simp))
  exact (Store.contexts _).after
    ((Store.journal _).after ((Store.memory _).after hsettings (by simp)) (by simp)) (by simp)

theorem writes_openContext (h : Host) (number : Nat) (e : Environment) (plan : PlanFragment)
    (session : Option UserSession) (registry : Nat) :
    Writes [.config, .memory, .journal, .metrics, .profiles, .contexts] h
      (h.openContext number e plan session registry).1 := by
  unfold openContext
  split
  · exact .refl _ h
  · dsimp only
    split
    · exact (writes_settings h).mono (by simp)
    · next k allocator hk =>
      have hreserved : Writes [.config, .memory, .journal, .metrics, .profiles, .contexts] h k :=
        ((writes_settings h).mono (by simp)).trans ((writes_newChild hk).mono (by simp))
      exact hreserved.trans (writes_furnish k number plan session registry _ _ allocator)

theorem writes_signal (h : Host) (n : Nat) (c : Context) (target : Lifecycle) (metric : String) :
    Writes [.states, .metrics] h (h.signal n c target metric) := by
  unfold signal
  split
  · exact .refl _ h
  · exact ((Store.adjust (.state target) n).writes.mono (by simp)).trans
      ((writes_count _ _ _).mono (by simp))

theorem writes_failContext (h : Host) (n : Nat) (cause : Failure) :
    Writes [.journal, .states, .metrics, .failures] h (h.failContext n cause) := by
  unfold failContext
  split
  · exact .refl _ h
  · next c _ =>
    have hsignal : Writes [.journal, .states, .metrics, .failures] h
        ((h.log (c.failureEvent cause)).signal n c .failed Environment.failed) :=
      ((writes_journal h _).mono (by simp)).trans ((writes_signal _ n c _ _).mono (by simp))
    dsimp only
    split
    · next d hd =>
      have hsound : d.Sound := Deferred.sound_of_add hd
      exact (Store.adjust (.failures fun _ _ => hsound) n).after hsignal (by simp)
    · exact (Store.journal _).after hsignal (by simp)

theorem writes_cancelContext (h : Host) (n : Nat) :
    Writes [.journal, .states, .metrics] h (h.cancelContext n) := by
  unfold cancelContext
  split
  · exact .refl _ h
  · next c _ =>
    dsimp only
    refine Writes.trans ?_ ((writes_signal _ n c .canceled Environment.canceled).mono (by simp))
    split
    · exact .refl _ h
    · exact (writes_journal h _).mono (by simp)

theorem writes_rootSchema (h : Host) (n : Nat) :
    Writes [.factories, .journal, .states, .metrics, .failures] h (h.rootSchema n).1 := by
  unfold rootSchema
  split
  · exact .refl _ h
  · split
    · exact (writes_failContext h n _).mono (by simp)
    · split
      · exact .refl _ h
      · next hask =>
        obtain ⟨e, -, hask⟩ := Option.bind_eq_some_iff.mp hask
        exact (Store.factories (Service.continues_askAt hask)).writes.mono (by simp)
      · next hask =>
        obtain ⟨e, -, hask⟩ := Option.bind_eq_some_iff.mp hask
        exact ((Store.factories (Service.continues_askAt hask)).writes.mono (by simp)).trans
          ((writes_failContext _ n _).mono (by simp))

theorem writes_modifyDeferred (h : Host) (n : Nat) {change : Deferred → Deferred}
    (hchange : ∀ d, d.Sound → (change d).Sound) : Writes [.failures] h (h.modifyDeferred n change) :=
  (Store.adjust (.failures hchange) n).writes

theorem writes_releaseIncoming (h : Host) (c : Context) (d : Deferred) :
    Writes [.incoming] h (h.releaseIncoming c d).1 := by
  unfold releaseIncoming
  split
  · exact .refl _ h
  · split
    · exact .refl _ h
    · exact (Store.incoming _ _).writes

theorem writes_closeContext (h : Host) (n : Nat) :
    Writes [.memory, .journal, .incoming, .closing] h (h.closeContext n).1 := by
  unfold closeContext
  split
  · exact .refl _ h
  · next c _ =>
    split
    · exact .refl _ h
    · generalize closingOf h.arena c.pool = closing
      obtain ⟨arena, events⟩ := closing
      have hincoming : Writes [.memory, .journal, .incoming, .closing] h
          (releaseIncoming { h with arena } c c.deferred).1 :=
        ((writes_memory h arena).mono (by simp)).trans ((writes_releaseIncoming _ c _).mono (by simp))
      exact (Store.journal _).after ((Store.adjust (.closing (Deferred.sound_close _)) n).after
        ((Store.memory _).after hincoming (by simp)) (by simp)) (by simp)

theorem writes_act_openContext (h : Host) (number : Nat) (plan : PlanFragment)
    (session : Option UserSession) (registry : Nat) :
    Writes (HostCall.openContext number plan session registry).parts h
      (h.act (.openContext number plan session registry)) := by
  rw [act]
  split
  · exact writes_openContext h number _ plan session registry
  · exact .refl _ h

theorem writes_act_openEnvironment (h : Host) (root : Option Nat) (endpoint : Endpoint)
    (options : Option OptionStack) (services : Services) :
    Writes (HostCall.openEnvironment root endpoint options services).parts h
      (h.act (.openEnvironment root endpoint options services)) := by
  rw [act]
  split
  · exact ((writes_rootFor h root).mono (by simp [HostCall.parts])).trans
      ((writes_openEnvironment _ _ endpoint options services).mono (by simp [HostCall.parts]))
  · exact .refl _ h

/-- A call writes its parts and no others. -/
theorem writes_act (h : Host) (call : HostCall) : Writes call.parts h (h.act call) := by
  cases call with
  | child parent label initial max obeysLimits => exact writes_orSame fun g n hg => writes_newChild hg
  | consume allocator bytes =>
    rw [act, consume]
    cases h.forest.consume allocator bytes with
    | error refusal => exact .refl _ h
    | ok f => exact writes_memory h _
  | getDefault | getBuffer => exact writes_ofArena h _
  | replaceBuffer pool old size left => exact writes_replaceBuffer h left pool old size
  | write b start bytes => exact writes_writeBuffer h b start bytes
  | root | release | closeAllocator | openPool | releaseBuffer => exact writes_memory h _
  | limit | closePool => exact writes_both h _ _
  | keep names => exact writes_collect h names
  | takeIn offer => exact writes_takeIn h offer
  | openCache pool =>
    rw [act]
    split
    · exact writes_openCache h pool
    · exact .refl _ h
  | cachedTunnel cache target => exact writes_cachedTunnel h cache target
  | dataTunnel n target => exact writes_dataTunnel h n target
  | controlTunnel n target => exact writes_controlTunnel h n target
  | openEnvironment root endpoint options services =>
    exact writes_act_openEnvironment h root endpoint options services
  | openContext number plan session registry => exact writes_act_openContext h number plan session registry
  | fail n cause => exact writes_failContext h n cause
  | cancel n => exact writes_cancelContext h n
  | rootSchema n => exact writes_rootSchema h n
  | attach n incoming => exact (Store.receivers n incoming).writes
  | deferFailure n f => exact writes_modifyDeferred h n fun d hd => hd.absorb (some f)
  | takeDeferred n => exact writes_modifyDeferred h n fun d _ => d.sound_cleared
  | closeDeferred n => exact writes_modifyDeferred h n fun d _ => d.sound_close
  | addOperator n operator =>
    rw [act]
    split
    · exact (Store.operators n _ operator).writes
    · exact .refl _ h
  | closeContext n => exact writes_closeContext h n
  | elsewhere s => exact (Store.surroundings s).writes

end Host

end FragmentHost

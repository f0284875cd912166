import FragmentHost.Proofs.Session.Runs

/-!
# A context is made in full or not at all

Whatever happened before, and whatever is wrong with the plan of a fragment or with the allocators above it,
a context that cannot be made is a failure of the setup, and environment, allocators and metrics are those
from before. Otherwise memory is what a child of the root with the reservation of the plan makes of it, one
more start is counted, and the context has nothing and has failed at nothing (`Host.Starts`).

The start is found again in the metrics because these are in a profile that is there (`placed_run`).
-/

namespace FragmentHost

namespace Host

variable {h g : Host} {number : Nat} {e : Environment} {plan : PlanFragment} {c : Context}

/-- Context `c` of a plan was made in `h`, which became `g`. -/
structure Starts (h g : Host) (number : Nat) (e : Environment) (plan : PlanFragment) (c : Context) :
    Prop where
  added : g.contexts = h.contexts ++ [c] ∧ c.fragment = plan ∧ c.environment = number
  reserved : h.forest.newChild e.root
      ("Fragment " ++ (toString plan.handle.major ++ ":" ++ toString plan.handle.minor)) plan.initial plan.max
      h.settings.1.applyFragmentLimit = .ok (g.forest, c.allocator)
  counted : (g.profile e.metrics).value? "FragmentsStarted" =
    some (Word.wrap (((h.profile e.metrics).value? "FragmentsStarted").getD 0 + 1))
  uncounted : ∀ name ≠ "FragmentsStarted",
    (g.profile e.metrics).counter? name = (h.profile e.metrics).counter? name
  profiles : ∀ p < h.profiles.length, p ≠ e.metrics → g.profile p = h.profile p
  open_ok : c.state = .ok ∧ c.isClosed = false
  without_failure : c.deferred.toList = [] ∧ c.deferred.closed = false
  without_buffers : c.incoming = none ∧ g.arena.poolSize c.pool = 0 ∧ g.arena.buffers = h.arena.buffers
  without_users : c.operators = [] ∧ c.tunnels = []
  surroundings : g.environments = h.environments ∧ g.incoming = h.incoming

/-- Of the profiles that were there, the metrics of the environment alone have changed. -/
theorem Made.profile_eq (hm : h.Made g e plan c) (hplace : e.metrics < h.profiles.length) {p : Nat}
    (hp : p < h.profiles.length) : g.profile p =
      if e.metrics = p then (h.profile p).addTo Environment.started .count 1 else h.profile p := by
  have hlength : p < (h.modifyProfile e.metrics (·.addTo Environment.started .count 1)).profiles.length := by
    rw [modifyProfile, List.length_modify]
    exact hp
  rw [← profile_modifyProfile h e.metrics p (·.addTo Environment.started .count 1) hplace, profile,
    hm.profiles_eq, List.getElem?_append_left hlength, ← profile]

theorem Made.poolSize_eq (hm : h.Made g e plan c) : g.arena.poolSize c.pool = 0 := by
  obtain ⟨pool, hpools, htracked⟩ := hm.pools_eq
  have hpool : g.arena.pool? c.pool = some pool := by
    rw [Arena.pool?, hpools, hm.pool_eq]
    simp
  rw [Arena.poolSize, hpool, Option.bind_some, htracked]
  rfl

theorem starts_of_made (hp : h.Placed) (he : h.environment? number = some e)
    (ho : h.Opened g number e plan c) (hm : h.Made g e plan c) : h.Starts g number e plan c := by
  have hplace := hp number e he
  have hmetrics : g.profile e.metrics = (h.profile e.metrics).addTo Environment.started .count 1 := by
    rw [hm.profile_eq hplace hplace, if_pos rfl]
  obtain ⟨hdeferred, hincoming, hclosed, hstate⟩ := ho.fresh
  constructor
  case added => exact ⟨ho.contexts_eq, ho.fragment_eq, ho.environment_eq⟩
  case reserved => exact ho.allocator
  case counted =>
    rw [hmetrics]
    exact Profile.value?_addTo_self (h.profile e.metrics) _ _ _
  case uncounted =>
    intro name hname
    rw [hmetrics]
    exact Assoc.get?_alter_of_ne hname _ _
  case profiles =>
    intro p hp hne
    rw [hm.profile_eq hplace hp, if_neg (Ne.symm hne)]
  case open_ok => exact ⟨hstate, hclosed⟩
  case without_failure =>
    rw [hdeferred]
    exact ⟨rfl, rfl⟩
  case without_buffers => exact ⟨hincoming, hm.poolSize_eq, hm.buffers_eq⟩
  case without_users => exact hm.bare
  case surroundings => exact ⟨ho.environments_eq, ho.incoming_eq⟩

end Host

namespace Session

theorem linked_run (process : Process) (commands : List Command) :
    ((ofProcess process).run commands).1.host.forest.Linked := by
  obtain ⟨calls, hcalls⟩ := reaches_run (ofProcess process) commands
  rw [hcalls]
  exact (Host.keeps_ofProcess process calls).accounted.linked

/-- After any commands, a context is made in steps of which none has to be taken back: either one fails, as
one of the setup, and the host is as before apart from its configuration, or the context is made in full. -/
theorem context_in_full_or_not_at_all (process : Process) (commands : List Command)
    {h : Host} (hh : h = ((ofProcess process).run commands).1.host) {number : Nat} {e : Environment}
    (he : h.environment? number = some e) (plan : PlanFragment) (session : Option UserSession) (registry : Nat)
    {g : Host} {outcome : Except Failure Nat}
    (ho : h.openContext number e plan session registry = (g, outcome)) :
    h.openInPlace number e plan session registry = (g, outcome) ∧
      (∀ f, outcome = .error f → (∃ text, f = .setup text) ∧ g = { h with config := g.config }) ∧
      (∀ n, outcome = .ok n → n = h.contexts.length ∧ ∃ c, h.Starts g number e plan c) := by
  have hlinked : h.forest.Linked := hh ▸ linked_run process commands
  have hplaced : h.Placed := hh ▸ placed_run process commands
  refine ⟨(Host.openInPlace_eq hlinked number e plan session registry).trans ho, ?_, ?_⟩
  · rintro f rfl
    exact Host.openContext_error ho
  · rintro n rfl
    obtain ⟨hn, c, hopened, hmade⟩ := Host.openContext_made he ho
    exact ⟨hn, c, Host.starts_of_made hplaced he hopened hmade⟩

/-- Commands on a node where a fragment reserves half of the memory, uses some of it and has a limit. -/
def crowding : List Command :=
  let node : Endpoint := ⟨"localhost", 31010, 31011, 31012⟩
  let plan : PlanRequest := ⟨⟨⟨0, 1⟩, 1, 0⟩, node, node, some 50, some (-1), none, 0, none⟩
  [.allocator (.root "query" "query" 100), .environment (.make "node" (some "query") node none {}),
    .context (.make "context" "node" plan none none), .context (.limit "context" 60),
    .context (.bufferOfSize "context" "rows" 30)]

/-- The node after these commands. -/
def crowdedNode : Host := ((ofProcess {}).run crowding).1.host

/-- The plan of another fragment, with its reservation. -/
def reserving (bytes : Int) : PlanFragment :=
  let node : Endpoint := ⟨"localhost", 31010, 31011, 31012⟩
  ⟨⟨⟨0, 1⟩, 2, 0⟩, bytes, -1, none, node, node, 0, "UTC"⟩

/-- The failure of a fragment that reserves more than the half that is left. -/
def crowdedOut : Failure :=
  Context.withoutMemory
    (.outOfMemory "allocator query cannot grant 51 bytes: 50 in use, max reservation 100")

theorem context_in_full_or_not_at_all_crowdedNode :
    ∃ e refused made c, crowdedNode.environment? 0 = some e ∧
      crowdedNode.openContext 0 e (reserving 51) none 0 = (refused, .error crowdedOut) ∧
      refused = { crowdedNode with config := refused.config } ∧
      crowdedNode.openContext 0 e (reserving 50) none 0 = (made, .ok 1) ∧
      crowdedNode.Starts made 0 e (reserving 50) c := by
  have hboth : (crowdedNode.environment? 0).map (fun e =>
      ((crowdedNode.openContext 0 e (reserving 51) none 0).2,
        (crowdedNode.openContext 0 e (reserving 50) none 0).2)) = some (.error crowdedOut, .ok 1) := by
    decide +kernel
  obtain ⟨e, he, houtcomes⟩ := Option.map_eq_some_iff.mp hboth
  obtain ⟨hrefused, hmade⟩ := Prod.mk.inj houtcomes
  have hfail : crowdedNode.openContext 0 e (reserving 51) none 0 = (_, .error crowdedOut) :=
    Prod.ext rfl hrefused
  have hopen : crowdedNode.openContext 0 e (reserving 50) none 0 = (_, .ok 1) := Prod.ext rfl hmade
  obtain ⟨-, hsame, -⟩ := context_in_full_or_not_at_all {} crowding rfl he (reserving 51) none 0 hfail
  obtain ⟨-, -, hall⟩ := context_in_full_or_not_at_all {} crowding rfl he (reserving 50) none 0 hopen
  obtain ⟨-, c, hc⟩ := hall 1 rfl
  exact ⟨e, _, _, c, he, hfail, (hsame crowdedOut rfl).2, hopen, hc⟩

end Session

end FragmentHost

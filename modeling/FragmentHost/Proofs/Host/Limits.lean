import FragmentHost.Proofs.Host.Forgetting
import FragmentHost.Proofs.Memory.Limits

/-!
# The reach of limits over a fragment

A fragment asks for memory through its context: for bytes of its allocator, for buffers of its pool, and
for buffers in exchange. A coordinator sets limits meanwhile. Two runs are compared, one with the limits
and one without them (`Host.Alike`).

The setting `apply_fragment_limit` decides whether the limits of the allocators above the fragment reach
its requests. When it is off none of them does, and the two runs agree (`limits_do_not_reach`). It does not
decide about the limit of the allocator of the fragment itself, which is the one that a coordinator sets
through the context: that limit refuses requests all the same (`own_limit_refuses`). The runs agree as long
as no own limit is below the ceiling of the fragment.
-/

namespace FragmentHost

/-- What a fragment asks of its memory. -/
inductive MemoryRequest where
  | bytes (n : Int)
  | buffer (size : Nat)
  /-- A handle of the old buffer is given away with the request; `left` are the others. -/
  | replace (old size : Nat) (left : Holders)
  deriving DecidableEq, Repr

/-- A request of a fragment, or a limit that is set on an allocator. -/
inductive MemoryStep where
  | ask (r : MemoryRequest)
  | limit (allocator : Nat) (limit : Int)
  deriving DecidableEq, Repr

namespace MemoryStep

def isRequest : MemoryStep → Bool
  | ask _ => true
  | limit _ _ => false

/-- The step sets no limit below `max` on allocator `i`. -/
def Spares (max : Int) (i : Nat) : MemoryStep → Prop
  | .ask _ => True
  | .limit j bound => j = i → Allocator.IdleLimit max bound

instance (max : Int) (i : Nat) : (s : MemoryStep) → Decidable (s.Spares max i)
  | .ask _ => isTrue trivial
  | .limit j bound => inferInstanceAs (Decidable (j = i → Allocator.IdleLimit max bound))

end MemoryStep

namespace Arena

-- ---------------------------------------------------------------------------
-- Buffers without limits
-- ---------------------------------------------------------------------------

/-- The arena without limits. -/
def unlimited (a : Arena) : Arena := { a with forest := a.forest.unlimited }

/-- An outcome with the limits taken from the arena that it leads to. -/
def lifted (outcome : Except Failure (Arena × Nat)) : Except Failure (Arena × Nat) :=
  outcome.map fun made => (made.1.unlimited, made.2)

/-- No limit reaches the requests at allocator `i` and of pool `p`, which is on that allocator. -/
structure Free (a : Arena) (max : Int) (i p : Nat) : Prop where
  linked : a.forest.Linked
  unbound : a.forest.Unbound max i
  pool : ∃ pool, a.pool? p = some pool ∧ pool.allocator = i

variable {a g : Arena} {max : Int} {i p : Nat}

theorem unlimited_releaseBuffer (a : Arena) (b : Nat) :
    (a.releaseBuffer b).1.unlimited = (a.unlimited.releaseBuffer b).1 := by
  have hbuffer : a.unlimited.buffer? b = a.buffer? b := rfl
  rw [releaseBuffer, releaseBuffer, hbuffer]
  cases a.buffer? b with
  | none => rfl
  | some x =>
    dsimp only
    split
    · rfl
    · have hforest := Forest.unlimited_release a.forest x.allocator x.capacity
      unfold unlimited
      rw [← hforest]
      rfl

theorem unlimited_releaseAll (a : Arena) (bs : List Nat) :
    (a.releaseAll bs).1.unlimited = (a.unlimited.releaseAll bs).1 := by
  induction bs generalizing a with
  | nil => rfl
  | cons b rest ih => rw [fst_releaseAll_cons, ih, unlimited_releaseBuffer, fst_releaseAll_cons]

theorem unlimited_dropAll (a : Arena) (numbers : List Nat) :
    (a.dropAll numbers).unlimited = a.unlimited.dropAll numbers := by
  have hforest : ∀ f : Forest, (f.dropAll numbers).unlimited = f.unlimited.dropAll numbers := by
    induction numbers with
    | nil => exact fun _ => rfl
    | cons i rest ih =>
      intro f
      rw [Forest.dropAll_cons, ih, Forest.unlimited_drop, Forest.dropAll_cons]
  rw [unlimited, dropAll, hforest]
  rfl

theorem unlimited_makeBuffer (q : Nat) (pool : BufferPool)
    (h : a.forest.Unbound max pool.allocator) (size : Nat) :
    a.unlimited.makeBuffer q pool size = lifted (a.makeBuffer q pool size) := by
  have hforest : a.unlimited.forest = a.forest.unlimited := rfl
  rw [makeBuffer, makeBuffer, hforest, Forest.unlimited_consume h]
  split
  · rfl
  · cases a.forest.consume pool.allocator size <;> rfl

theorem unlimited_getBuffer (h : a.Free max i p) (size : Nat) :
    a.unlimited.getBuffer p size = lifted (a.getBuffer p size) := by
  obtain ⟨pool, hpool, hi⟩ := h.pool
  have hmake := unlimited_makeBuffer p pool (hi ▸ h.unbound) size
  have hpool' : a.unlimited.pool? p = some pool := hpool
  rw [getBuffer, getBuffer, hpool, hpool']
  dsimp only
  cases pool.tracked with
  | none => rfl
  | some bs =>
    dsimp only
    rw [hmake]
    cases a.makeBuffer p pool size <;> rfl

theorem unlimited_replaceBuffer (h : a.Free max i p) (old size : Nat) :
    a.unlimited.replaceBuffer p old size = lifted (a.replaceBuffer p old size) := by
  obtain ⟨pool, hpool, hi⟩ := h.pool
  have hmake := unlimited_makeBuffer p pool (hi ▸ h.unbound) size
  have hpool' : a.unlimited.pool? p = some pool := hpool
  have hbuffer : a.unlimited.buffer? old = a.buffer? old := rfl
  rw [replaceBuffer, replaceBuffer, hpool, hpool', hbuffer]
  cases a.buffer? old with
  | none => rfl
  | some x =>
    dsimp only
    cases pool.tracked with
    | none => rfl
    | some bs =>
      dsimp only
      split
      · rw [hmake]
        cases a.makeBuffer p pool size with
        | error refusal => rfl
        | ok made =>
          obtain ⟨m, b⟩ := made
          -- the exchange goes on with a return, in both arenas alike
          have hrelease := unlimited_releaseBuffer (m.modifyPool p fun x =>
            { x with tracked := x.tracked.map (·.filter (· ≠ old)) }) old
          exact congrArg (fun m : Arena => Except.ok (m.track p b, b)) hrelease.symm
      · rfl

-- ---------------------------------------------------------------------------
-- What keeps requests free
-- ---------------------------------------------------------------------------

theorem Free.consume (h : a.Free max i p) {j : Nat} {bytes : Int} {f : Forest}
    (hf : a.forest.consume j bytes = .ok f) : ({ a with forest := f } : Arena).Free max i p := by
  have hlinked := (Forest.evolves_perform h.linked (.consume j bytes)).2
  rw [Forest.perform, hf] at hlinked
  exact ⟨hlinked, h.unbound.consume h.linked hf, h.pool⟩

theorem Free.of_pools (h : a.Free max i p) (hpools : a.PoolsStay g [])
    (hforest : g.forest = a.forest) : g.Free max i p := by
  obtain ⟨pool, hpool, hi⟩ := h.pool
  obtain ⟨pool', hpool', hsame, -⟩ := hpools p pool hpool
  exact ⟨hforest ▸ h.linked, hforest ▸ h.unbound, pool', hpool', hsame.trans hi⟩

theorem Free.releaseBuffer (h : a.Free max i p) (b : Nat) : (a.releaseBuffer b).1.Free max i p := by
  unfold Arena.releaseBuffer
  cases a.buffer? b with
  | none => exact h
  | some x =>
    dsimp only
    split
    · exact h
    · have hlinked := (Forest.evolves_perform h.linked (.release x.allocator x.capacity)).2
      exact ⟨hlinked, h.unbound.release x.allocator x.capacity, h.pool⟩

theorem Free.releaseAll (h : a.Free max i p) (bs : List Nat) : (a.releaseAll bs).1.Free max i p := by
  induction bs generalizing a with
  | nil => exact h
  | cons b rest ih => exact ih (h.releaseBuffer b)

theorem Free.dropAll (h : a.Free max i p) (numbers : List Nat) : (a.dropAll numbers).Free max i p := by
  induction numbers generalizing a with
  | nil => exact h
  | cons j rest ih =>
    have hlinked := (Forest.evolves_perform h.linked (.drop j)).2
    have hdropped : Free { a with forest := (a.forest.drop j).1 } max i p :=
      ⟨hlinked, h.unbound.drop j, h.pool⟩
    exact ih hdropped

theorem Free.makeBuffer (h : a.Free max i p) {q b size : Nat} {pool : BufferPool}
    (hg : a.makeBuffer q pool size = .ok (g, b)) : g.Free max i p := by
  have hpools := poolsStay_makeBuffer hg
  obtain ⟨f, hf, -, rfl⟩ := makeBuffer_ok hg
  exact (h.consume hf).of_pools hpools rfl

theorem Free.getBuffer (h : a.Free max i p) {q b size : Nat} (hg : a.getBuffer q size = .ok (g, b)) :
    g.Free max i p := by
  obtain ⟨pool, bs, m, -, -, hm, rfl⟩ := getBuffer_ok hg
  exact (h.makeBuffer hm).of_pools (poolsStay_track m q b) rfl

theorem Free.replaceBuffer (h : a.Free max i p) {q old b size : Nat}
    (hg : a.replaceBuffer q old size = .ok (g, b)) : g.Free max i p := by
  obtain ⟨pool, bs, m, -, -, -, hm, rfl⟩ := replaceBuffer_ok hg
  have hstruck := (h.makeBuffer hm).of_pools (poolsStay_strike m q old) rfl
  exact (hstruck.releaseBuffer old).of_pools (poolsStay_track _ q b) rfl

/-- A request at allocator `i` or of pool `p`. -/
def ask (a : Arena) (i p : Nat) : MemoryRequest → Except Failure (Arena × Nat)
  | .bytes n => (a.forest.consume i n).map fun f => ({ a with forest := f }, 0)
  | .buffer size => a.getBuffer p size
  | .replace old size _ => a.replaceBuffer p old size

/-- Where no limit reaches, a request ends as it does without limits. -/
theorem unlimited_ask (h : a.Free max i p) (r : MemoryRequest) :
    a.unlimited.ask i p r = lifted (a.ask i p r) := by
  cases r with
  | bytes n =>
    have hforest : a.unlimited.forest = a.forest.unlimited := rfl
    rw [ask, ask, hforest, Forest.unlimited_consume h.unbound]
    cases a.forest.consume i n <;> rfl
  | buffer size => exact unlimited_getBuffer h size
  | replace old size left => exact unlimited_replaceBuffer h old size

theorem Free.ask (h : a.Free max i p) {r : MemoryRequest} {b : Nat}
    (hg : a.ask i p r = .ok (g, b)) : g.Free max i p := by
  cases r with
  | bytes n =>
    rw [Arena.ask] at hg
    cases hf : a.forest.consume i n with
    | error refusal => simp [hf, Except.map] at hg
    | ok f =>
      simp only [hf, Except.map, Except.ok.injEq, Prod.mk.injEq] at hg
      obtain ⟨rfl, -⟩ := hg
      exact h.consume hf
  | buffer size => exact h.getBuffer hg
  | replace old size left => exact h.replaceBuffer hg

end Arena

namespace Host

-- ---------------------------------------------------------------------------
-- Two runs
-- ---------------------------------------------------------------------------

/-- The host after an attempt, and its outcome; a failed one leaves the host as it was. -/
def attempt (h : Host) : Except Failure (Host × Nat) → Host × Except Failure Nat
  | .ok (g, n) => (g, .ok n)
  | .error refusal => (h, .error refusal)

/-- A request of the fragment with context `c`: the host afterwards, and the number of the new buffer or the
refusal. -/
def ask (h : Host) (c : Context) : MemoryRequest → Host × Except Failure Nat
  | .bytes n => h.attempt ((h.consume c.allocator n).map (·, 0))
  | .buffer size => h.attempt (h.getBuffer c.pool size)
  | .replace old size left => h.replaceBuffer left c.pool old size

/-- The host after a step. -/
def serve (h : Host) (c : Context) : MemoryStep → Host
  | .ask r => (h.ask c r).1
  | .limit allocator limit => h.setLimit allocator limit

/-- The host after steps, one after the other. -/
def serveAll (h : Host) (c : Context) (steps : List MemoryStep) : Host :=
  steps.foldl (fun h s => h.serve c s) h

/-- The outcomes of the requests among the steps: refusals, and the numbers of new buffers. -/
def outcomes (h : Host) (c : Context) : List MemoryStep → List (Except Failure Nat)
  | [] => []
  | .ask r :: steps => (h.ask c r).2 :: (h.serve c (.ask r)).outcomes c steps
  | .limit allocator limit :: steps => (h.serve c (.limit allocator limit)).outcomes c steps

/-- A refused request drops the handle that came with it. -/
def afterRefused (h : Host) : MemoryRequest → Host
  | .bytes _ | .buffer _ => h
  | .replace old _ left => h.dropBuffer left old

theorem ask_eq (h : Host) (c : Context) (r : MemoryRequest) :
    h.ask c r = match h.arena.ask c.allocator c.pool r with
      | .ok (a, b) => ({ h with arena := a }, .ok b)
      | .error refusal => (h.afterRefused r, .error refusal) := by
  cases r with
  | bytes n =>
    rw [ask, consume, Arena.ask, forest]
    cases h.arena.forest.consume c.allocator n <;> rfl
  | buffer size =>
    rw [ask, getBuffer, Arena.ask]
    cases h.arena.getBuffer c.pool size <;> rfl
  | replace old size left =>
    rw [ask, replaceBuffer, Arena.ask]
    cases h.arena.replaceBuffer c.pool old size <;> rfl

/-- Two hosts that differ in limits at most, none of which reaches the requests of context `c`, and in what
has nothing to do with memory. -/
structure Alike (max : Int) (c : Context) (h g : Host) : Prop where
  arena_eq : h.arena.unlimited = g.arena.unlimited
  left : h.arena.Free max c.allocator c.pool
  right : g.arena.Free max c.allocator c.pool
  contexts_eq : h.contexts = g.contexts
  environments_eq : h.environments = g.environments

variable {h g : Host} {max : Int} {c : Context}

/-- Limits hold nothing. -/
theorem Alike.sameHolding (hhg : Alike max c h g) : h.SameHolding g := by
  have harena : g.arena.unlimited = h.arena.unlimited := hhg.arena_eq.symm
  have hbuffers : g.arena.buffers = h.arena.buffers := by
    have hlist := congrArg Arena.buffers harena
    exact hlist
  have hpools : g.arena.pools = h.arena.pools := by
    have hlist := congrArg Arena.pools harena
    exact hlist
  have hforest : g.forest.unlimited = h.forest.unlimited := congrArg Arena.forest harena
  have hlength := congrArg (fun f : Forest => f.nodes.length) hforest
  constructor
  case contexts_eq => exact hhg.contexts_eq.symm
  case environments_eq => exact hhg.environments_eq.symm
  case pools_eq => exact hpools
  case buffers_length => rw [hbuffers]
  case buffers_eq =>
    intro b
    rw [Arena.buffer?, hbuffers, Arena.buffer?]
  case nodes_length => simpa [Forest.unlimited] using hlength
  case path_eq =>
    intro i
    rw [← Forest.path_unlimited, hforest, Forest.path_unlimited]

/-- A handle that is dropped in both hosts takes the same with it. -/
theorem Alike.dropBuffer (hhg : Alike max c h g) (names : Holders) (b : Nat) :
    Alike max c (h.dropBuffer names b) (g.dropBuffer names b) := by
  have hsame := hhg.sameHolding
  have hdropped : g.forest.isDropped = h.forest.isDropped := by
    have hforest : g.forest.unlimited = h.forest.unlimited := congrArg Arena.forest hhg.arena_eq.symm
    funext i
    rw [← Forest.isDropped_unlimited, hforest, Forest.isDropped_unlimited]
  have hleft := arena_dropBuffer hhg.left.linked names b
  have hright := arena_dropBuffer hhg.right.linked names b
  rw [hsame.unheldBuffers_eq, hsame.unheldAllocators_eq hdropped, hsame.drawnFrom_eq] at hright
  have hsides := (writes_dropBuffer h names b).sameRecords rfl
  have hsides' := (writes_dropBuffer g names b).sameRecords rfl
  constructor
  case arena_eq =>
    rw [hleft, hright, Arena.unlimited_dropAll, Arena.unlimited_releaseAll, hhg.arena_eq,
      ← Arena.unlimited_releaseAll, ← Arena.unlimited_dropAll]
  case left =>
    rw [hleft]
    exact (hhg.left.releaseAll _).dropAll _
  case right =>
    rw [hright]
    exact (hhg.right.releaseAll _).dropAll _
  case contexts_eq => rw [hsides.contexts_eq, hhg.contexts_eq, hsides'.contexts_eq]
  case environments_eq => rw [hsides.environments_eq, hhg.environments_eq, hsides'.environments_eq]

/-- A request has the same outcome in both hosts. -/
theorem Alike.ask (hhg : Alike max c h g) (r : MemoryRequest) :
    (h.ask c r).2 = (g.ask c r).2 ∧ Alike max c (h.serve c (.ask r)) (g.serve c (.ask r)) := by
  have hleft := Arena.unlimited_ask hhg.left r
  have hright := Arena.unlimited_ask hhg.right r
  rw [hhg.arena_eq, hright] at hleft
  rw [serve, serve, ask_eq, ask_eq]
  cases hh : h.arena.ask c.allocator c.pool r with
  | error refusal =>
    cases hg : g.arena.ask c.allocator c.pool r with
    | error refusal' =>
      rw [hh, hg] at hleft
      refine ⟨congrArg Except.error (Except.error.inj hleft).symm, ?_⟩
      cases r with
      | bytes | buffer => exact hhg
      | replace old size left => exact hhg.dropBuffer left old
    | ok made' => simp [hh, hg, Arena.lifted, Except.map] at hleft
  | ok made =>
    cases hg : g.arena.ask c.allocator c.pool r with
    | error refusal' => simp [hh, hg, Arena.lifted, Except.map] at hleft
    | ok made' =>
      rw [hh, hg] at hleft
      obtain ⟨harena, hnumber⟩ := Prod.mk.inj (Except.ok.inj hleft)
      exact ⟨congrArg Except.ok hnumber.symm, harena.symm, hhg.left.ask hh, hhg.right.ask hg,
        hhg.contexts_eq, hhg.environments_eq⟩

/-- A limit set in one of the hosts leaves them alike, unless it is an own limit below the ceiling. -/
theorem Alike.limit (hhg : Alike max c h g) {j : Nat} {limit : Int}
    (hspares : j = c.allocator → Allocator.IdleLimit max limit) :
    Alike max c (h.serve c (.limit j limit)) g := by
  have hlinked := (Forest.evolves_perform hhg.left.linked (.limit j limit)).2
  refine ⟨?_, ⟨hlinked, hhg.left.unbound.setLimit hspares, hhg.left.pool⟩, hhg.right, hhg.contexts_eq,
    hhg.environments_eq⟩
  rw [← hhg.arena_eq]
  show ({ h.arena.unlimited with forest := (h.arena.forest.setLimit j limit).unlimited } : Arena) = _
  rw [Forest.unlimited_setLimit]
  rfl

/-- Steps in one host, and the requests among them alone in the other. -/
theorem Alike.serveAll {steps : List MemoryStep} (hhg : Alike max c h g)
    (hspares : ∀ s ∈ steps, s.Spares max c.allocator) :
    h.outcomes c steps = g.outcomes c (steps.filter (·.isRequest)) ∧
      Alike max c (h.serveAll c steps) (g.serveAll c (steps.filter (·.isRequest))) := by
  induction steps generalizing h g with
  | nil => exact ⟨rfl, hhg⟩
  | cons s steps ih =>
    have hrest : ∀ s ∈ steps, s.Spares max c.allocator :=
      fun s hs => hspares s (List.mem_cons_of_mem _ hs)
    cases s with
    | ask r =>
      obtain ⟨houtcome, halike⟩ := hhg.ask r
      obtain ⟨houtcomes, halikes⟩ := ih halike hrest
      refine ⟨?_, halikes⟩
      rw [List.filter_cons_of_pos rfl, outcomes, outcomes, houtcome, houtcomes]
    | limit j limit =>
      rw [List.filter_cons_of_neg (by simp [MemoryStep.isRequest])]
      exact ih (hhg.limit (hspares (.limit j limit) (List.mem_cons_self ..))) hrest

-- ---------------------------------------------------------------------------
-- Fragments that limits do not bind
-- ---------------------------------------------------------------------------

/-- A context that was made while the setting was off makes requests that no limit reaches, in any later
state in which its own limit is idle. -/
theorem free_of_opened (process : Process) (before later : List HostCall) {h g k : Host}
    (hh : h = (Session.ofProcess process).host.actAll before)
    (hflag : h.settings.1.applyFragmentLimit = false) {number n registry : Nat} {e : Environment}
    {plan : PlanFragment} {session : Option UserSession} (he : h.environment? number = some e)
    (ho : h.openContext number e plan session registry = (g, .ok n)) (hk : k = g.actAll later) {c : Context}
    (hc : k.context? n = some c)
    (hidle : ∀ a, k.forest.get? c.allocator = some a → Allocator.IdleLimit plan.max a.limit) :
    k.arena.Free plan.max c.allocator c.pool := by
  have hg : g = (Session.ofProcess process).host.actAll
      (before ++ [.openContext number plan session registry]) := by
    rw [actAll_append, ← hh, actAll_cons, actAll_nil, act, he]
    dsimp only
    rw [ho]
  have hkg := keeps_ofProcess process (before ++ [.openContext number plan session registry])
  rw [← hg] at hkg
  have hkk := keeps_actAll hkg later
  have hwired := wired_ofProcess process (before ++ [.openContext number plan session registry] ++ later)
  rw [actAll_append, ← hg, ← hk] at hwired
  rw [← hk] at hkk
  -- the context is the one that was made, further on
  obtain ⟨rfl, c₀, hopened⟩ := openContext_ok ho
  have hc₀ : g.context? h.contexts.length = some c₀ := by
    rw [context?, hopened.contexts_eq]
    simp
  obtain ⟨d, hd, hfollows⟩ := follows_actAll g later hc₀
  rw [← hk, hc, Option.some.injEq] at hd
  subst hd
  -- and its allocator the one that was made with it
  obtain ⟨a, ha, -, -, hmax, hobeys⟩ := Forest.get?_newChild hopened.allocator
  obtain ⟨b, hb, hab⟩ := (evolves_actAll hkg later).old c₀.allocator a ha
  rw [← hk] at hb
  obtain ⟨-, -, -, hmax', hobeys'⟩ := hab.fixed
  refine ⟨hkk.accounted.linked, fun x hx => ?_, (hwired _ c hc).pool⟩
  have hxb : x = b := by
    rw [hfollows.allocator_eq] at hx
    exact Option.some.inj (hx.symm.trans hb)
  subst hxb
  exact ⟨hobeys'.trans (hobeys.trans hflag), hmax'.trans hmax, hidle x hx⟩

/-- While the setting is off, a context that is made then serves every later sequence of requests as if no
limits were set in between: on any other allocator, and on its own ones that are not below the ceiling of
the fragment. Outcomes, buffers and the bytes in use are the same. -/
theorem limits_do_not_reach (process : Process) (before later : List HostCall) {h g k : Host}
    (hh : h = (Session.ofProcess process).host.actAll before)
    (hflag : h.settings.1.applyFragmentLimit = false) {number n registry : Nat} {e : Environment}
    {plan : PlanFragment} {session : Option UserSession} (he : h.environment? number = some e)
    (ho : h.openContext number e plan session registry = (g, .ok n)) (hk : k = g.actAll later) {c : Context}
    (hc : k.context? n = some c)
    (hidle : ∀ a, k.forest.get? c.allocator = some a → Allocator.IdleLimit plan.max a.limit)
    (steps : List MemoryStep) (hspares : ∀ s ∈ steps, s.Spares plan.max c.allocator) :
    k.outcomes c steps = k.outcomes c (steps.filter (·.isRequest)) ∧
      (k.serveAll c steps).arena.buffers =
        (k.serveAll c (steps.filter (·.isRequest))).arena.buffers ∧
      ∀ i, (k.serveAll c steps).forest.current i =
        (k.serveAll c (steps.filter (·.isRequest))).forest.current i := by
  have hfree := free_of_opened process before later hh hflag he ho hk hc hidle
  have hself : Alike plan.max c k k := ⟨rfl, hfree, hfree, rfl, rfl⟩
  obtain ⟨houtcomes, halike⟩ := hself.serveAll hspares
  refine ⟨houtcomes, ?_, fun i => ?_⟩
  · have hbuffers := congrArg Arena.buffers halike.arena_eq
    exact hbuffers
  · have hforest := congrArg Arena.forest halike.arena_eq
    rw [← Forest.current_unlimited, ← Forest.current_unlimited (k.serveAll c _).forest]
    exact congrArg (Forest.current · i) hforest

/-- The endpoint of the node in the runs below. -/
def localNode : Endpoint := ⟨"localhost", 31010, 31011, 31012⟩

/-- A fragment with a ceiling of five hundred bytes and no reservation. -/
def cappedPlan : PlanFragment := ⟨⟨⟨1, 2⟩, 1, 0⟩, 0, 500, none, localNode, localNode, 0, "UTC"⟩

/-- A process whose configuration turns the setting off. -/
def switchedOff : Process :=
  { files := { files := [(["fragexec.toml"], "[runtime]\napply_fragment_limit = false\n".toUTF8)] } }

/-- One environment, below a root of a thousand bytes. -/
def smallNodeRun : List HostCall :=
  HostCall.plainServices ++ [.root "root" 1000, .openEnvironment (some 0) localNode none ⟨0, 0, 0⟩]

/-- The node with that environment. -/
def smallNode : Host := (Session.ofProcess switchedOff).host.actAll smallNodeRun

/-- The environment of the node. -/
def smallEnvironment : Environment := ⟨0, localNode, 0, { base := 0 }, ⟨0, 0, 0⟩⟩

/-- The node after a context was made for the plan. -/
def smallContext : Host := (smallNode.openContext 0 smallEnvironment cappedPlan none 0).1

theorem opened_smallContext :
    smallNode.openContext 0 smallEnvironment cappedPlan none 0 = (smallContext, .ok 0) :=
  Prod.ext rfl (by decide +kernel)

/-- That context. -/
def smallFragment : Context :=
  { fragment := cappedPlan, environment := 0, session := none, registry := 0, options := ⟨[[]], 0⟩
    time := ⟨0, "UTC"⟩, allocator := 1, profile := 1, pool := 0 }

theorem context?_smallContext : smallContext.context? 0 = some smallFragment := by decide +kernel

theorem settings_smallNode : smallNode.settings.1.applyFragmentLimit = false := by decide +kernel

theorem environment?_smallNode : smallNode.environment? 0 = some smallEnvironment := by decide +kernel

/-- A limit that is set through the context refuses a buffer that is granted without it. -/
theorem own_limit_refuses :
    ¬ ∀ (process : Process) (before : List HostCall) (h g : Host),
      h = (Session.ofProcess process).host.actAll before →
      h.settings.1.applyFragmentLimit = false →
      ∀ (number n registry : Nat) (e : Environment) (plan : PlanFragment) (session : Option UserSession),
        h.environment? number = some e → h.openContext number e plan session registry = (g, .ok n) →
        ∀ c, g.context? n = some c → ∀ steps : List MemoryStep,
          g.outcomes c steps = g.outcomes c (steps.filter (·.isRequest)) := by
  intro hclaim
  have houtcomes := hclaim switchedOff _ smallNode smallContext rfl settings_smallNode 0 0 0 smallEnvironment
    cappedPlan none environment?_smallNode opened_smallContext smallFragment context?_smallContext
    [.limit 1 100, .ask (.buffer 200)]
  have hlengths := congrArg (List.map Except.toBool) houtcomes
  exact absurd hlengths (by decide +kernel)

/-- Requests between limits: on the root one below what is in use, and own ones at the ceiling, above it,
and taken back. -/
def sparingSteps : List MemoryStep :=
  [.limit 0 50, .ask (.buffer 200), .limit 1 500, .ask (.bytes 250), .limit 1 800,
    .ask (.replace 0 100 {}), .limit 1 (-1), .ask (.replace 0 40 {})]

/-- The second request for another buffer is refused for the ceiling in both runs. -/
theorem limits_do_not_reach_sparingSteps :
    ∃ c, smallContext.context? 0 = some c ∧ (∀ s ∈ sparingSteps, s.Spares 500 c.allocator) ∧
      smallContext.outcomes c sparingSteps =
        smallContext.outcomes c (sparingSteps.filter (·.isRequest)) ∧
      (smallContext.serveAll c sparingSteps).arena.buffers =
        (smallContext.serveAll c (sparingSteps.filter (·.isRequest))).arena.buffers ∧
      ∀ i, (smallContext.serveAll c sparingSteps).forest.current i =
        (smallContext.serveAll c (sparingSteps.filter (·.isRequest))).forest.current i :=
  ⟨smallFragment, context?_smallContext, by decide,
    limits_do_not_reach switchedOff smallNodeRun [] (h := smallNode) rfl settings_smallNode environment?_smallNode
      opened_smallContext rfl context?_smallContext (by decide +kernel) sparingSteps (by decide)⟩

end Host

end FragmentHost

import FragmentHost.Proofs.Host.Writes

/-!
# Runs of a host

Along with a run of calls goes its account (`Host.account`). Whatever the calls are, the account is right
and the pools track their buffers (`keeps_actAll`). Calls that do not write memory leave both as they are
(`Writes.arena_eq`); for the others, each comes down to what it asks of the allocators, to its releases and
to the pool that it opens or closes.
-/

namespace FragmentHost

namespace Host

-- ---------------------------------------------------------------------------
-- What leaves the arena alone
-- ---------------------------------------------------------------------------

theorem Store.arena_eq {h g : Host} {p : HostPart} (hs : h.Store p g) (hp : p ∉ [.memory]) :
    g.arena = h.arena := by
  cases hs with
  | memory => simp at hp
  | _ => rfl

/-- What does not write memory leaves it as it is. -/
theorem Writes.arena_eq {h g : Host} {ps : List HostPart} (hw : Writes ps h g)
    (hps : HostPart.apart ps [.memory] = true) : g.arena = h.arena :=
  hw.same (fun hp hs => hs.arena_eq hp) hps

theorem arena_act (h : Host) {call : HostCall} (hc : HostPart.apart call.parts [.memory] = true) :
    (h.act call).arena = h.arena :=
  (writes_act h call).arena_eq hc

theorem arena_count (h : Host) (e : Nat) (metric : String) : (h.count e metric).arena = h.arena :=
  (writes_count h e metric).arena_eq rfl

-- ---------------------------------------------------------------------------
-- What reaches the allocators
-- ---------------------------------------------------------------------------

theorem arena_newChild {h g : Host} {parent child : Nat} {label : String} {initial max : Int}
    {obeysLimits : Bool} (hg : h.newChild parent label initial max obeysLimits = .ok (g, child)) :
    g.arena = { h.arena with
      forest := h.arena.forest.perform (.child parent label initial max obeysLimits) } := by
  unfold newChild at hg
  cases hf : h.forest.newChild parent label initial max obeysLimits with
  | error refusal => simp [hf] at hg
  | ok made =>
    simp only [hf, Except.ok.injEq, Prod.mk.injEq] at hg
    obtain ⟨rfl, rfl⟩ := hg
    have hf' : h.arena.forest.newChild parent label initial max obeysLimits = .ok made := hf
    rw [Forest.perform, hf']
    rfl

/-- A refused reservation leaves no trace among the allocators. -/
theorem perform_of_newChild_error {h : Host} {parent : Nat} {label : String} {initial max : Int}
    {obeysLimits : Bool} {refusal : Failure}
    (hg : h.newChild parent label initial max obeysLimits = .error refusal) :
    h.arena.forest.perform (.child parent label initial max obeysLimits) = h.arena.forest := by
  unfold newChild at hg
  cases hf : h.forest.newChild parent label initial max obeysLimits with
  | error refusal =>
    have hf' : h.arena.forest.newChild parent label initial max obeysLimits = .error refusal := hf
    rw [Forest.perform, hf']
  | ok made => simp [hf] at hg

theorem arena_child (h : Host) (parent : Nat) (label : String) (initial max : Int)
    (obeysLimits : Bool) : (h.act (.child parent label initial max obeysLimits)).arena =
      { h.arena with
        forest := h.arena.forest.perform (.child parent label initial max obeysLimits) } := by
  rw [act]
  cases hg : h.newChild parent label initial max obeysLimits with
  | error refusal =>
    rw [perform_of_newChild_error hg]
    rfl
  | ok made => exact arena_newChild hg

theorem arena_consume (h : Host) (allocator : Nat) (bytes : Int) :
    (h.act (.consume allocator bytes)).arena =
      { h.arena with forest := h.arena.forest.perform (.consume allocator bytes) } := by
  rw [act, consume, Forest.perform, forest]
  cases h.arena.forest.consume allocator bytes <;> rfl

theorem arena_dropAllocator (h : Host) (allocator : Nat) :
    (h.dropAllocator allocator).arena =
      { h.arena with forest := h.arena.forest.perform (.drop allocator) } := by
  show (h.dropAllocator allocator).arena =
    { h.arena with forest := (h.forest.drop allocator).1 }
  unfold dropAllocator
  obtain ⟨f, outstanding⟩ := h.forest.drop allocator
  cases outstanding with
  | none => rfl
  | some outstanding =>
    dsimp only
    split <;> rfl

theorem isDropped_congr {f g : Forest} {j : Nat}
    (h : (g.get? j).map (·.dropped) = (f.get? j).map (·.dropped)) : g.isDropped j = f.isDropped j := by
  have hmap : ∀ k : Forest, k.isDropped j = ((k.get? j).map (·.dropped)).getD true := by
    intro k
    unfold Forest.isDropped
    cases k.get? j <;> rfl
  rw [hmap, hmap, h]

/-- Dropping an allocator drops no other one. -/
theorem isDropped_drop_of_ne (f : Forest) {i j : Nat} (h : i ≠ j) :
    (f.drop i).1.isDropped j = f.isDropped j := by
  have hshut : (f.shut i).1.isDropped j = f.isDropped j :=
    isDropped_congr (Forest.map_get?_shut (fun _ => rfl) (fun _ _ => rfl) f i j)
  rw [Forest.fst_drop, ← hshut]
  unfold Forest.isDropped
  rw [Forest.get?_modify_of_ne _ h]

/-- Going through allocators and dropping those that nobody holds drops the ones that nobody held at
the start. -/
theorem arena_foldl_drop (held : List Nat) (h : Host) {numbers : List Nat} (hn : numbers.Nodup) :
    (numbers.foldl (fun h i => if held.contains i || h.forest.isDropped i then h
      else h.dropAllocator i) h).arena =
    { h.arena with forest := h.arena.forest.performAll ((numbers.filter fun i =>
        !(held.contains i || h.forest.isDropped i)).map .drop) } := by
  induction numbers generalizing h with
  | nil => rfl
  | cons i rest ih =>
    obtain ⟨hi, hrest⟩ := List.nodup_cons.mp hn
    rw [List.foldl_cons, ih _ hrest, List.filter_cons]
    cases hkept : held.contains i || h.forest.isDropped i with
    | true => rfl
    | false =>
      -- the later ones are dropped or not as before
      have hsame : rest.filter (fun j => !(held.contains j || (h.dropAllocator i).forest.isDropped j)) =
          rest.filter (fun j => !(held.contains j || h.forest.isDropped j)) := by
        refine List.filter_congr fun j hj => ?_
        have hne : i ≠ j := fun hij => hi (hij ▸ hj)
        rw [forest, arena_dropAllocator]
        show (!(held.contains j || (h.arena.forest.drop i).1.isDropped j)) = _
        rw [isDropped_drop_of_ne _ hne]
        rfl
      simp only [Bool.false_eq_true, if_false, Bool.not_false, if_true]
      rw [hsame, arena_dropAllocator]
      rfl

/-- Giving allocators up writes the allocators alone. -/
theorem arena_giveUpAllocators_eq (h : Host) (names : Holders) (allocators : List Nat) :
    ∃ f, (h.giveUpAllocators names allocators).arena = { h.arena with forest := f } := by
  have hfold : ∀ (held : List Nat) (g : Host), ∃ f, (allocators.foldl
      (fun g i => if held.contains i || g.forest.isDropped i then g else g.dropAllocator i) g).arena =
      { g.arena with forest := f } := by
    intro held
    induction allocators with
    | nil => exact fun g => ⟨g.arena.forest, rfl⟩
    | cons i rest ih =>
      intro g
      rw [List.foldl_cons]
      obtain ⟨f, hf⟩ := ih (if held.contains i || g.forest.isDropped i then g else g.dropAllocator i)
      refine ⟨f, hf.trans ?_⟩
      split
      · rfl
      · rw [arena_dropAllocator]
  exact hfold _ h

theorem arena_giveUpAllocators (h : Host) (names : Holders) {allocators : List Nat}
    (hn : allocators.Nodup) : (h.giveUpAllocators names allocators).arena = { h.arena with
      forest := h.arena.forest.performAll ((h.unheldAllocators names allocators).map .drop) } :=
  arena_foldl_drop (h.heldAllocators names) h hn

theorem nodup_drawnFrom {h : Host} (hl : h.forest.Linked) (b : Nat) : (h.drawnFrom b).Nodup := by
  unfold drawnFrom
  cases h.arena.buffer? b with
  | none => exact List.nodup_nil
  | some x => exact (hl.climbs_path x.allocator).nodup

theorem fst_closingOf (a : Arena) (pool : Nat) : (closingOf a pool).1 = (a.closePool pool).1 := by
  unfold closingOf
  split <;> simp_all

/-- Closing a context closes its pool and then its allocator. -/
theorem arena_closeContext {h : Host} {n : Nat} {c : Context} (hc : h.context? n = some c)
    (hopen : c.isClosed = false) :
    (h.closeContext n).1.arena = { (h.arena.closePool c.pool).1 with
      forest := (h.arena.closePool c.pool).1.forest.perform (.close c.allocator) } := by
  rw [← fst_closingOf]
  unfold closeContext
  rw [hc]
  simp only [hopen, Bool.false_eq_true, if_false]
  generalize closingOf h.arena c.pool = closing
  obtain ⟨arena, events⟩ := closing
  have hincoming : ∀ k : Host, (k.releaseIncoming c c.deferred).1.arena = k.arena := by
    intro k
    unfold releaseIncoming
    split
    · rfl
    · split <;> rfl
  show ({ (releaseIncoming { h with arena := arena } c c.deferred).1.arena with
    forest := ((releaseIncoming { h with arena := arena } c c.deferred).1.arena.forest.close
      c.allocator).1 } : Arena) = _
  rw [hincoming]
  rfl

theorem openContext_of_prepare_error {h : Host} {number registry : Nat} {e : Environment}
    {plan : PlanFragment} {session : Option UserSession} {f : Failure}
    (hp : prepare h.zones e plan = .error f) :
    h.openContext number e plan session registry = (h, .error f) := by
  rw [openContext, hp]

theorem arena_furnish (h : Host) (number : Nat) (plan : PlanFragment) (session : Option UserSession)
    (registry : Nat) (options : OptionStack) (time : QueryTime) (allocator : Nat) :
    ∃ size, (h.furnish number plan session registry options time allocator).1.arena =
      (h.arena.openPool plan.handle.ownerText allocator size).1 := by
  refine ⟨((h.count number Environment.started).addProfile
    (FragmentProfile.start plan.handle plan.assignment)).1.settings.1.bufferSize, ?_⟩
  rw [← arena_count h number Environment.started]
  rfl

/-- Once options and time are right, the reservation is asked for, and a pool opened if it is granted. -/
theorem arena_openContext {h : Host} (number : Nat) {e : Environment} {plan : PlanFragment}
    (session : Option UserSession) (registry : Nat) {prepared : OptionStack × QueryTime}
    (hp : prepare h.zones e plan = .ok prepared) {asked : Arena}
    (ha : asked = { h.arena with forest := h.arena.forest.perform (.child e.root plan.handle.ownerText
      plan.initial plan.max h.settings.1.applyFragmentLimit) }) :
    (h.openContext number e plan session registry).1.arena = asked ∨
      ∃ allocator size, (h.openContext number e plan session registry).1.arena =
        (asked.openPool plan.handle.ownerText allocator size).1 := by
  rw [openContext, hp]
  dsimp only
  cases hg : h.settings.2.newChild e.root plan.handle.ownerText plan.initial plan.max
      h.settings.1.applyFragmentLimit with
  | error refusal =>
    have hsame := perform_of_newChild_error hg
    left
    rw [ha]
    exact congrArg (fun f => { h.arena with forest := f }) hsame.symm
  | ok made =>
    have harena : made.1.arena = asked := (arena_newChild hg).trans ha.symm
    obtain ⟨size, hsize⟩ := arena_furnish made.1 number plan session registry prepared.1 prepared.2 made.2
    rw [harena] at hsize
    exact Or.inr ⟨made.2, size, hsize⟩

-- ---------------------------------------------------------------------------
-- Accounts stay right
-- ---------------------------------------------------------------------------

end Host

/-- What holders ask of allocators, one after the other. -/
theorem Arena.Keeps.askAll {a : Arena} {t : Account} (h : a.Keeps t) (calls : List AllocatorCall) :
    ({ a with forest := a.forest.performAll calls } : Arena).Keeps (t ++ calls.map .asked) := by
  induction calls generalizing a t with
  | nil => simpa using h
  | cons c calls ih =>
    have hrest := ih (h.ask c)
    rwa [List.append_assoc] at hrest

namespace Host

/-- The outcome of an operation on the arena, carried over to the host. -/
theorem keeps_orSame {h : Host} {t u : Account} {outcome : Except Failure (Arena × Nat)}
    (hok : ∀ g b, outcome = .ok (g, b) → g.Keeps (t ++ u))
    (herror : ∀ refusal, outcome = .error refusal → h.arena.Keeps (t ++ u)) :
    (h.orSame (h.ofArena outcome)).arena.Keeps (t ++ u) := by
  cases ho : outcome with
  | error refusal => exact herror refusal ho
  | ok made => exact hok made.1 made.2 ho

theorem keeps_getBuffer {h : Host} {t : Account} (hk : h.arena.Keeps t) (p size : Nat) :
    (h.orSame (h.getBuffer p size)).arena.Keeps (t ++ h.arena.drawing p size) := by
  refine keeps_orSame (fun g b hg => hk.getBuffer hg) fun refusal hg => ?_
  have hnone : h.arena.drawing p size = [] := by
    rw [Arena.drawing, hg]
    cases h.arena.pool? p <;> rfl
  rwa [hnone, List.append_nil]

/-- Giving up some buffers and then some allocators. -/
theorem keeps_surrender {h : Host} {t : Account} (hk : h.arena.Keeps t) (names : Holders)
    (buffers : List Nat) {allocators : List Nat} (hn : allocators.Nodup) :
    ((h.giveUpBuffers names buffers).giveUpAllocators names allocators).arena.Keeps
      (t ++ h.surrender names buffers allocators) := by
  have hbuffers : (h.giveUpBuffers names buffers).arena.Keeps
      (t ++ h.arena.repayments (h.unheldBuffers names buffers)) :=
    hk.releaseAll (h.unheldBuffers names buffers)
  have hall := hbuffers.askAll
    (((h.giveUpBuffers names buffers).unheldAllocators names allocators).map .drop)
  rw [arena_giveUpAllocators _ names hn, surrender, ← List.append_assoc]
  rwa [List.map_map] at hall

theorem keeps_replaceBuffer {h : Host} {t : Account} (hk : h.arena.Keeps t) (p old size : Nat)
    (left : Holders) : (h.act (.replaceBuffer p old size left)).arena.Keeps
      (t ++ h.postings (.replaceBuffer p old size left)) := by
  rw [act, postings, replaceBuffer]
  cases hg : h.arena.replaceBuffer p old size with
  | ok made => exact hk.replaceBuffer hg
  | error refusal => exact keeps_surrender hk left [old] (nodup_drawnFrom hk.accounted.linked old)

theorem keeps_writeBuffer {h : Host} {t : Account} (hk : h.arena.Keeps t) (b start : Nat)
    (bytes : List UInt8) : (h.writeBuffer b start bytes).arena.Keeps t := by
  unfold writeBuffer
  cases hb : h.arena.buffer? b with
  | none => exact hk
  | some x =>
    dsimp only
    cases hx : x.write start bytes with
    | error refusal => exact hk
    | ok written =>
      refine hk.write hb ?_
      unfold Buffer.write at hx
      split at hx
      · simp at hx
      · next contents hcontents =>
        split at hx
        · obtain rfl := Except.ok.inj hx
          exact ⟨rfl, rfl, by simp [Buffer.isReleased, hcontents]⟩
        · obtain rfl := Except.ok.inj hx
          exact ⟨rfl, rfl, rfl⟩

theorem keeps_openEnvironment {h : Host} {t : Account} (hk : h.arena.Keeps t) (root : Option Nat)
    (endpoint : Endpoint) (options : Option OptionStack) (services : Services) :
    (h.act (.openEnvironment root endpoint options services)).arena.Keeps
      (t ++ h.postings (.openEnvironment root endpoint options services)) := by
  rw [act]
  cases hs : h.hasServices services with
  | false =>
    have hnone : h.postings (.openEnvironment root endpoint options services) = [] := by
      cases root <;> simp [postings, hs]
    rwa [hnone, List.append_nil]
  | true =>
    rw [if_pos rfl, (writes_openEnvironment _ _ endpoint options services).arena_eq rfl]
    cases root with
    | some r => simpa [rootFor, postings] using hk
    | none =>
      rw [postings, hs]
      exact hk.ask (.root Environment.rootLabel h.settings.1.rootLimit)

theorem keeps_openContext {h : Host} {t : Account} (hk : h.arena.Keeps t) (environment : Nat)
    (plan : PlanFragment) (session : Option UserSession) (registry : Nat) :
    (h.act (.openContext environment plan session registry)).arena.Keeps
      (t ++ h.postings (.openContext environment plan session registry)) := by
  rw [act, postings]
  cases h.environment? environment with
  | none => simpa using hk
  | some e =>
    dsimp only
    cases hp : prepare h.zones e plan with
    | error f =>
      rw [openContext_of_prepare_error hp]
      simpa using hk
    | ok prepared =>
      have hask := hk.ask (.child e.root plan.handle.ownerText plan.initial plan.max
        h.settings.1.applyFragmentLimit)
      rcases arena_openContext environment session registry hp rfl with harena | ⟨allocator, size, harena⟩
      · rw [harena]
        exact hask
      · rw [harena]
        exact hask.openPool plan.handle.ownerText allocator size

theorem keeps_closeContext {h : Host} {t : Account} (hk : h.arena.Keeps t) (n : Nat) :
    (h.closeContext n).1.arena.Keeps (t ++ h.postings (.closeContext n)) := by
  rw [postings]
  cases hc : h.context? n with
  | none =>
    rw [closeContext, hc]
    simpa using hk
  | some c =>
    cases hclosed : c.isClosed with
    | true =>
      rw [closeContext, hc]
      simpa [hclosed] using hk
    | false =>
      rw [arena_closeContext hc hclosed]
      simp only [hclosed, Bool.false_eq_true, if_false]
      rw [← List.append_assoc]
      exact (hk.closePool c.pool).ask (.close c.allocator)

/-- Whatever is asked of a host, the account stays right and the pools track their buffers. -/
theorem keeps_act {h : Host} {t : Account} (hk : h.arena.Keeps t) (c : HostCall) :
    (h.act c).arena.Keeps (t ++ h.postings c) := by
  cases c with
  | root label max => exact hk.ask (.root label max)
  | child parent label initial max obeysLimits =>
    rw [arena_child]
    exact hk.ask (.child parent label initial max obeysLimits)
  | consume allocator bytes =>
    rw [arena_consume]
    exact hk.ask (.consume allocator bytes)
  | release allocator bytes => exact hk.ask (.release allocator bytes)
  | limit allocator limit => exact hk.ask (.limit allocator limit)
  | closeAllocator allocator => exact hk.ask (.close allocator)
  | openPool owner allocator defaultSize =>
    rw [postings, List.append_nil]
    exact hk.openPool owner allocator defaultSize
  | getDefault pool => exact keeps_getBuffer hk pool _
  | getBuffer pool size => exact keeps_getBuffer hk pool size
  | replaceBuffer pool old size left => exact keeps_replaceBuffer hk pool old size left
  | releaseBuffer b => exact hk.release b
  | write b start bytes =>
    rw [postings, List.append_nil]
    exact keeps_writeBuffer hk b start bytes
  | closePool pool =>
    have harena : (h.closePool pool).arena = (h.arena.closePool pool).1 := fst_closingOf h.arena pool
    rw [act, harena]
    exact hk.closePool pool
  | openEnvironment root endpoint options services =>
    exact keeps_openEnvironment hk root endpoint options services
  | openContext environment plan session registry =>
    exact keeps_openContext hk environment plan session registry
  | closeContext context => exact keeps_closeContext hk context
  | keep names => exact keeps_surrender hk names _ (List.nodup_reverse.mpr List.nodup_range)
  | _ =>
    rw [postings, List.append_nil, arena_act h rfl]
    exact hk

theorem keeps_actAll {h : Host} {t : Account} (hk : h.arena.Keeps t) (calls : List HostCall) :
    (h.actAll calls).arena.Keeps (t ++ h.account calls) := by
  induction calls generalizing h t with
  | nil => simpa [account] using hk
  | cons c calls ih =>
    rw [account, ← List.append_assoc]
    exact ih (keeps_act hk c)

-- ---------------------------------------------------------------------------
-- What stays
-- ---------------------------------------------------------------------------

/-- A call does to the allocators what its postings say, and nothing else. -/
theorem forest_act {h : Host} {t : Account} (hk : h.arena.Keeps t) (c : HostCall) :
    (h.act c).forest = h.forest.performAll (h.postings c).calls := by
  have hk' := keeps_act hk c
  rw [forest, forest, hk'.accounted.forest_eq, Account.calls_append, Forest.performAll_append,
    ← hk.accounted.forest_eq]

theorem forest_actAll {h : Host} {t : Account} (hk : h.arena.Keeps t) (calls : List HostCall) :
    (h.actAll calls).forest = h.forest.performAll (h.account calls).calls := by
  have hk' := keeps_actAll hk calls
  rw [forest, forest, hk'.accounted.forest_eq, Account.calls_append, Forest.performAll_append,
    ← hk.accounted.forest_eq]

/-- Between two states with right accounts the forest evolved. -/
theorem evolves_act {h : Host} {t : Account} (hk : h.arena.Keeps t) (c : HostCall) :
    h.forest.Evolves (h.act c).forest := by
  rw [forest_act hk c]
  exact (Forest.evolves_performAll hk.accounted.linked _).1

theorem evolves_actAll {h : Host} {t : Account} (hk : h.arena.Keeps t) (calls : List HostCall) :
    h.forest.Evolves (h.actAll calls).forest := by
  rw [forest_actAll hk calls]
  exact (Forest.evolves_performAll hk.accounted.linked _).1

/-- The pools that a call closes, by themselves or with a context. -/
def closing (h : Host) : HostCall → List Nat
  | .closePool pool => [pool]
  | .closeContext context =>
    match h.context? context with
    | some c => if c.isClosed then [] else [c.pool]
    | none => []
  | _ => []

theorem poolsStay_orSame {h : Host} {outcome : Except Failure (Arena × Nat)}
    (hok : ∀ g b, outcome = .ok (g, b) → h.arena.PoolsStay g []) :
    h.arena.PoolsStay (h.orSame (h.ofArena outcome)).arena [] := by
  cases ho : outcome with
  | error refusal => exact Arena.poolsStay_of_eq rfl
  | ok made => exact hok made.1 made.2 ho

theorem poolsStay_openContext (h : Host) (environment : Nat) (e : Environment) (plan : PlanFragment)
    (session : Option UserSession) (registry : Nat) :
    h.arena.PoolsStay (h.openContext environment e plan session registry).1.arena [] := by
  cases hp : prepare h.zones e plan with
  | error f =>
    rw [openContext_of_prepare_error hp]
    exact Arena.poolsStay_of_eq rfl
  | ok prepared =>
    rcases arena_openContext environment session registry hp rfl with harena | ⟨allocator, size, harena⟩
    · rw [harena]
      exact Arena.poolsStay_of_eq rfl
    · rw [harena]
      exact (Arena.poolsStay_of_eq rfl).trans (Arena.poolsStay_openPool _ _ _ _)

/-- Giving up leaves the pools alone. -/
theorem poolsStay_giveUp (h : Host) (names : Holders) (buffers allocators : List Nat) :
    h.arena.PoolsStay ((h.giveUpBuffers names buffers).giveUpAllocators names allocators).arena [] := by
  obtain ⟨f, hf⟩ := arena_giveUpAllocators_eq (h.giveUpBuffers names buffers) names allocators
  rw [hf]
  exact Arena.poolsStay_of_eq (Arena.pools_releaseAll h.arena (h.unheldBuffers names buffers))

theorem poolsStay_replaceBuffer (h : Host) (pool old size : Nat) (left : Holders) :
    h.arena.PoolsStay (h.act (.replaceBuffer pool old size left)).arena [] := by
  rw [act, replaceBuffer]
  split
  · next hg => exact Arena.poolsStay_replaceBuffer hg
  · exact poolsStay_giveUp h left [old] _

theorem poolsStay_closeContext (h : Host) (n : Nat) :
    h.arena.PoolsStay (h.closeContext n).1.arena (h.closing (.closeContext n)) := by
  rw [closing]
  cases hc : h.context? n with
  | none =>
    rw [closeContext, hc]
    exact Arena.poolsStay_of_eq rfl
  | some c =>
    cases hclosed : c.isClosed with
    | true =>
      rw [closeContext, hc]
      simp only [hclosed, if_true]
      exact Arena.poolsStay_of_eq rfl
    | false =>
      rw [arena_closeContext hc hclosed]
      simp only [hclosed, Bool.false_eq_true, if_false]
      exact (Arena.poolsStay_closePool h.arena c.pool).trans (Arena.poolsStay_of_eq rfl)

/-- Whatever is asked of the host, pools stay on their allocators, and they are open until they are
closed. -/
theorem poolsStay_act (h : Host) (c : HostCall) :
    h.arena.PoolsStay (h.act c).arena (h.closing c) := by
  cases c with
  | child parent label initial max obeysLimits =>
    rw [arena_child]
    exact Arena.poolsStay_of_eq rfl
  | consume allocator bytes =>
    rw [arena_consume]
    exact Arena.poolsStay_of_eq rfl
  | openPool owner allocator defaultSize =>
    exact Arena.poolsStay_openPool h.arena owner allocator defaultSize
  | getDefault pool => exact poolsStay_orSame fun g b hg => Arena.poolsStay_getBuffer hg
  | getBuffer pool size => exact poolsStay_orSame fun g b hg => Arena.poolsStay_getBuffer hg
  | replaceBuffer pool old size left => exact poolsStay_replaceBuffer h pool old size left
  | releaseBuffer b => exact Arena.poolsStay_of_eq (Arena.pools_releaseBuffer h.arena b)
  | write b start bytes =>
    rw [act, writeBuffer]
    split
    · exact Arena.poolsStay_of_eq rfl
    · split <;> exact Arena.poolsStay_of_eq rfl
  | closePool pool =>
    have harena : (h.closePool pool).arena = (h.arena.closePool pool).1 := fst_closingOf h.arena pool
    rw [act, harena]
    exact Arena.poolsStay_closePool h.arena pool
  | openEnvironment root endpoint options services =>
    rw [act]
    split
    · rw [(writes_openEnvironment _ _ endpoint options services).arena_eq rfl]
      cases root <;> exact Arena.poolsStay_of_eq rfl
    · exact Arena.poolsStay_of_eq rfl
  | openContext environment plan session registry =>
    rw [act]
    split
    · exact poolsStay_openContext h environment _ plan session registry
    · exact Arena.poolsStay_of_eq rfl
  | closeContext context => exact poolsStay_closeContext h context
  | keep names => exact poolsStay_giveUp h names _ _
  | root | release | limit | closeAllocator => exact Arena.poolsStay_of_eq rfl
  | _ => exact Arena.poolsStay_of_eq (by rw [arena_act h rfl])

end Host

end FragmentHost

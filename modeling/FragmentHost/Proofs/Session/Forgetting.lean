import FragmentHost.Proofs.Host.Forgetting
import FragmentHost.Proofs.Session.Runs

/-!
# Forgetting names in any order

Names of allocators, pools, buffers and contexts hold what they name, with everything that it needs. Each
name that is forgotten lets go of something, and what depends on the names that are still there. The names
that are left in the end do not depend on the order, and the host ends as if all had been forgotten at once
(`arena_forget`). So it ends in the same state in any order (`forgetting_in_any_order`).
-/

namespace FragmentHost

namespace Dictionary

variable {β : Type}

theorem remove_of_none {d : Dictionary β} {key : String} (h : d.get? key = none) :
    d.remove key = d := by
  refine List.filter_eq_self.mpr fun e he => ?_
  have hne := List.lookup_eq_none_iff.mp h e he
  simpa using fun heq : e.1 = key => by simp [heq] at hne

theorem get?_remove_of_ne {key other : String} (h : other ≠ key) (d : Dictionary β) :
    (d.remove key).get? other = d.get? other := by
  induction d with
  | nil => rfl
  | cons e d ih =>
    rw [remove, List.filter_cons, get?_cons]
    split
    · rw [get?_cons, ← ih, remove]
    · next hkey =>
      have hne : (other == e.1) = false := by
        simpa [show e.1 = key by simpa using hkey] using h
      rw [hne, ← ih, remove]
      rfl

theorem remove_comm (d : Dictionary β) (key other : String) :
    (d.remove key).remove other = (d.remove other).remove key :=
  List.filter_comm ..

theorem values_remove_subset (d : Dictionary β) (key : String) :
    (d.remove key).values ⊆ d.values :=
  List.map_subset _ (List.filter_subset_self d)

end Dictionary

/-- The name of an object that holds memory. -/
inductive HeldName where
  | allocator (name : String)
  | pool (name : String)
  | buffer (name : String)
  | context (name : String)
  deriving DecidableEq, Repr

/-- The command that forgets a name. -/
def HeldName.drop : HeldName → Command
  | .allocator name => .allocator (.drop name)
  | .pool name => .pool (.drop name)
  | .buffer name => .buffer (.drop name)
  | .context name => .context (.drop name)

namespace Names

/-- The names of contexts after one is forgotten. A name of none of `contexts` stays. -/
def forgetContext (contexts : List Context) (d : Dictionary Nat) (name : String) : Dictionary Nat :=
  match (d.get? name).bind (contexts[·]?) with
  | some _ => d.remove name
  | none => d

/-- The names after one is forgotten in a host with these contexts. -/
def without (contexts : List Context) (n : Names) : HeldName → Names
  | .allocator name => { n with allocators := n.allocators.remove name }
  | .pool name => { n with pools := n.pools.remove name }
  | .buffer name => { n with buffers := n.buffers.remove name }
  | .context name => { n with contexts := forgetContext contexts n.contexts name }

theorem get?_forgetContext_of_ne {contexts : List Context} {name other : String} (h : other ≠ name)
    (d : Dictionary Nat) : (forgetContext contexts d name).get? other = d.get? other := by
  unfold forgetContext
  split
  · exact Dictionary.get?_remove_of_ne h d
  · rfl

/-- A name that is forgotten first has no say in whether another one is. -/
theorem forgetContext_comm (contexts : List Context) (d : Dictionary Nat) (name other : String) :
    forgetContext contexts (forgetContext contexts d name) other =
      forgetContext contexts (forgetContext contexts d other) name := by
  by_cases hsame : name = other
  · rw [hsame]
  · have hlater : ∀ (e : Dictionary Nat) (key : String), e.get? key = d.get? key →
        forgetContext contexts e key =
          match (d.get? key).bind (contexts[·]?) with
          | some _ => e.remove key
          | none => e := by
      intro e key he
      rw [forgetContext, he]
    rw [hlater _ other (get?_forgetContext_of_ne (Ne.symm hsame) d),
      hlater _ name (get?_forgetContext_of_ne hsame d)]
    unfold forgetContext
    cases (d.get? name).bind (contexts[·]?) <;> cases (d.get? other).bind (contexts[·]?) <;>
      simp only [d.remove_comm name other]

theorem without_comm (contexts : List Context) (n : Names) (x y : HeldName) :
    (n.without contexts x).without contexts y = (n.without contexts y).without contexts x := by
  cases x with
  | allocator name =>
    cases y with
    | allocator other =>
      exact congrArg (fun d => { n with allocators := d }) (n.allocators.remove_comm name other)
    | _ => rfl
  | pool name =>
    cases y with
    | pool other => exact congrArg (fun d => { n with pools := d }) (n.pools.remove_comm name other)
    | _ => rfl
  | buffer name =>
    cases y with
    | buffer other =>
      exact congrArg (fun d => { n with buffers := d }) (n.buffers.remove_comm name other)
    | _ => rfl
  | context name =>
    cases y with
    | context other =>
      exact congrArg (fun d => { n with contexts := d }) (forgetContext_comm contexts n.contexts name other)
    | _ => rfl

theorem within_without (contexts : List Context) (n : Names) (x : HeldName) :
    (n.without contexts x).holders.Within n.holders := by
  have hvalues : ∀ (d : Dictionary Nat) (name : String), (d.remove name).values ⊆ d.values :=
    fun d name => d.values_remove_subset name
  cases x with
  | allocator name =>
    exact ⟨List.map_subset _ (n.allocators.values_remove_subset name), List.Subset.refl _,
      List.Subset.refl _, List.Subset.refl _, List.Subset.refl _⟩
  | pool name =>
    exact ⟨List.Subset.refl _, hvalues _ name, List.Subset.refl _, List.Subset.refl _,
      List.Subset.refl _⟩
  | buffer name =>
    exact ⟨List.Subset.refl _, List.Subset.refl _, hvalues _ name, List.Subset.refl _,
      List.Subset.refl _⟩
  | context name =>
    refine ⟨List.Subset.refl _, List.Subset.refl _, List.Subset.refl _, List.Subset.refl _, ?_⟩
    show (forgetContext contexts n.contexts name).values ⊆ n.contexts.values
    unfold forgetContext
    split
    · exact hvalues _ name
    · exact List.Subset.refl _

end Names

theorem Holders.Within.refl (names : Holders) : names.Within names :=
  ⟨List.Subset.refl _, List.Subset.refl _, List.Subset.refl _, List.Subset.refl _,
    List.Subset.refl _⟩

theorem Holders.Within.trans {few fewer names : Holders} (h : few.Within fewer)
    (h' : fewer.Within names) : few.Within names :=
  ⟨List.Subset.trans h.allocators h'.allocators, List.Subset.trans h.pools h'.pools,
    List.Subset.trans h.buffers h'.buffers, List.Subset.trans h.environments h'.environments,
    List.Subset.trans h.contexts h'.contexts⟩

namespace Session

/-- The session after names were forgotten one after the other. -/
def forget (s : Session) (names : List HeldName) : Session := (s.run (names.map HeldName.drop)).1

/-- Forgetting a name changes the names, and gives up what nobody holds then. -/
theorem fst_step_drop (s : Session) (x : HeldName) : (s.step x.drop).1 =
    { host := s.host.collect (s.names.without s.host.contexts x).holders
      names := s.names.without s.host.contexts x } := by
  have hperform : (s.perform x.drop).1 =
      { host := s.host, names := s.names.without s.host.contexts x } := by
    cases x with
    | allocator name =>
      show (s.find (·.allocators) name _).1 = _
      unfold find
      cases hname : s.names.allocators.get? name with
      | some _ => rfl
      | none => rw [Names.without, Dictionary.remove_of_none hname]; rfl
    | pool name =>
      show (s.find (·.pools) name _).1 = _
      unfold find
      cases hname : s.names.pools.get? name with
      | some _ => rfl
      | none => rw [Names.without, Dictionary.remove_of_none hname]; rfl
    | buffer name =>
      show (s.find (·.buffers) name _).1 = _
      unfold find
      cases hname : s.names.buffers.get? name with
      | some _ => rfl
      | none => rw [Names.without, Dictionary.remove_of_none hname]; rfl
    | context name =>
      show (s.findContext name _).1 = _
      rw [Names.without, Names.forgetContext]
      unfold findContext find Host.context?
      cases hname : s.names.contexts.get? name with
      | none => rfl
      | some number =>
        dsimp only [Option.bind_some]
        cases s.host.contexts[number]? <;> rfl
  show (s.perform x.drop).1.tidy = _
  rw [hperform]
  rfl

theorem forget_cons (s : Session) (x : HeldName) (names : List HeldName) :
    s.forget (x :: names) = (s.step x.drop).1.forget names := rfl

/-- The names that are left do not depend on what else happens. -/
theorem names_forget (s : Session) (names : List HeldName) :
    (s.forget names).names = names.foldl (Names.without s.host.contexts) s.names := by
  induction names generalizing s with
  | nil => rfl
  | cons x names ih =>
    have hcollect := Host.writes_collect s.host (s.names.without s.host.contexts x).holders
    have hcontexts := (hcollect.sameRecords rfl).contexts_eq
    rw [forget_cons, ih, fst_step_drop, List.foldl_cons]
    dsimp only
    rw [hcontexts]

theorem within_forget (s : Session) (names : List HeldName) :
    (s.forget names).names.holders.Within s.names.holders := by
  induction names generalizing s with
  | nil => exact .refl _
  | cons x names ih =>
    have hfirst := s.names.within_without s.host.contexts x
    have hrest := ih (s.step x.drop).1
    rw [fst_step_drop] at hrest
    rw [forget_cons, fst_step_drop]
    exact hrest.trans hfirst

/-- However many names are forgotten, and one after the other, memory ends as if they had been forgotten at
once. -/
theorem arena_forget {s : Session} (hl : s.host.forest.Linked) (hs : s.host.forest.Sound) (x : HeldName)
    (names : List HeldName) : (s.forget (x :: names)).host.arena =
      (s.host.collect (s.forget (x :: names)).names.holders).arena := by
  induction names generalizing s x with
  | nil =>
    rw [forget_cons, fst_step_drop]
    rfl
  | cons y names ih =>
    have hkept := Host.kept_by_collect hl hs (s.names.without s.host.contexts x).holders
    have hwithin := within_forget (s.step x.drop).1 (y :: names)
    have hnames : (s.step x.drop).1.names = s.names.without s.host.contexts x := by
      rw [fst_step_drop]
    have hhost : (s.step x.drop).1.host =
        s.host.collect (s.names.without s.host.contexts x).holders := by
      rw [fst_step_drop]
    rw [← hhost] at hkept
    rw [hnames] at hwithin
    rw [forget_cons, ih hkept.1 hkept.2, hhost, Host.collect_collect hl hs hwithin]

/-- After any commands, names of allocators, pools, buffers and contexts can be forgotten in any order: the
allocators and their figures, the pools, the buffers and the names that are left are the same. -/
theorem forgetting_in_any_order (process : Process) (commands : List Command)
    {first second : List HeldName} (hperm : first.Perm second) :
    (((ofProcess process).run commands).1.forget first).host.arena =
        (((ofProcess process).run commands).1.forget second).host.arena ∧
      (((ofProcess process).run commands).1.forget first).names =
        (((ofProcess process).run commands).1.forget second).names := by
  generalize hs : ((ofProcess process).run commands).1 = s
  have hnames : (s.forget first).names = (s.forget second).names := by
    have hcomm : RightCommutative (Names.without s.host.contexts) :=
      ⟨fun n x y => n.without_comm s.host.contexts x y⟩
    rw [names_forget, names_forget, hperm.foldl_eq s.names]
  refine ⟨?_, hnames⟩
  obtain ⟨calls, hcalls⟩ := reaches_run (ofProcess process) commands
  have haccounted := (Host.keeps_ofProcess process calls).accounted
  rw [← hcalls, hs] at haccounted
  cases first with
  | nil => rw [hperm.nil_eq]
  | cons x rest =>
    cases second with
    | nil => exact absurd hperm.symm.nil_eq (by simp)
    | cons y rest' =>
      rw [arena_forget haccounted.linked haccounted.sound, hnames,
        ← arena_forget haccounted.linked haccounted.sound]

/-- Commands of a query with a scan that draws from its fragment and with a context beside it. The fragment
was given more back than it had. -/
def sharedMemory : List Command :=
  let node : Endpoint := ⟨"localhost", 31010, 31011, 31012⟩
  let plan : PlanRequest := ⟨⟨⟨0, 1⟩, 1, 0⟩, node, node, some 50, some (-1), none, 0, none⟩
  [.allocator (.root "query" "query" 1000),
    .allocator (.child "fragment" "query" ⟨"fragment", 100, -1, true⟩),
    .allocator (.child "scan" "fragment" ⟨"scan", 20, -1, true⟩),
    .pool (.make "pool" "scan" "scan" 16), .pool (.getSize "pool" "rows" 90),
    .pool (.getSize "pool" "keys" 30), .allocator (.release "fragment" 70),
    .environment (.make "node" (some "query") node none {}),
    .context (.make "context" "node" plan none none), .context (.bufferOfSize "context" "spill" 80)]

/-- All names of that query but those of the root and of one buffer. -/
def ownNames : List HeldName :=
  [.allocator "fragment", .context "context", .buffer "rows", .allocator "scan", .pool "pool",
    .buffer "spill"]

/-- The buffer that is still named keeps the scan and its fragment. -/
theorem forgetting_in_any_order_ownNames :
    (((ofProcess {}).run sharedMemory).1.forget ownNames).host.forest.nodes.map
        (fun a => (a.label, a.current, a.deallocated, a.dropped)) =
      [("query", 100, 100, false), ("fragment", 0, 120, false), ("scan", 30, 90, false),
        ("Fragment 1:0", 0, 80, true)] ∧
      (((ofProcess {}).run sharedMemory).1.forget ownNames).host.arena =
        (((ofProcess {}).run sharedMemory).1.forget ownNames.reverse).host.arena ∧
      (((ofProcess {}).run sharedMemory).1.forget ownNames).names =
        (((ofProcess {}).run sharedMemory).1.forget ownNames.reverse).names :=
  ⟨by decide +kernel,
    forgetting_in_any_order {} sharedMemory (List.reverse_perm ownNames).symm⟩

end Session

end FragmentHost

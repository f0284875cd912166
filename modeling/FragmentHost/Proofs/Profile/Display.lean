import FragmentHost.Context.Statistics
import FragmentHost.Proofs.Profile.Chart

/-!
# An allocator on display

A profile in which one allocator is charted again and again, while anything is asked of the allocators in
between. Nodes are never removed. So each node for memory belongs to an allocator that some view has seen, and
has its figures from the last view that saw it (`LastSeen`): what is seen now is shown as it is now, and any
other node was left behind when its allocator, or one on the way to it, was closed or dropped (`Mirror`).
-/

namespace FragmentHost

open Profile (chartNode)

/-- A forest, the profile in which one of its allocators is charted, and the forests as they were whenever it
was charted, in order. -/
structure Display where
  forest : Forest := {}
  profile : Profile
  views : List Forest := []

/-- What happens to a forest and to the profile. -/
inductive DisplayCall where
  | ask (call : AllocatorCall)
  | attach
  /-- The profile is brought up to date, with the time that has passed. -/
  | refresh (elapsed : Int)
  deriving DecidableEq, Repr

namespace DisplayCall

/-- The allocator is charted. -/
def IsView : DisplayCall → Prop
  | ask _ => False
  | _ => True

end DisplayCall

namespace Display

/-- The display after a call, where allocator `a` is the one that is charted. -/
def perform (a : Nat) (d : Display) : DisplayCall → Display
  | .ask call => { d with forest := d.forest.perform call }
  | .attach =>
    { d with profile := d.profile.attachMemory (d.forest.outline a), views := d.views ++ [d.forest] }
  | .refresh elapsed =>
    { d with
      profile := FragmentProfile.refresh d.profile elapsed (d.forest.outline a)
      views := d.views ++ [d.forest] }

/-- The display after calls, one after the other. -/
def performAll (a : Nat) (d : Display) (calls : List DisplayCall) : Display := calls.foldl (perform a) d

/-- The display after a run that starts without allocators and ends with a view. -/
def atView (a : Nat) (p : Profile) (calls : List DisplayCall) (view : DisplayCall) : Display :=
  performAll a { profile := p } (calls ++ [view])

theorem performAll_concat (a : Nat) (d : Display) (calls : List DisplayCall) (c : DisplayCall) :
    d.performAll a (calls ++ [c]) = (d.performAll a calls).perform a c := by
  simp [performAll]

end Display

-- ---------------------------------------------------------------------------
-- The last view of an allocator
-- ---------------------------------------------------------------------------

/-- Of the `views`, `g` is the last one where `path` led from `a` to an allocator, and there it led to `b`. -/
def LastSeen (views : List Forest) (a : Nat) (path : List String) (g : Forest) (b : Nat) : Prop :=
  ∃ earlier later, views = earlier ++ g :: later ∧ g.Reaches a path b ∧
    ∀ k ∈ later, ∀ c, ¬ k.Reaches a path c

namespace LastSeen

variable {views : List Forest} {a b c : Nat} {path : List String} {f g : Forest}

theorem mem (h : LastSeen views a path g b) : g ∈ views := by
  obtain ⟨earlier, later, rfl, -⟩ := h
  simp

theorem reaches (h : LastSeen views a path g b) : g.Reaches a path b := by
  obtain ⟨_, _, -, hb, -⟩ := h
  exact hb

/-- What is seen now was last seen now. -/
theorem now (views : List Forest) (hb : f.Reaches a path b) : LastSeen (views ++ [f]) a path f b :=
  ⟨views, [], rfl, hb, by simp⟩

/-- Another view that does not see it changes nothing. -/
theorem before (h : LastSeen views a path g b) (hf : ∀ c, ¬ f.Reaches a path c) :
    LastSeen (views ++ [f]) a path g b := by
  obtain ⟨earlier, later, rfl, hb, hlater⟩ := h
  refine ⟨earlier, later ++ [f], by simp, hb, fun k hk => ?_⟩
  rcases List.mem_append.mp hk with hk | hk
  · exact hlater k hk
  · exact List.mem_singleton.mp hk ▸ hf

theorem eq_now (h : LastSeen (views ++ [f]) a path g b) (hc : f.Reaches a path c) : g = f := by
  obtain ⟨earlier, later, heq, -, hlater⟩ := h
  cases later using List.reverseRecOn with
  | nil => exact (List.singleton_inj.mp (List.append_inj' heq rfl).2).symm
  | append_singleton later k _ =>
    -- the last of the later ones is `f` itself, which sees the allocator
    rw [← List.cons_append, ← List.append_assoc] at heq
    obtain rfl : f = k := List.singleton_inj.mp (List.append_inj' heq rfl).2
    exact absurd hc (hlater f (by simp) c)

end LastSeen

namespace Display

variable {a : Nat} {d : Display} {p : Profile}

-- ---------------------------------------------------------------------------
-- Nodes and views
-- ---------------------------------------------------------------------------

/-- The nodes for memory are those of the allocators that were seen. -/
structure Kept (a : Nat) (d : Display) : Prop where
  linked : d.forest.Linked
  recorded : d.forest.Recorded
  /-- Views are forests of before. -/
  view : ∀ g ∈ d.views, g.Recorded ∧ g.Evolves d.forest
  /-- A node shows what the last view of its allocator saw. -/
  node : ∀ path y, d.profile.find? (chartNode :: path) = some y →
    ∃ g b, LastSeen d.views a path g b ∧ y.ShowsOnly g b
  /-- Each allocator that was seen has a node. -/
  stays : ∀ g ∈ d.views, ∀ path b, g.Reaches a path b →
    ∃ y, d.profile.find? (chartNode :: path) = some y

theorem Kept.start (hp : p.child? chartNode = none) : Kept a { profile := p } := by
  constructor
  case linked => exact Forest.linked_empty
  case recorded => exact Forest.recorded_empty
  case view => simp
  case node =>
    intro path y hy
    rw [Profile.find?_cons, hp] at hy
    simp at hy
  case stays => simp

theorem Kept.ask (h : d.Kept a) (call : AllocatorCall) : (d.perform a (.ask call)).Kept a where
  linked := (Forest.evolves_perform h.linked call).2
  recorded := Forest.recorded_perform h.linked h.recorded call
  view := fun g hg =>
    ⟨(h.view g hg).1, (h.view g hg).2.trans (Forest.evolves_perform h.linked call).1⟩
  node := h.node
  stays := h.stays

/-- The allocator is charted in a profile that has the same nodes for memory. -/
theorem Kept.attach (h : d.Kept a) (hdiffer : d.forest.SiblingsDiffer)
    (hp : p.child? chartNode = d.profile.child? chartNode) :
    Kept a { d with profile := p.attachMemory (d.forest.outline a), views := d.views ++ [d.forest] } := by
  have hlabels := hdiffer.labelsDiffer h.recorded a
  have hsame : ∀ path, p.find? (chartNode :: path) = d.profile.find? (chartNode :: path) := by
    intro path
    rw [Profile.find?_cons, hp, ← Profile.find?_cons]
  have hother : ∀ path, (∀ b, ¬ d.forest.Reaches a path b) →
      (p.attachMemory (d.forest.outline a)).find? (chartNode :: path) =
        d.profile.find? (chartNode :: path) := by
    intro path hnot
    rw [← hsame]
    refine Profile.find?_attachMemory_of_not_reaches h.linked h.recorded hlabels p (by simp) ?_
    rintro path' b ⟨⟩
    exact hnot b
  constructor
  case linked => exact h.linked
  case recorded => exact h.recorded
  case view =>
    intro g hg
    rcases List.mem_append.mp hg with hg | hg
    · exact h.view g hg
    · obtain rfl := List.mem_singleton.mp hg
      exact ⟨h.recorded, .refl _⟩
  case node =>
    intro path y hy
    by_cases hreached : ∃ b, d.forest.Reaches a path b
    · obtain ⟨b, hb⟩ := hreached
      refine ⟨d.forest, b, .now _ hb, ?_⟩
      rw [Profile.find?_attachMemory h.linked h.recorded hlabels p hb, Option.some.injEq] at hy
      subst hy
      cases hx : p.find? (chartNode :: path) with
      | none =>
        obtain ⟨name, hname⟩ := Profile.nodeAt_of_find?_none hx
        rw [hname]
        exact Profile.showsOnly_chart_empty h.linked h.recorded name b
      | some x =>
        obtain ⟨g, c, -, hshows⟩ := h.node path x (hsame path ▸ hx)
        rw [Profile.nodeAt_of_find? hx]
        exact hshows.chart h.linked h.recorded b
    · have hnot : ∀ b, ¬ d.forest.Reaches a path b := fun b hb => hreached ⟨b, hb⟩
      obtain ⟨g, b, hlast, hshows⟩ := h.node path y (hother path hnot ▸ hy)
      exact ⟨g, b, hlast.before hnot, hshows⟩
  case stays =>
    intro g hg path b hb
    by_cases hreached : ∃ b, d.forest.Reaches a path b
    · obtain ⟨c, hc⟩ := hreached
      exact ⟨_, Profile.find?_attachMemory h.linked h.recorded hlabels p hc⟩
    · have hnot : ∀ b, ¬ d.forest.Reaches a path b := fun b hb => hreached ⟨b, hb⟩
      rcases List.mem_append.mp hg with hg | hg
      · obtain ⟨y, hy⟩ := h.stays g hg path b hb
        exact ⟨y, (hother path hnot).trans hy⟩
      · exact absurd (List.mem_singleton.mp hg ▸ hb) (hnot b)

theorem Kept.perform (h : d.Kept a) (hdiffer : d.forest.SiblingsDiffer) (c : DisplayCall) :
    (d.perform a c).Kept a := by
  cases c with
  | ask call => exact h.ask call
  | attach => exact h.attach hdiffer rfl
  | refresh elapsed =>
    rw [Display.perform, Forest.outline_eq h.linked h.recorded, FragmentProfile.refresh,
      ← Forest.outline_eq h.linked h.recorded]
    exact h.attach hdiffer rfl

theorem evolves_perform (hl : d.forest.Linked) (c : DisplayCall) :
    d.forest.Evolves (d.perform a c).forest ∧ (d.perform a c).forest.Linked := by
  cases c with
  | ask call => exact Forest.evolves_perform hl call
  | attach | refresh => exact ⟨.refl _, hl⟩

theorem evolves_performAll (hl : d.forest.Linked) (calls : List DisplayCall) :
    d.forest.Evolves (d.performAll a calls).forest := by
  induction calls generalizing d with
  | nil => exact .refl _
  | cons c calls ih =>
    obtain ⟨hev, hlinked⟩ := evolves_perform (a := a) hl c
    exact hev.trans (ih hlinked)

/-- What holds of nodes and views holds after any run whose siblings have different labels. -/
theorem Kept.performAll (h : d.Kept a) (calls : List DisplayCall)
    (hdiffer : (d.performAll a calls).forest.SiblingsDiffer) : (d.performAll a calls).Kept a := by
  induction calls generalizing d with
  | nil => exact h
  | cons c calls ih =>
    have hbefore := hdiffer.of_evolves (evolves_performAll h.linked (c :: calls))
    exact ih (h.perform hbefore c) hdiffer

-- ---------------------------------------------------------------------------
-- Mirrors
-- ---------------------------------------------------------------------------

/-- The nodes for memory show what is seen from allocator `a` now, and besides what has gone. -/
structure Mirror (a : Nat) (d : Display) : Prop where
  /-- What is seen has its node, with its label and figures as they are now and nothing else. -/
  current : ∀ path b, d.forest.Reaches a path b →
    ∃ y, d.profile.find? (chartNode :: path) = some y ∧ y.ShowsOnly d.forest b
  /-- Any other node shows what the last view saw that saw its allocator. That allocator, or one on the way to
  it, has since been closed or dropped. -/
  left : ∀ path y, d.profile.find? (chartNode :: path) = some y → (∀ b, ¬ d.forest.Reaches a path b) →
    ∃ g b, LastSeen d.views a path g b ∧ y.ShowsOnly g b ∧
      ∃ front c x, front ≠ [] ∧ front <+: path ∧ g.Reaches a front c ∧
        d.forest.get? c = some x ∧ x.isLive = false
  /-- No node is ever removed. -/
  stays : ∀ g ∈ d.views, ∀ path b, g.Reaches a path b →
    ∃ y, d.profile.find? (chartNode :: path) = some y
  /-- A node belongs to one allocator, whenever it was seen. -/
  same : ∀ g ∈ d.views, ∀ path b c, g.Reaches a path b → d.forest.Reaches a path c → b = c

theorem Kept.mirror (h : d.Kept a) (hdiffer : d.forest.SiblingsDiffer) {earlier : List Forest}
    (hviews : d.views = earlier ++ [d.forest]) : d.Mirror a := by
  constructor
  case current =>
    intro path b hb
    obtain ⟨y, hy⟩ := h.stays d.forest (by simp [hviews]) path b hb
    obtain ⟨g, c, hlast, hshows⟩ := h.node path y hy
    obtain rfl : g = d.forest := (hviews ▸ hlast).eq_now hb
    obtain rfl : c = b :=
      Forest.Reaches.unique hdiffer h.recorded h.recorded (.refl _) (.refl _) hlast.reaches hb
    exact ⟨y, hy, hshows⟩
  case left =>
    intro path y hy hnot
    obtain ⟨g, b, hlast, hshows⟩ := h.node path y hy
    obtain ⟨hrecorded, hev⟩ := h.view g hlast.mem
    refine ⟨g, b, hlast, hshows, ?_⟩
    rcases hlast.reaches.still hrecorded h.recorded hev with hstill | hgone
    · exact absurd hstill (hnot b)
    · exact hgone
  case stays => exact h.stays
  case same =>
    intro g hg path b c hb hc
    obtain ⟨hrecorded, hev⟩ := h.view g hg
    exact Forest.Reaches.unique hdiffer hrecorded h.recorded hev (.refl _) hb hc

/-- Whatever is asked of the allocators in between, after each time that an allocator is charted in a profile
the nodes for memory are those of the allocators seen from it, as they stand, and those that were left behind. -/
theorem mirror_atView (a : Nat) (p : Profile) (calls : List DisplayCall) (view : DisplayCall)
    (hview : view.IsView) (hp : p.child? chartNode = none)
    (hdiffer : (atView a p calls view).forest.SiblingsDiffer) : (atView a p calls view).Mirror a := by
  have hkept := (Kept.start (a := a) hp).performAll _ hdiffer
  rw [atView, performAll_concat] at hdiffer ⊢
  rw [performAll_concat] at hkept
  cases view with
  | ask call => exact absurd hview id
  | attach | refresh => exact hkept.mirror hdiffer rfl

/-- A fragment whose operator allocates, is seen, and is closed. -/
def operatorClosed : List DisplayCall :=
  [.ask (.root "fragment" (-1)), .ask (.child 0 "op" 0 (-1) true), .ask (.consume 1 100), .refresh 0,
    .ask (.release 1 100), .ask (.close 1)]

theorem mirror_atView_operatorClosed :
    (DisplayCall.refresh 1).IsView ∧ (Profile.empty "query").child? chartNode = none ∧
      (atView 0 (.empty "query") operatorClosed (.refresh 1)).forest.SiblingsDiffer ∧
      (atView 0 (.empty "query") operatorClosed (.refresh 1)).Mirror 0 := by
  have hdiffer : (atView 0 (.empty "query") operatorClosed (.refresh 1)).forest.SiblingsDiffer := by decide
  exact ⟨trivial, rfl, hdiffer, mirror_atView 0 _ operatorClosed _ trivial rfl hdiffer⟩

/-- It is not true that only what is seen is shown: the node of the operator stays when it is closed. -/
theorem node_left_after_close :
    ¬ ∀ (a : Nat) (p : Profile) (calls : List DisplayCall) (view : DisplayCall), view.IsView →
      p.child? chartNode = none → (atView a p calls view).forest.SiblingsDiffer →
      ∀ path y, (atView a p calls view).profile.find? (chartNode :: path) = some y →
        ∃ b, (atView a p calls view).forest.Reaches a path b ∧ y.Shows (atView a p calls view).forest b := by
  intro h
  have hdiffer : (atView 0 (.empty "query") operatorClosed (.refresh 1)).forest.SiblingsDiffer := by decide
  have hkept := (Kept.start (a := 0) (p := .empty "query") rfl).performAll _ hdiffer
  -- the first view has seen the operator
  have hseen : (Forest.performAll {} [.root "fragment" (-1), .child 0 "op" 0 (-1) true,
      .consume 1 100]).Reaches 0 ["op"] 1 :=
    .down (c := 1) (by decide) (.here 1)
  obtain ⟨y, hy⟩ := hkept.stays _ (List.mem_cons_self ..) ["op"] 1 hseen
  obtain ⟨b, hb, -⟩ := h 0 (.empty "query") operatorClosed (.refresh 1) trivial rfl hdiffer ["op"] y hy
  -- and now there is nothing to be seen
  have hnone : (atView 0 (.empty "query") operatorClosed (.refresh 1)).forest.children 0 = [] := by decide
  obtain ⟨c, hc, -⟩ := Forest.reaches_cons_iff.mp hb
  simp [hnone] at hc

end Display

end FragmentHost

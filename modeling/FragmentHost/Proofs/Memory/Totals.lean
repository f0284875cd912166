import FragmentHost.Proofs.Memory.Limits
import Mathlib.Algebra.Order.BigOperators.Group.List
import Mathlib.Data.List.Dedup

/-!
# Only the totals of requests matter

Where no limit is set, requests may come in any order and may be cut in any way: what is granted in the
end depends on what each allocator is asked for in total (`grants_depend_on_totals`). On the way the
forests differ, since whoever comes first uses up a reservation and whoever comes later pays upwards.

Two facts carry this. One request after another along the same path is one request for both
(`granted_add`): usage, even where it stops at the largest word, and what goes on to the parent only depend
on the sum. Requests along different paths can be exchanged (`granted_swap`): of two paths the head that
was made later is not on the other one, so that its own figures do not meet the other request, and the
rest goes by induction up to where the paths are the same. A list of requests is then as good as one
request for each allocator (`grantAll_eq_totals`).
-/

namespace FragmentHost

namespace Allocator

-- ---------------------------------------------------------------------------
-- Two grants of one allocator
-- ---------------------------------------------------------------------------

/-- An open allocator has room for `bytes` below its ceiling. -/
def Fits (a : Allocator) (bytes : Int) : Prop :=
  a.closed = false ∧ (0 ≤ a.max → a.usageAfter bytes ≤ a.max)

instance (a : Allocator) (bytes : Int) : Decidable (a.Fits bytes) :=
  inferInstanceAs (Decidable (_ ∧ _))

theorem refusal?_free_eq_none_iff (a : Allocator) (bytes : Int) :
    a.refusal? bytes false = none ↔ a.Fits bytes := by
  refine ⟨of_refusal?_eq_none, fun ⟨hopen, hmax⟩ => ?_⟩
  have hroom : ¬ (0 ≤ a.max ∧ a.max < a.usageAfter bytes) := by
    rintro ⟨hset, hover⟩
    have := hmax hset
    omega
  simp [refusal?, hopen, hroom]

section

variable {a : Allocator} (hs : a.Sound) {x y : Int} (hx : 0 ≤ x) (hy : 0 ≤ y)
include hs hx hy

/-- Also where the first grant stops at the largest word. -/
theorem usageAfter_grant : (a.grant x).usageAfter y = a.usageAfter (x + y) := by
  have hc := hs.current_nonneg
  simp only [usageAfter, grant, Word.saturatingAdd, Word.smallest, Word.largest]
  omega

theorem fits_add : a.Fits (x + y) ↔ a.Fits x ∧ (a.grant x).Fits y := by
  have hboth := usageAfter_grant hs hx hy
  have hle : a.usageAfter x ≤ a.usageAfter (x + y) := by
    rw [usageAfter_eq hs hx, usageAfter_eq hs (by omega)]
    omega
  constructor
  · rintro ⟨hopen, hmax⟩
    exact ⟨⟨hopen, fun h => hle.trans (hmax h)⟩, hopen, fun h => hboth ▸ hmax h⟩
  · rintro ⟨⟨hopen, -⟩, -, hmax⟩
    exact ⟨hopen, fun h => hboth ▸ hmax h⟩

/-- What the parent grants for both is what it grants for one and then for the other. -/
theorem demand_add : a.demand (x + y) = a.demand x + (a.grant x).demand y := by
  have hboth := usageAfter_grant hs hx hy
  have hfirst : (a.grant x).current = a.usageAfter x := rfl
  have hexcess : ∀ u, (a.grant x).excess u = a.excess u := fun _ => rfl
  unfold demand
  rw [hboth, hfirst, hexcess, hexcess]
  omega

theorem grant_grant : (a.grant x).grant y = a.grant (x + y) := by
  have hboth := usageAfter_grant hs hx hy
  have hle : a.usageAfter x ≤ a.usageAfter (x + y) := by
    rw [usageAfter_eq hs hx, usageAfter_eq hs (by omega)]
    omega
  have hpeak : Max.max (a.grant x).peak (a.usageAfter (x + y)) =
      Max.max a.peak (a.usageAfter (x + y)) := by
    show Max.max (Max.max a.peak (a.usageAfter x)) (a.usageAfter (x + y)) = _
    omega
  have htotal : Word.wrap ((a.grant x).allocated + y) = Word.wrap (a.allocated + (x + y)) := by
    show Word.wrap (Word.wrap (a.allocated + x) + y) = _
    rw [Word.wrap_wrap_add, Int.add_assoc]
  rw [grant, hboth, hpeak, htotal]
  rfl

end

end Allocator

namespace Forest

-- ---------------------------------------------------------------------------
-- Requests without limits
-- ---------------------------------------------------------------------------

/-- No allocator of a path has a limit. -/
def NoLimits (f : Forest) (path : List Nat) : Prop := ∀ i ∈ path, ∀ a ∈ f.get? i, a.limit < 0

instance (f : Forest) (path : List Nat) : Decidable (f.NoLimits path) :=
  inferInstanceAs (Decidable (∀ i ∈ path, ∀ a ∈ f.get? i, a.limit < 0))

/-- The forest with `bytes` granted along a path, if nobody on the way lacks room for its share. -/
def granted (f : Forest) (path : List Nat) (bytes : Int) : Option Forest :=
  (f.charge path bytes false).toOption

/-- Requests at allocators one after the other, up to the first one that is refused. -/
def consumeAll (f : Forest) : List (Nat × Int) → Except Failure Forest
  | [] => .ok f
  | (i, bytes) :: rest =>
    match f.consume i bytes with
    | .error refusal => .error refusal
    | .ok g => consumeAll g rest

/-- The forest with all requests granted one after the other, if that can be done. -/
def grantAll (f : Forest) : List (Nat × Int) → Option Forest
  | [] => some f
  | (i, bytes) :: rest => (f.granted (f.path i) bytes).bind (grantAll · rest)

/-- What requests ask of allocator `i` in total. -/
def asked (i : Nat) (requests : List (Nat × Int)) : Int :=
  ((requests.filter fun r => r.1 = i).map (·.2)).sum

theorem granted_eq_some {f g : Forest} {path : List Nat} {bytes : Int} :
    f.granted path bytes = some g ↔ f.charge path bytes false = .ok g := by
  unfold granted
  cases f.charge path bytes false <;> simp [Except.toOption]

theorem charge_of_noLimits {f : Forest} : ∀ {path : List Nat}, f.NoLimits path →
    ∀ (bytes : Int) (limited : Bool), f.charge path bytes limited = f.charge path bytes false := by
  intro path
  induction path with
  | nil => exact fun _ _ _ => rfl
  | cons i rest ih =>
    intro hfree bytes limited
    have hrest : f.NoLimits rest := fun j hj => hfree j (List.mem_cons_of_mem _ hj)
    rw [charge, charge]
    cases ha : f.get? i with
    | none => rfl
    | some a =>
      have hidle : Allocator.IdleLimit a.max a.limit := Or.inl (hfree i (by simp) a ha)
      simp only [Allocator.refusal?_of_idle hidle bytes limited, ih hrest _ (limited && a.obeysLimits),
        Bool.false_and]

theorem granted_of_nonpos (f : Forest) (path : List Nat) {bytes : Int} (h : bytes ≤ 0) :
    f.granted path bytes = some f :=
  granted_eq_some.mpr (charge_of_nonpos f path h false)

@[simp] theorem granted_nil (f : Forest) (bytes : Int) : f.granted [] bytes = some f := rfl

theorem granted_cons {f : Forest} {i : Nat} {a : Allocator} (ha : f.get? i = some a)
    (rest : List Nat) {bytes : Int} (hpos : 0 < bytes) :
    f.granted (i :: rest) bytes = if a.Fits bytes
      then (f.granted rest (a.demand bytes)).map (·.modify i (·.grant bytes)) else none := by
  rw [granted, charge, if_neg (by omega), ha]
  dsimp only
  by_cases hfits : a.Fits bytes
  · rw [if_pos hfits, (a.refusal?_free_eq_none_iff bytes).mpr hfits, granted, Bool.false_and]
    cases f.charge rest (a.demand bytes) false <;> rfl
  · rw [if_neg hfits]
    cases hr : a.refusal? bytes false with
    | none => exact absurd ((a.refusal?_free_eq_none_iff bytes).mp hr) hfits
    | some refusal => rfl

theorem get?_granted_of_not_mem {f g : Forest} {i : Nat} {path : List Nat} {bytes : Int}
    (hi : i ∉ path) (h : f.granted path bytes = some g) : g.get? i = f.get? i :=
  get?_charge_of_not_mem hi (granted_eq_some.mp h)

/-- A request does not notice what becomes of an allocator that is not on its way. -/
theorem granted_modify {i : Nat} (change : Allocator → Allocator) : ∀ {path : List Nat} (f : Forest)
    (bytes : Int), i ∉ path →
      (f.modify i change).granted path bytes = (f.granted path bytes).map (·.modify i change) := by
  intro path
  induction path with
  | nil => exact fun _ _ _ => rfl
  | cons j rest ih =>
    intro f bytes hi
    rw [List.mem_cons, not_or] at hi
    by_cases hpos : bytes ≤ 0
    · rw [granted_of_nonpos _ _ hpos, granted_of_nonpos _ _ hpos]
      rfl
    · have hsame := get?_modify_of_ne f hi.1 change
      cases ha : f.get? j with
      | none =>
        rw [ha] at hsame
        simp only [granted, charge, hpos, if_false, ha, hsame]
        rfl
      | some a =>
        rw [ha] at hsame
        rw [granted_cons hsame rest (by omega), granted_cons ha rest (by omega), ih f _ hi.2]
        by_cases hfits : a.Fits bytes
        · rw [if_pos hfits, if_pos hfits, Option.map_map, Option.map_map]
          refine Option.map_congr fun g _ => ?_
          exact modify_comm g hi.1 change _
        · rw [if_neg hfits, if_neg hfits]
          rfl

-- ---------------------------------------------------------------------------
-- Two requests
-- ---------------------------------------------------------------------------

/-- Two requests along one path are one request for both together. -/
theorem granted_add {f : Forest} (hs : f.Sound) : ∀ {path : List Nat}, f.Climbs path →
    ∀ {x y : Int}, 0 ≤ x → 0 ≤ y →
      (f.granted path x).bind (·.granted path y) = f.granted path (x + y) := by
  intro path
  induction path with
  | nil => exact fun _ _ _ _ _ => rfl
  | cons i rest ih =>
    intro hc x y hx hy
    obtain ⟨a, ha, -⟩ := hc.1
    have hsound := hs i a ha
    -- a request for nothing adds nothing
    rcases hx.eq_or_lt with rfl | hxpos
    · rw [granted_of_nonpos f _ le_rfl, Int.zero_add, Option.bind_some]
    rcases hy.eq_or_lt with rfl | hypos
    · simp only [granted_of_nonpos _ (i :: rest) (le_refl (0 : Int)), Int.add_zero,
        Option.bind_fun_some]
    have hfits := Allocator.fits_add hsound hx hy
    rw [granted_cons ha rest hxpos, granted_cons ha rest (by omega)]
    by_cases hfirst : a.Fits x
    · rw [if_pos hfirst, Option.bind_map]
      -- what the second request finds at `i` is the first grant
      have hsecond : ∀ g, f.granted rest (a.demand x) = some g →
          (g.modify i (·.grant x)).granted (i :: rest) y = if (a.grant x).Fits y
            then (g.granted rest ((a.grant x).demand y)).map (·.modify i (·.grant (x + y)))
            else none := by
        intro g hg
        have hga : g.get? i = some a := (get?_granted_of_not_mem hc.not_mem hg).trans ha
        have hgrant : (g.modify i (·.grant x)).get? i = some (a.grant x) := by simp [hga]
        rw [granted_cons hgrant rest hypos, granted_modify _ g _ hc.not_mem, Option.map_map]
        by_cases hroom : (a.grant x).Fits y
        · rw [if_pos hroom, if_pos hroom]
          refine Option.map_congr fun k hk => ?_
          have hka : k.get? i = some a := (get?_granted_of_not_mem hc.not_mem hk).trans hga
          exact (modify_modify k i _ _).trans
            (modify_congr hka (Allocator.grant_grant hsound hx hy))
        · rw [if_neg hroom, if_neg hroom]
      refine (Option.bind_congr hsecond).trans ?_
      by_cases hroom : (a.grant x).Fits y
      · simp only [if_pos hroom, if_pos (hfits.mpr ⟨hfirst, hroom⟩)]
        have hd := Allocator.demand_nonneg hsound hx
        have hd' := Allocator.demand_nonneg (hsound.becomes (.grant hxpos
          ((a.refusal?_free_eq_none_iff x).mpr hfirst))) hy
        rw [Allocator.demand_add hsound hx hy, ← ih hc.2.2 hd hd', Option.map_bind]
        rfl
      · simp only [if_neg hroom, if_neg fun h => hroom (hfits.mp h).2, Option.bind_fun_none]
    · rw [if_neg hfirst, if_neg fun h => hfirst (hfits.mp h).1]
      rfl

/-- Requests along two paths can be exchanged if what the first one sends upwards can. Its head is not on
the other path. -/
theorem granted_swap_cons {f : Forest} {i : Nat} {a : Allocator} (ha : f.get? i = some a)
    {rest path : List Nat} (hpath : i ∉ path) {x y : Int} (hx : 0 < x)
    (hrest : (f.granted rest (a.demand x)).bind (·.granted path y) =
      (f.granted path y).bind (·.granted rest (a.demand x))) :
    (f.granted (i :: rest) x).bind (·.granted path y) =
      (f.granted path y).bind (·.granted (i :: rest) x) := by
  have hlater : ∀ g, f.granted path y = some g → g.granted (i :: rest) x = if a.Fits x
      then (g.granted rest (a.demand x)).map (·.modify i (·.grant x)) else none := fun g hg =>
    granted_cons ((get?_granted_of_not_mem hpath hg).trans ha) rest hx
  rw [granted_cons ha rest hx, Option.bind_congr hlater]
  by_cases hfits : a.Fits x
  · simp only [if_pos hfits]
    calc ((f.granted rest (a.demand x)).map (·.modify i (·.grant x))).bind (·.granted path y)
        = (f.granted rest (a.demand x)).bind
            fun g => (g.granted path y).map (·.modify i (·.grant x)) := by
          rw [Option.bind_map]
          exact Option.bind_congr fun g _ => granted_modify _ g y hpath
      _ = ((f.granted rest (a.demand x)).bind (·.granted path y)).map
            (·.modify i (·.grant x)) := (Option.map_bind ..).symm
      _ = ((f.granted path y).bind (·.granted rest (a.demand x))).map
            (·.modify i (·.grant x)) := by rw [hrest]
      _ = _ := Option.map_bind ..
  · simp only [if_neg hfits, Option.bind_none, Option.bind_fun_none]

/-- Requests can be exchanged. -/
theorem granted_swap {f : Forest} (hs : f.Sound) : ∀ {path : List Nat}, f.Climbs path →
    ∀ {other : List Nat}, f.Climbs other → ∀ {x y : Int}, 0 ≤ x → 0 ≤ y →
      (f.granted path x).bind (·.granted other y) =
        (f.granted other y).bind (·.granted path x) := by
  intro path
  induction path with
  | nil =>
    intro _ other _ x y _ _
    simp
  | cons i rest ih =>
    intro hc other
    induction other with
    | nil =>
      intro _ x y _ _
      simp
    | cons j others ih' =>
      intro hc' x y hx hy
      rcases hx.eq_or_lt with rfl | hxpos
      · simp [granted_of_nonpos]
      rcases hy.eq_or_lt with rfl | hypos
      · simp [granted_of_nonpos]
      obtain ⟨a, ha, habove⟩ := hc.1
      obtain ⟨b, hb, habove'⟩ := hc'.1
      -- the later of the two heads is not on the other path
      rcases Nat.lt_trichotomy i j with hij | rfl | hij
      · exact (granted_swap_cons hb (Climbs.not_mem_of_lt hc hij) hypos
          (ih' hc'.2.2 hx (Allocator.demand_nonneg (hs j b hb) hy)).symm).symm
      · obtain rfl : a = b := Option.some.inj (ha.symm.trans hb)
        obtain rfl : rest = others := habove.symm.trans habove'
        rw [granted_add hs hc hx hy, granted_add hs hc hy hx, Int.add_comm]
      · exact granted_swap_cons ha (Climbs.not_mem_of_lt hc' hij) hxpos
          (ih hc.2.2 hc' (Allocator.demand_nonneg (hs i a ha) hx) hy)

-- ---------------------------------------------------------------------------
-- Lists of requests
-- ---------------------------------------------------------------------------

/-- What a granted request leaves as it was, and what stays true. -/
theorem kept_by_granted {f g : Forest} (hl : f.Linked) (hs : f.Sound) {i : Nat} {bytes : Int}
    (h : f.granted (f.path i) bytes = some g) :
    g.Linked ∧ g.Sound ∧ ∀ j, g.path j = f.path j := by
  have hcharge := granted_eq_some.mp h
  exact kept_of_evolves hl hs (evolves_charge (hl.climbs_path i) hcharge)
    (length_charge (hl.climbs_path i) hcharge)

theorem grantAll_cons_congr {f : Forest} (hl : f.Linked) (hs : f.Sound) (r : Nat × Int)
    {rest others : List (Nat × Int)}
    (h : ∀ g : Forest, g.Linked → g.Sound → g.grantAll rest = g.grantAll others) :
    f.grantAll (r :: rest) = f.grantAll (r :: others) := by
  refine Option.bind_congr fun g hg => ?_
  obtain ⟨hl', hs', -⟩ := kept_by_granted hl hs hg
  exact h g hl' hs'

theorem grantAll_cons_cons {f : Forest} (hl : f.Linked) (hs : f.Sound) (i j : Nat) (x y : Int)
    (rest : List (Nat × Int)) :
    f.grantAll ((i, x) :: (j, y) :: rest) =
      ((f.granted (f.path i) x).bind (·.granted (f.path j) y)).bind (·.grantAll rest) := by
  rw [grantAll, Option.bind_assoc]
  refine Option.bind_congr fun g hg => ?_
  rw [grantAll, (kept_by_granted hl hs hg).2.2 j]

/-- The order of requests does not matter. -/
theorem grantAll_perm {first second : List (Nat × Int)} (hperm : first.Perm second) :
    ∀ {f : Forest}, f.Linked → f.Sound → (∀ r ∈ first, 0 ≤ r.2) →
      f.grantAll first = f.grantAll second := by
  induction hperm with
  | nil => exact fun _ _ _ => rfl
  | cons r _ ih =>
    intro f hl hs hnonneg
    exact grantAll_cons_congr hl hs r fun g hl' hs' =>
      ih hl' hs' fun s hmem => hnonneg s (List.mem_cons_of_mem _ hmem)
  | swap r s rest =>
    intro f hl hs hnonneg
    have hr := hnonneg r (by simp)
    have hs' := hnonneg s (by simp)
    rw [grantAll_cons_cons hl hs, grantAll_cons_cons hl hs,
      granted_swap hs (hl.climbs_path s.1) (hl.climbs_path r.1) hs' hr]
  | trans hperm _ ih ih' =>
    intro f hl hs hnonneg
    exact (ih hl hs hnonneg).trans
      (ih' hl hs fun r hmem => hnonneg r (hperm.mem_iff.mpr hmem))

theorem grantAll_nothing (f : Forest) : ∀ nodes : List Nat,
    f.grantAll (nodes.map fun i => (i, 0)) = some f := by
  intro nodes
  induction nodes with
  | nil => rfl
  | cons i nodes ih =>
    rw [List.map_cons, grantAll, granted_of_nonpos f _ le_rfl, Option.bind_some, ih]

theorem asked_cons_self (i : Nat) (bytes : Int) (requests : List (Nat × Int)) :
    asked i ((i, bytes) :: requests) = bytes + asked i requests := by
  simp [asked]

theorem asked_cons_of_ne {i j : Nat} (h : j ≠ i) (bytes : Int) (requests : List (Nat × Int)) :
    asked i ((j, bytes) :: requests) = asked i requests := by
  simp [asked, h]

theorem asked_nonneg (i : Nat) {requests : List (Nat × Int)} (h : ∀ r ∈ requests, 0 ≤ r.2) :
    0 ≤ asked i requests := by
  refine List.sum_nonneg fun n hn => ?_
  obtain ⟨r, hr, rfl⟩ := List.mem_map.mp hn
  exact h r (List.mem_of_mem_filter hr)

/-- Requests are as good as one request for the total at each allocator. -/
theorem grantAll_eq_totals {nodes : List Nat} (hnodup : nodes.Nodup) :
    ∀ {requests : List (Nat × Int)}, (∀ r ∈ requests, r.1 ∈ nodes) → (∀ r ∈ requests, 0 ≤ r.2) →
      ∀ {f : Forest}, f.Linked → f.Sound →
        f.grantAll requests = f.grantAll (nodes.map fun i => (i, asked i requests)) := by
  intro requests
  induction requests with
  | nil => exact fun _ _ f _ _ => (grantAll_nothing f nodes).symm
  | cons r requests ih =>
    intro hnodes hnonneg f hl hs
    obtain ⟨i, n⟩ := r
    have hi : i ∈ nodes := hnodes (i, n) (by simp)
    have hn : 0 ≤ n := hnonneg (i, n) (by simp)
    have hnodes' : ∀ r ∈ requests, r.1 ∈ nodes := fun r hr => hnodes r (List.mem_cons_of_mem _ hr)
    have hnonneg' : ∀ r ∈ requests, 0 ≤ r.2 := fun r hr => hnonneg r (List.mem_cons_of_mem _ hr)
    have htotal := asked_nonneg i hnonneg'
    -- the total at `i` comes to the front, next to the request
    have hfront : ∀ all : List (Nat × Int), (nodes.map fun j => (j, asked j all)).Perm
        ((i, asked i all) :: (nodes.erase i).map fun j => (j, asked j all)) := fun all =>
      (List.perm_cons_erase hi).map _
    have hothers : ((nodes.erase i).map fun j => (j, asked j ((i, n) :: requests))) =
        (nodes.erase i).map fun j => (j, asked j requests) := by
      refine List.map_congr_left fun j hj => ?_
      rw [asked_cons_of_ne (hnodup.mem_erase_iff.mp hj).1.symm]
    have htotals : ∀ all : List (Nat × Int), (∀ r ∈ all, 0 ≤ r.2) →
        ∀ r ∈ nodes.map fun j => (j, asked j all), 0 ≤ r.2 := by
      intro all hall r hr
      obtain ⟨j, -, rfl⟩ := List.mem_map.mp hr
      exact asked_nonneg j hall
    calc f.grantAll ((i, n) :: requests)
        = f.grantAll ((i, n) :: nodes.map fun j => (j, asked j requests)) :=
          grantAll_cons_congr hl hs _ fun g hl' hs' => ih hnodes' hnonneg' hl' hs'
      _ = f.grantAll ((i, n) :: (i, asked i requests) ::
            (nodes.erase i).map fun j => (j, asked j requests)) :=
          grantAll_cons_congr hl hs _ fun g hl' hs' =>
            grantAll_perm (hfront requests) hl' hs' (htotals requests hnonneg')
      _ = f.grantAll ((i, n + asked i requests) ::
            (nodes.erase i).map fun j => (j, asked j requests)) := by
          rw [grantAll_cons_cons hl hs, granted_add hs (hl.climbs_path i) hn htotal, grantAll]
      _ = f.grantAll ((i, asked i ((i, n) :: requests)) ::
            (nodes.erase i).map fun j => (j, asked j ((i, n) :: requests))) := by
          rw [asked_cons_self, hothers]
      _ = f.grantAll (nodes.map fun j => (j, asked j ((i, n) :: requests))) :=
          (grantAll_perm (hfront _) hl hs (htotals _ hnonneg)).symm

/-- A granted request sets no limits. -/
theorem NoLimits.granted {f g : Forest} {path way : List Nat} (h : f.NoLimits way) (hc : f.Climbs path)
    {bytes : Int} (hg : f.granted path bytes = some g) : g.NoLimits way := by
  intro j hj b hb
  have hsame : (g.get? j).map (·.limit) = (f.get? j).map (·.limit) :=
    map_get?_charge (fun _ _ => rfl) hc (granted_eq_some.mp hg) j
  rw [hb, Option.map_some, eq_comm, Option.map_eq_some_iff] at hsame
  obtain ⟨a, ha, hlimit⟩ := hsame
  exact hlimit ▸ h j hj a ha

/-- Where no limit is set, requests are granted as they are without them. -/
theorem consumeAll_eq_ok_iff {requests : List (Nat × Int)} : ∀ {f g : Forest}, f.Linked → f.Sound →
    (∀ r ∈ requests, f.NoLimits (f.path r.1)) →
    (f.consumeAll requests = .ok g ↔ f.grantAll requests = some g) := by
  induction requests with
  | nil =>
    intro f g _ _ _
    simp [consumeAll, grantAll]
  | cons r requests ih =>
    intro f g hl hs hfree
    obtain ⟨i, n⟩ := r
    rw [consumeAll, consume, charge_of_noLimits (hfree (i, n) (by simp)), grantAll]
    cases hk : f.granted (f.path i) n with
    | none =>
      unfold granted at hk
      cases hc : f.charge (f.path i) n false with
      | error refusal => simp
      | ok k => simp [hc, Except.toOption] at hk
    | some k =>
      rw [granted_eq_some.mp hk, Option.bind_some]
      obtain ⟨hl', hs', hpath⟩ := kept_by_granted hl hs hk
      refine ih hl' hs' fun r hr => ?_
      rw [hpath]
      exact (hfree r (List.mem_cons_of_mem _ hr)).granted (hl.climbs_path i) hk

/-- After any run, requests that meet no limit are granted in any order and however they are cut, if they
are granted in one way, and all allocators end with the same figures. -/
theorem grants_depend_on_totals (calls : List AllocatorCall) {first second : List (Nat × Int)}
    (hfree : ∀ r ∈ first ++ second, (performAll {} calls).NoLimits ((performAll {} calls).path r.1))
    (hfirst : ∀ r ∈ first, 0 < r.2) (hsecond : ∀ r ∈ second, 0 < r.2)
    (htotals : ∀ i, asked i first = asked i second) {g : Forest}
    (h : (performAll {} calls).consumeAll first = .ok g) :
    (performAll {} calls).consumeAll second = .ok g := by
  have hl := linked_performAll calls
  have hs := sound_performAll calls
  have hnodup := List.nodup_dedup ((first ++ second).map (·.1))
  have hmem : ∀ r ∈ first ++ second, r.1 ∈ ((first ++ second).map (·.1)).dedup := fun r hr =>
    List.mem_dedup.mpr (List.mem_map_of_mem hr)
  have hone := grantAll_eq_totals hnodup (fun r hr => hmem r (List.mem_append_left _ hr))
    (fun r hr => (hfirst r hr).le) hl hs
  have hother := grantAll_eq_totals hnodup (fun r hr => hmem r (List.mem_append_right _ hr))
    (fun r hr => (hsecond r hr).le) hl hs
  rw [consumeAll_eq_ok_iff hl hs fun r hr => hfree r (List.mem_append_left _ hr)] at h
  rw [consumeAll_eq_ok_iff hl hs fun r hr => hfree r (List.mem_append_right _ hr)]
  rw [hother, ← h, hone]
  simp only [htotals]

/-- A run below a root with a ceiling, after which a scan has part of its reservation left and its
fragment too. -/
def sharedReservations : List AllocatorCall :=
  [.root "query" 500, .child 0 "fragment" 100 (-1) true, .child 1 "scan" 40 (-1) true,
    .child 1 "join" 0 200 true, .consume 2 30, .release 3 10]

/-- The fragment is asked first and the scan pays upwards, or the other way around. -/
theorem grants_depend_on_totals_sharedReservations :
    ∃ g, (performAll {} sharedReservations).consumeAll [(1, 60), (2, 50), (3, 70), (2, 20)] = .ok g ∧
      (performAll {} sharedReservations).consumeAll [(3, 70), (2, 70), (1, 10), (1, 50)] = .ok g := by
  have htotals : ∀ i, asked i [(1, 60), (2, 50), (3, 70), (2, 20)] =
      asked i [(3, 70), (2, 70), (1, 10), (1, 50)] := by
    intro i
    simp only [asked, List.filter_cons, List.filter_nil]
    split_ifs <;> simp_all
  exact ⟨_, rfl,
    grants_depend_on_totals sharedReservations (by decide) (by decide) (by decide) htotals rfl⟩

end Forest

end FragmentHost

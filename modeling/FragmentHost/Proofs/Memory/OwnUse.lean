import FragmentHost.Proofs.Memory.Calls
import Mathlib.Algebra.BigOperators.Group.Finset.Basic
import Mathlib.Algebra.Order.BigOperators.Group.Finset

/-!
# What an allocator uses itself

A part of what is in use at an allocator is held for its children: for each live child the larger of its
reservation and its use (`claim`). The rest is the allocator's own use, `ownUse`. Requests and returns
move bytes along a path of allocators, and at every allocator on the way both parts change; the own use
is what stays still:

* `ownUse_charge` — a granted request changes the own use of the allocator that was asked, by the bytes
  asked for, and of no other one, unless an addition stops at the largest word (`saturating`);
* `ownUse_discharge` — a return does the same with the opposite sign, at every open allocator whose own
  use covers it;
* `ownUse_shut` — closing an allocator leaves the own use of all others alone, and so does a new
  allocator (`ownUse_newChild`, `ownUse_newRoot`).

Nothing is assumed of the own use of the allocators in between: a child that was given more back than
it had takes a smaller part of its parent, but the parent accounts for exactly that part.
-/

namespace FragmentHost

namespace Allocator

/-- What allocator `p` holds for an allocator: the larger of its reservation and its use, if it is a
live child of `p`. -/
def heldBy (a : Allocator) (p : Nat) : Int :=
  if a.isLive ∧ a.above.head? = some p then Max.max a.initial a.current else 0

theorem heldBy_nonneg {a : Allocator} (h : a.Sound) (p : Nat) : 0 ≤ a.heldBy p := by
  have := h.initial_nonneg
  unfold heldBy
  split <;> omega

/-- Open allocators are live, since only closed ones are dropped. -/
theorem isLive_of_open {a : Allocator} (h : a.Sound) (hopen : a.closed = false) :
    a.isLive = true := by
  have hdropped : a.dropped = false := by
    by_contra hd
    rw [h.closed_of_dropped (by simpa using hd)] at hopen
    simp at hopen
  simp [isLive, hopen, hdropped]

theorem heldBy_of_live {a : Allocator} (hlive : a.isLive = true) (p : Nat) :
    a.heldBy p = if a.above.head? = some p then a.covered a.current else 0 := by
  simp [heldBy, hlive, covered_eq_max]

theorem heldBy_of_closed {a : Allocator} (hclosed : a.closed = true) (p : Nat) :
    a.heldBy p = 0 := by
  simp [heldBy, isLive, hclosed]

/-- A grant raises what the parent holds by the demand that it made of the parent. -/
theorem heldBy_grant {a : Allocator} (hlive : a.isLive = true) (bytes : Int) (p : Nat) :
    (a.grant bytes).heldBy p = a.heldBy p + if a.above.head? = some p then a.demand bytes else 0 := by
  have hlive' : (a.grant bytes).isLive = true := hlive
  rw [heldBy_of_live hlive', heldBy_of_live hlive]
  show (if a.above.head? = some p then a.covered (a.usageAfter bytes) else 0) = _
  split
  · unfold demand covered
    omega
  · omega

/-- A return lowers what the parent holds by the relief that it gave to the parent. -/
theorem heldBy_giveBack {a : Allocator} (hlive : a.isLive = true) (bytes : Int) (p : Nat) :
    (a.giveBack bytes).heldBy p =
      a.heldBy p - if a.above.head? = some p then a.relief bytes else 0 := by
  have hlive' : (a.giveBack bytes).isLive = true := hlive
  rw [heldBy_of_live hlive', heldBy_of_live hlive]
  show (if a.above.head? = some p then a.covered (a.usageWithout bytes) else 0) = _
  split
  · unfold relief covered
    omega
  · omega

end Allocator

namespace Forest

-- ---------------------------------------------------------------------------
-- Children and own use
-- ---------------------------------------------------------------------------

/-- The children of `p` that are neither closed nor dropped. -/
def liveChildren (f : Forest) (p : Nat) : Finset Nat :=
  (Finset.range f.nodes.length).filter fun i =>
    (f.get? i).any fun a => a.isLive && a.above.head? == some p

/-- What the parent of allocator `i` holds for it: the larger of its reservation and its use. -/
def claim (f : Forest) (i : Nat) : Int := (f.get? i).elim 0 fun a => Max.max a.initial a.current

/-- The bytes in use at `p` that are not held for a child. -/
def ownUse (f : Forest) (p : Nat) : Int := f.current p - ∑ c ∈ f.liveChildren p, f.claim c

/-- What `p` holds for allocator `i`. -/
def heldBy (f : Forest) (p i : Nat) : Int := (f.get? i).elim 0 (·.heldBy p)

theorem sum_liveChildren (f : Forest) (p : Nat) :
    ∑ c ∈ f.liveChildren p, f.claim c = ∑ i ∈ Finset.range f.nodes.length, f.heldBy p i := by
  rw [liveChildren, Finset.sum_filter]
  refine Finset.sum_congr rfl fun i _ => ?_
  unfold claim heldBy
  cases f.get? i with
  | none => rfl
  | some a => simp [Allocator.heldBy]

theorem current_of_get? {f : Forest} {i : Nat} {a : Allocator} (ha : f.get? i = some a) :
    f.current i = a.current := by
  simp [current, ha]

theorem current_nonneg {f : Forest} (hs : f.Sound) (i : Nat) : 0 ≤ f.current i := by
  unfold current
  cases ha : f.get? i with
  | none => exact le_rfl
  | some a => exact (hs i a ha).current_nonneg

/-- What is held for an allocator covers its use. -/
theorem current_le_claim (f : Forest) (i : Nat) : f.current i ≤ f.claim i := by
  unfold current claim
  cases f.get? i with
  | none => exact le_rfl
  | some a => exact le_max_right a.initial a.current

theorem claim_nonneg {f : Forest} (hs : f.Sound) (i : Nat) : 0 ≤ f.claim i :=
  (current_nonneg hs i).trans (current_le_claim f i)

theorem heldBy_nonneg {f : Forest} (hs : f.Sound) (p i : Nat) : 0 ≤ f.heldBy p i := by
  unfold heldBy
  cases ha : f.get? i with
  | none => exact le_rfl
  | some a => exact Allocator.heldBy_nonneg (hs i a ha) p

/-- The own use is at most what is in use. -/
theorem ownUse_le_current {f : Forest} (hs : f.Sound) (p : Nat) : f.ownUse p ≤ f.current p := by
  have : 0 ≤ ∑ i ∈ Finset.range f.nodes.length, f.heldBy p i :=
    Finset.sum_nonneg fun i _ => heldBy_nonneg hs p i
  rw [ownUse, sum_liveChildren]
  omega

/-- The own use of `p` changes by the change of its use, less the change of what it holds for the one
allocator that is changed. -/
theorem ownUse_modify {f : Forest} {i : Nat} {a : Allocator} (ha : f.get? i = some a)
    (change : Allocator → Allocator) (p : Nat) :
    (f.modify i change).ownUse p = f.ownUse p + (if i = p then (change a).current - a.current else 0) -
      ((change a).heldBy p - a.heldBy p) := by
  -- only the term of `i` is different in the sum
  have hmem : i ∈ Finset.range f.nodes.length := Finset.mem_range.mpr (lt_length_of_get? ha)
  have hrest : ∑ j ∈ (Finset.range f.nodes.length).erase i, (f.modify i change).heldBy p j =
      ∑ j ∈ (Finset.range f.nodes.length).erase i, f.heldBy p j := by
    refine Finset.sum_congr rfl fun j hj => ?_
    rw [heldBy, get?_modify_of_ne f (Finset.ne_of_mem_erase hj).symm, heldBy]
  have hself : (f.modify i change).heldBy p i = (change a).heldBy p := by simp [heldBy, ha]
  have hself' : f.heldBy p i = a.heldBy p := by simp [heldBy, ha]
  have hcurrent : (f.modify i change).current p =
      f.current p + if i = p then (change a).current - a.current else 0 := by
    by_cases hip : i = p
    · subst hip
      simp [current, ha]
    · simp [current, get?_modify_of_ne f hip, hip]
  rw [ownUse, ownUse, sum_liveChildren, sum_liveChildren, length_modify,
    ← Finset.add_sum_erase _ _ hmem, ← Finset.add_sum_erase _ (f.heldBy p) hmem, hrest, hself, hself',
    hcurrent]
  omega

/-- A change that leaves the use of an allocator and its hold on its parent alone. -/
theorem ownUse_modify_of_eq {f : Forest} {i p : Nat} {change : Allocator → Allocator}
    (h : ∀ a, f.get? i = some a → (change a).current = a.current ∧
      (change a).heldBy p = a.heldBy p) : (f.modify i change).ownUse p = f.ownUse p := by
  cases ha : f.get? i with
  | none => rw [modify_of_none ha]
  | some a =>
    obtain ⟨hcurrent, hheld⟩ := h a ha
    rw [ownUse_modify ha, hcurrent, hheld]
    split <;> omega

theorem ownUse_add (f : Forest) (a : Allocator) (p : Nat) :
    (f.add a).1.ownUse p =
      f.ownUse p + (if p = f.nodes.length then a.current else 0) - a.heldBy p := by
  have hrest : ∑ j ∈ Finset.range f.nodes.length, (f.add a).1.heldBy p j =
      ∑ j ∈ Finset.range f.nodes.length, f.heldBy p j := by
    refine Finset.sum_congr rfl fun j hj => ?_
    have := Finset.mem_range.mp hj
    rw [heldBy, get?_add, if_neg (by omega), heldBy]
  have hlast : (f.add a).1.heldBy p f.nodes.length = a.heldBy p := by simp [heldBy, get?_add]
  have hcurrent : (f.add a).1.current p =
      f.current p + if p = f.nodes.length then a.current else 0 := by
    by_cases hp : p = f.nodes.length
    · subst hp
      have hnone : f.get? f.nodes.length = none := get?_eq_none_iff.mpr le_rfl
      simp [current, get?_add, hnone]
    · simp [current, get?_add, hp]
  rw [ownUse, ownUse, sum_liveChildren, sum_liveChildren, length_add, Finset.sum_range_succ, hrest,
    hlast, hcurrent]
  omega

/-- Nothing is in use at an allocator that is not there, and nobody has it above. -/
theorem ownUse_of_absent {f : Forest} (hl : f.Linked) {p : Nat} (hp : f.get? p = none) :
    f.ownUse p = 0 := by
  have hsum : ∑ i ∈ Finset.range f.nodes.length, f.heldBy p i = 0 := by
    refine Finset.sum_eq_zero fun i _ => ?_
    unfold heldBy
    cases ha : f.get? i with
    | none => rfl
    | some a =>
      -- links go to allocators that are there
      have hnot : a.above.head? ≠ some p := by
        intro hhead
        have hc := hl.climbs_above ha
        cases habove : a.above with
        | nil => simp [habove] at hhead
        | cons q rest =>
          rw [habove, List.head?_cons, Option.some.injEq] at hhead
          rw [habove] at hc
          obtain ⟨⟨b, hb, -⟩, -⟩ := hc
          rw [hhead, hp] at hb
          simp at hb
      simp [Allocator.heldBy, hnot]
  have hcurrent : f.current p = 0 := by simp [current, hp]
  rw [ownUse, sum_liveChildren, hsum, hcurrent]
  rfl

-- ---------------------------------------------------------------------------
-- Requests
-- ---------------------------------------------------------------------------

/-- The allocators at which a request that climbs a path makes an addition that stops at the largest
word. -/
def saturating (f : Forest) : (path : List Nat) → (bytes : Int) → List Nat
  | [], _ => []
  | i :: rest, bytes =>
    if bytes ≤ 0 then []
    else match f.get? i with
      | none => []
      | some a =>
        (if Word.largest < a.current + bytes then [i] else []) ++ saturating f rest (a.demand bytes)

theorem mem_saturating_cons {f : Forest} {i : Nat} {rest : List Nat} {bytes : Int} {a : Allocator}
    (hpos : 0 < bytes) (ha : f.get? i = some a) (q : Nat) :
    q ∈ f.saturating (i :: rest) bytes ↔
      (q = i ∧ Word.largest < a.current + bytes) ∨ q ∈ f.saturating rest (a.demand bytes) := by
  rw [saturating, if_neg (by omega), ha]
  dsimp only
  rw [List.mem_append]
  by_cases hsat : Word.largest < a.current + bytes <;> simp [hsat]

theorem mem_path_of_mem_saturating {f : Forest} {q : Nat} :
    ∀ {path : List Nat} {bytes : Int}, q ∈ f.saturating path bytes → q ∈ path := by
  intro path
  induction path with
  | nil => exact fun h => h
  | cons i rest ih =>
    intro bytes h
    rw [saturating] at h
    split at h
    · simp at h
    · split at h
      · simp at h
      · rcases List.mem_append.mp h with h | h
        · split at h
          · simp_all
          · simp at h
        · exact List.mem_cons_of_mem _ (ih h)

theorem saturating_idle (f : Forest) {path : List Nat} {bytes : Int} (h : bytes ≤ 0 ∨ path = []) :
    f.saturating path bytes = [] := by
  cases path with
  | nil => rfl
  | cons i rest =>
    have hle : bytes ≤ 0 := by simpa using h
    rw [saturating, if_pos hle]

/-- The bytes that arrive at `p` itself when `bytes` are asked for or returned along a path. -/
def arriving (path : List Nat) (bytes : Int) (p : Nat) : Int :=
  if path.head? = some p then Max.max bytes 0 else 0

theorem arriving_cons (i : Nat) (rest : List Nat) (bytes : Int) (p : Nat) :
    arriving (i :: rest) bytes p = if i = p then Max.max bytes 0 else 0 := by
  simp [arriving]

theorem arriving_of_not_mem {path : List Nat} {p : Nat} (h : p ∉ path) (bytes : Int) :
    arriving path bytes p = 0 := by
  cases path with
  | nil => rfl
  | cons i rest =>
    rw [arriving_cons, if_neg]
    rintro rfl
    exact h (List.mem_cons_self ..)

theorem arriving_path {f : Forest} {i : Nat} {a : Allocator} (ha : f.get? i = some a)
    (bytes : Int) (p : Nat) : arriving (f.path i) bytes p = if i = p then max bytes 0 else 0 := by
  rw [path, ha]
  exact arriving_cons i a.above bytes p

/-- A granted request is own use of the allocator that was asked, and of no other one: what a parent
grants on the way is held for the child that needed it. -/
theorem ownUse_charge {f g : Forest} (hs : f.Sound) {path : List Nat} {bytes : Int} {limited : Bool}
    (hc : f.Climbs path) (h : f.charge path bytes limited = .ok g) {p : Nat}
    (hp : p ∉ f.saturating path bytes) :
    g.ownUse p = f.ownUse p + arriving path bytes p := by
  refine charge_induction (motive := fun path bytes _ g => p ∉ f.saturating path bytes →
    g.ownUse p = f.ownUse p + arriving path bytes p) ?_ ?_ hc h hp
  · intro path bytes _ hidle _
    rcases hidle with hle | rfl
    · unfold arriving
      split <;> omega
    · simp [arriving]
  · intro i rest bytes limited a g hpos hc ha habove hga hr _ ih hp
    rw [mem_saturating_cons hpos ha, not_or, not_and] at hp
    have hsound := hs i a ha
    have hlive := Allocator.isLive_of_open hsound (Allocator.of_refusal?_eq_none hr).1
    have hdemand := Allocator.demand_nonneg hsound (Int.le_of_lt hpos)
    -- the demand arrives at the parent, where it is held for `i` from now on
    rw [ownUse_modify hga, ih hp.2, Allocator.heldBy_grant hlive, habove]
    have hgrant : (a.grant bytes).current = a.usageAfter bytes := rfl
    have hafter := Allocator.usageAfter_eq hsound (Int.le_of_lt hpos)
    rw [hgrant, hafter]
    rw [arriving_cons]
    by_cases hip : i = p
    · -- the bytes that were asked for, which fit into a word
      subst hip
      have hroom := hp.1 rfl
      have hnot : rest.head? ≠ some i := fun hhead => hc.not_mem (List.mem_of_head? hhead)
      rw [arriving_of_not_mem hc.not_mem, if_pos rfl, if_pos rfl, if_neg hnot]
      omega
    · -- what arrives at the parent and what it holds for `i` cancel out
      rw [if_neg hip, if_neg hip, arriving]
      split <;> omega

/-- An addition that stopped left the largest word in use. -/
theorem current_of_mem_saturating {f g : Forest} (hs : f.Sound) {path : List Nat} {bytes : Int}
    {limited : Bool} (hc : f.Climbs path) (h : f.charge path bytes limited = .ok g) {q : Nat}
    (hq : q ∈ f.saturating path bytes) : g.current q = Word.largest := by
  refine charge_induction (motive := fun path bytes _ g => q ∈ f.saturating path bytes →
    g.current q = Word.largest) ?_ ?_ hc h hq
  · intro path bytes _ hidle hq
    rw [saturating_idle f hidle] at hq
    simp at hq
  · intro i rest bytes limited a g hpos hc ha _ hga hr _ ih hq
    rw [mem_saturating_cons hpos ha] at hq
    by_cases hqi : i = q
    · -- the last grant at `i` is this one: the path above does not come back to it
      subst hqi
      have hafter : ((g.modify i (·.grant bytes)).current i) = a.usageAfter bytes := by
        simp [current, hga, Allocator.grant]
      rw [hafter, Allocator.usageAfter_eq (hs i a ha) (Int.le_of_lt hpos)]
      rcases hq with ⟨-, hsat⟩ | hq
      · omega
      · exact absurd (mem_path_of_mem_saturating hq) hc.not_mem
    · have hq' : q ∈ f.saturating rest (a.demand bytes) := by
        rcases hq with ⟨rfl, -⟩ | hq
        · exact absurd rfl hqi
        · exact hq
      rw [current, get?_modify_of_ne g hqi]
      exact ih hq'

/-- An allocator with a ceiling below the largest word refuses instead of stopping there. -/
theorem not_mem_saturating {f g : Forest} (hs : f.Sound) {path : List Nat} {bytes : Int}
    {limited : Bool} (hc : f.Climbs path) (h : f.charge path bytes limited = .ok g) {q : Nat}
    {b : Allocator} (hb : f.get? q = some b) (hmax : 0 ≤ b.max) (hlt : b.max < Word.largest) :
    q ∉ f.saturating path bytes := by
  refine charge_induction (motive := fun path bytes _ _ => q ∉ f.saturating path bytes) ?_ ?_ hc h
  · intro path bytes _ hidle
    rw [saturating_idle f hidle]
    simp
  · intro i rest bytes limited a g hpos hc ha _ _ hr _ ih
    rw [mem_saturating_cons hpos ha]
    rintro (⟨rfl, hsat⟩ | hq)
    · rw [ha, Option.some.injEq] at hb
      subst hb
      -- past the largest word is past the ceiling
      have hfit := (Allocator.of_refusal?_eq_none hr).2 hmax
      rw [Allocator.usageAfter_eq (hs q a ha) (Int.le_of_lt hpos)] at hfit
      omega
    · exact ih hq

-- ---------------------------------------------------------------------------
-- Returns
-- ---------------------------------------------------------------------------

/-- A return lowers the own use of the allocator that gets its bytes back, and of no other one, as long
as that use covers them. What an open parent gets back on the way was held for the child, so that it is
there to be given back whatever became of the child. -/
theorem ownUse_discharge {f : Forest} (hs : f.Sound) {path : List Nat} (hc : f.Climbs path)
    (bytes : Int) {p : Nat} {b : Allocator} (hb : f.get? p = some b) (hopen : b.closed = false)
    (hcover : arriving path bytes p ≤ f.ownUse p) :
    (f.discharge path bytes).ownUse p = f.ownUse p - arriving path bytes p := by
  refine discharge_induction (motive := fun f path bytes g => f.Sound → f.Climbs path →
    ∀ b, f.get? p = some b → b.closed = false → arriving path bytes p ≤ f.ownUse p →
      g.ownUse p = f.ownUse p - arriving path bytes p) ?_ ?_ path f bytes hs hc b hb hopen hcover
  · intro f path bytes hidle _ _ b hb hopen _
    have : arriving path bytes p = 0 := by
      unfold arriving
      split
      · next hhead =>
        -- the return can only end at `p` for want of bytes, since `p` is open
        rcases hidle with hle | hclosed
        · omega
        · rw [hclosed p hhead b hb] at hopen
          simp at hopen
      · rfl
    omega
  · intro f i rest bytes a hpos ha hopen' ih hs hc b hb hopen hcover
    have hsound := hs i a ha
    have hlive := Allocator.isLive_of_open hsound hopen'
    have hrelief := a.relief_nonneg hsound.current_nonneg (Int.le_of_lt hpos)
    have hev : f.Evolves (f.modify i (·.giveBack bytes)) :=
      evolves_modify_of_get? ha (.giveBack hpos hopen')
    have habove : a.above = rest := by
      obtain ⟨⟨a', ha', habove⟩, -⟩ := hc
      rw [ha, Option.some.injEq] at ha'
      exact ha' ▸ habove
    -- before the parent gets its relief, it is own use of the parent
    have hmid : (f.modify i (·.giveBack bytes)).ownUse p =
        f.ownUse p - arriving (i :: rest) bytes p + arriving rest (a.relief bytes) p := by
      rw [ownUse_modify ha, Allocator.heldBy_giveBack hlive, habove, arriving_cons]
      have hback : (a.giveBack bytes).current = a.usageWithout bytes := rfl
      rw [hback]
      by_cases hip : i = p
      · -- its own use covers the return, so that nothing is cut off
        subst hip
        have hle := ownUse_le_current hs i
        rw [current_of_get? ha] at hle
        have hnot : rest.head? ≠ some i := fun hhead => hc.not_mem (List.mem_of_head? hhead)
        rw [arriving_cons, if_pos rfl] at hcover
        rw [arriving_of_not_mem hc.not_mem, if_pos rfl, if_pos rfl, if_neg hnot]
        unfold Allocator.usageWithout
        omega
      · rw [if_neg hip, if_neg hip, arriving]
        split <;> omega
    obtain ⟨b', hb', hbb'⟩ := hev.old p b hb
    have hopenb : b'.closed = false := by
      rw [get?_modify, hb] at hb'
      split at hb'
      · exact (Option.some.inj hb') ▸ hopen
      · exact (Option.some.inj hb') ▸ hopen
    have hleft := ih (hs.evolves hev) (Climbs.evolves hev hc.2.2) b' hb' hopenb (by omega)
    omega

/-- A return to allocator `i` is a loss of own use for `i` alone, wherever the own use of an open
allocator covers it. -/
theorem ownUse_release {f : Forest} (hl : f.Linked) (hs : f.Sound) {i p : Nat} {bytes : Int}
    (hopen : ∀ b, f.get? p = some b → b.closed = false)
    (hcover : (if i = p then Max.max bytes 0 else 0) ≤ f.ownUse p) :
    (f.release i bytes).ownUse p = f.ownUse p - if i = p then Max.max bytes 0 else 0 := by
  cases ha : f.get? i with
  | none =>
    -- nothing can be returned to an allocator that is not there
    have hsame : f.release i bytes = f := by rw [release, path, ha, discharge]
    rw [hsame]
    split
    · next hip =>
      rw [if_pos hip, ownUse_of_absent hl (hip ▸ ha)] at hcover
      omega
    · omega
  | some a =>
    have harrive := arriving_path ha bytes p
    cases hb : f.get? p with
    | none =>
      -- an allocator that is not there has no use before and after
      have hip : i ≠ p := by
        rintro rfl
        rw [ha] at hb
        simp at hb
      have hev : f.Evolves (f.release i bytes) := evolves_discharge f (f.path i) bytes
      have hlen : (f.release i bytes).nodes.length = f.nodes.length :=
        length_discharge f (f.path i) bytes
      have habsent : (f.release i bytes).get? p = none := by
        rw [get?_eq_none_iff, hlen, ← get?_eq_none_iff, hb]
      rw [ownUse_of_absent (hl.evolves_of_length hev hlen) habsent, ownUse_of_absent hl hb,
        if_neg hip]
      rfl
    | some b =>
      rw [release, ownUse_discharge hs (hl.climbs_path i) bytes hb (hopen b hb) (harrive ▸ hcover),
        harrive]

/-- Closing an allocator leaves the own use of every other open one alone. -/
theorem ownUse_shut {f : Forest} (hl : f.Linked) (hs : f.Sound) {i p : Nat} (hip : i ≠ p)
    {b : Allocator} (hb : f.get? p = some b) (hopen : b.closed = false) (hown : 0 ≤ f.ownUse p) :
    (f.shut i).1.ownUse p = f.ownUse p := by
  cases ha : f.get? i with
  | none => rw [shut_of_none ha]
  | some a =>
    by_cases hclosed : a.closed = true
    · rw [shut_of_closed ha hclosed]
    · have hopena : a.closed = false := by simpa using hclosed
      rw [shut_of_open ha hopena]
      have hsound := hs i a ha
      have hlive := Allocator.isLive_of_open hsound hopena
      have hcovered : 0 ≤ a.covered a.current := by
        have := hsound.initial_nonneg
        rw [Allocator.covered_eq_max]
        omega
      have hev : f.Evolves (f.modify i (·.shut)) := evolves_modify_of_get? ha (.shut hopena)
      -- what the parent held for `i` is own use of the parent until it is given back
      have hmid : (f.modify i (·.shut)).ownUse p =
          f.ownUse p + arriving a.above (a.covered a.current) p := by
        rw [ownUse_modify ha, if_neg hip, Allocator.heldBy_of_closed (a := a.shut) rfl,
          Allocator.heldBy_of_live hlive, arriving]
        split <;> omega
      have hb' : (f.modify i (·.shut)).get? p = some b := by rw [get?_modify_of_ne f hip, hb]
      have hpos : 0 ≤ arriving a.above (a.covered a.current) p := by
        unfold arriving
        split <;> omega
      rw [ownUse_discharge (hs.evolves hev) (Climbs.evolves hev (hl.climbs_above ha)) _ hb' hopen
        (by omega)]
      omega

/-- Closing an allocator leaves the own use alone wherever it leaves an allocator open. -/
theorem ownUse_shut_of_open_after {f : Forest} (hl : f.Linked) (hs : f.Sound) {i p : Nat}
    (hopen : ∀ b, (f.shut i).1.get? p = some b → b.closed = false) (hown : 0 ≤ f.ownUse p) :
    (f.shut i).1.ownUse p = f.ownUse p := by
  have hev := evolves_shut f i
  cases hb : f.get? p with
  | none =>
    have habsent : (f.shut i).1.get? p = none := by
      rw [get?_eq_none_iff, length_shut, ← get?_eq_none_iff, hb]
    rw [ownUse_of_absent (hl.evolves_of_length hev (length_shut f i)) habsent,
      ownUse_of_absent hl hb]
  | some b =>
    obtain ⟨b', hb', hbb'⟩ := hev.old p b hb
    have hopenb := hopen b' hb'
    refine ownUse_shut hl hs ?_ hb (hbb'.open_before hopenb) hown
    rintro rfl
    rw [closed_shut hb'] at hopenb
    simp at hopenb

/-- Dropping an allocator does what closing it does: the mark is on a closed allocator, for which
nothing is held any more. -/
theorem ownUse_drop {f : Forest} (hl : f.Linked) (hs : f.Sound) {i p : Nat}
    (hopen : ∀ b, (f.drop i).1.get? p = some b → b.closed = false) (hown : 0 ≤ f.ownUse p) :
    (f.drop i).1.ownUse p = f.ownUse p := by
  have hshut : ∀ b, (f.shut i).1.get? p = some b → b.closed = false := by
    intro b hb
    by_cases hip : i = p
    · exact hopen { b with dropped := true } (by simp [drop, hip, hip ▸ hb])
    · exact hopen b (by rw [drop, get?_modify_of_ne _ hip, hb])
  -- the mark itself
  have hmark : (f.drop i).1.ownUse p = (f.shut i).1.ownUse p := by
    rw [fst_drop]
    apply ownUse_modify_of_eq
    intro a ha
    have hclosed : a.closed = true := closed_shut ha
    have hclosed' : ({ a with dropped := true } : Allocator).closed = true := hclosed
    refine ⟨rfl, ?_⟩
    rw [Allocator.heldBy_of_closed hclosed, Allocator.heldBy_of_closed hclosed']
  rw [hmark, ownUse_shut_of_open_after hl hs hshut hown]

-- ---------------------------------------------------------------------------
-- New allocators
-- ---------------------------------------------------------------------------

theorem ownUse_enter (f : Forest) (parent child p : Nat) :
    (f.enter parent child).ownUse p = f.ownUse p :=
  ownUse_modify_of_eq fun _ _ => ⟨rfl, rfl⟩

/-- A new root has no parent, and no own use so far. -/
theorem ownUse_newRoot (f : Forest) (label : String) (max : Int) (p : Nat) :
    (f.newRoot label max).1.ownUse p = f.ownUse p := by
  rw [newRoot, ownUse_add]
  simp [Allocator.heldBy]

/-- The reservation of a new child is charged to the parent and held for the child from then on, so
that nobody's own use changes. -/
theorem ownUse_newChild {f g : Forest} (hl : f.Linked) (hs : f.Sound) {parent child : Nat}
    {label : String} {initial max : Int} {obeysLimits : Bool}
    (h : f.newChild parent label initial max obeysLimits = .ok (g, child)) {p : Nat}
    (hp : p ∉ f.saturating (f.path parent) initial) : g.ownUse p = f.ownUse p := by
  obtain ⟨hinitial, -, f', hf', -, rfl⟩ := newChild_ok h
  rw [ownUse_enter, ownUse_add, ownUse_charge hs (hl.climbs_path parent) hf' hp]
  simp only [newborn, Allocator.heldBy, Allocator.isLive, arriving]
  split <;> simp_all

end Forest

end FragmentHost

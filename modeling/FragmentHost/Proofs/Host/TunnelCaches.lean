import FragmentHost.Tunnel
import Mathlib.Data.Finset.Card
import Mathlib.Data.Finset.Image
import Mathlib.Data.List.Nodup

/-!
# Holders of tunnels above one pool

What a service was asked so far and what it answered is its dialogue (`Service.dialogue`). Contexts and bare
caches hold tunnels that come from a pool, and a look-up goes through one of them. The first look-up at a
place, which is an endpoint as one holder sees it, asks the pool; whoever comes later finds what is there.
So the first look-ups tell all that there is to know (`Kept`): they are the dialogue of the pool, and a
holder has those that went through it. That is so whatever the pool answers.

A pool is fresh if it opened a new tunnel at each request, to the endpoint that was asked for
(`TunnelSource.Fresh`). Above a fresh pool no two places share a tunnel, and each has one that leads to its
endpoint (`Kept.keepsTunnels`). A controller, which is asked at every look-up, is described by `Forwarded`.
-/

namespace FragmentHost

/-- Nodes are the same if address and ports are. Two nodes may differ in ports that their text leaves
out. -/
theorem Endpoint.eq_iff {a b : Endpoint} : a = b ↔ a.address = b.address ∧ a.userPort = b.userPort ∧
    a.controlPort = b.controlPort ∧ a.dataPort = b.dataPort := by
  cases a
  cases b
  simp

-- ---------------------------------------------------------------------------
-- Dialogues
-- ---------------------------------------------------------------------------

namespace Service

variable {α β : Type}

/-- Requests that come after `earlier` ones, with the answers. -/
def exchange (answers : Answers α β) (earlier : List α) : List α → List (α × β)
  | [] => []
  | r :: later => (r, answers earlier r) :: exchange answers (earlier ++ [r]) later

/-- The requests that a service got so far, with its answers. -/
def dialogue (s : Service α β) : List (α × β) := exchange s.answers [] s.asked

theorem exchange_concat (answers : Answers α β) (earlier requests : List α) (r : α) :
    exchange answers earlier (requests ++ [r]) =
      exchange answers earlier requests ++ [(r, answers (earlier ++ requests) r)] := by
  induction requests generalizing earlier with
  | nil => simp [exchange]
  | cons q later ih => simp [exchange, ih, List.append_assoc]

@[simp] theorem dialogue_ask (s : Service α β) (r : α) :
    (s.ask r).2.dialogue = s.dialogue ++ [(r, (s.ask r).1)] :=
  exchange_concat s.answers [] s.asked r

theorem map_fst_dialogue (s : Service α β) : s.dialogue.map (·.1) = s.asked := by
  have hexchange : ∀ earlier requests : List α,
      (exchange s.answers earlier requests).map (·.1) = requests := by
    intro earlier requests
    induction requests generalizing earlier with
    | nil => rfl
    | cons q later ih => simp [exchange, ih]
  exact hexchange [] s.asked

/-- The dialogue of the service with a number; there is none before the service is there. -/
def dialogueAt (services : List (Service α β)) (number : Nat) : List (α × β) :=
  services[number]?.elim [] dialogue

/-- Nobody has asked a service that is taken in. -/
theorem dialogueAt_append (services : List (Service α β)) (answers : Answers α β) :
    dialogueAt (services ++ [⟨answers, []⟩]) = dialogueAt services := by
  funext i
  rw [dialogueAt, dialogueAt]
  rcases Nat.lt_trichotomy i services.length with hlt | rfl | hgt
  · rw [List.getElem?_append_left hlt]
  · rw [List.getElem?_concat_length, List.getElem?_eq_none le_rfl]
    rfl
  · rw [List.getElem?_eq_none (by simp; omega), List.getElem?_eq_none hgt.le]

/-- A request goes into the dialogue of the service that was asked. -/
theorem dialogueAt_askAt {services after : List (Service α β)} {number : Nat} {r : α} {answer : β}
    (h : askAt services number r = some (answer, after)) : dialogueAt after =
      Function.update (dialogueAt services) number (dialogueAt services number ++ [(r, answer)]) := by
  obtain ⟨s, hs, hask⟩ := Option.map_eq_some_iff.mp h
  obtain ⟨rfl, rfl⟩ := Prod.mk.inj hask
  obtain ⟨hlt, -⟩ := List.getElem?_eq_some_iff.mp hs
  funext i
  by_cases hi : i = number
  · subst hi
    rw [Function.update_self, dialogueAt, dialogueAt, hs, List.getElem?_set_self hlt]
    exact dialogue_ask s r
  · rw [Function.update_of_ne hi, dialogueAt, dialogueAt, List.getElem?_set_ne (Ne.symm hi)]

end Service

/-- At each request so far the pool opened a new tunnel, to the endpoint that was asked for. -/
structure TunnelSource.Fresh (pool : TunnelSource) : Prop where
  endpoint : ∀ x ∈ pool.dialogue, x.2.endpoint = x.1
  new : (pool.dialogue.map (·.2.number)).Nodup

/-- A pool that numbers its tunnels is fresh, whatever it was asked. -/
theorem TunnelSource.fresh_of_numbered {pool : TunnelSource} (h : pool.answers = Tunnel.numbered) :
    pool.Fresh := by
  have hnumbers : ∀ earlier requests : List Endpoint,
      (Service.exchange Tunnel.numbered earlier requests).map (·.2.number) =
        List.range' (earlier.length + 1) requests.length := by
    intro earlier requests
    induction requests generalizing earlier with
    | nil => rfl
    | cons e later ih => simp [Service.exchange, ih, Tunnel.numbered, List.range'_succ]
  have hendpoints : ∀ earlier requests : List Endpoint,
      ∀ x ∈ Service.exchange Tunnel.numbered earlier requests, x.2.endpoint = x.1 := by
    intro earlier requests
    induction requests generalizing earlier with
    | nil => simp [Service.exchange]
    | cons e later ih =>
      intro x hx
      rcases List.mem_cons.mp hx with rfl | hx
      · rfl
      · exact ih _ x hx
  constructor
  case endpoint =>
    rw [Service.dialogue, h]
    exact hendpoints [] pool.asked
  case new =>
    rw [Service.dialogue, h, hnumbers]
    exact List.nodup_range'

-- ---------------------------------------------------------------------------
-- Look-ups
-- ---------------------------------------------------------------------------

/-- Who holds tunnels: a context, or a cache by itself. -/
inductive TunnelHolder where
  | context (number : Nat)
  | cache (number : Nat)
  deriving DecidableEq, Repr

/-- A look-up: the holder through which it went, the endpoint asked for and the answer. -/
structure TunnelLookup where
  through : TunnelHolder
  target : Endpoint
  tunnel : Tunnel
  deriving DecidableEq, Repr

namespace TunnelLookup

def entry (l : TunnelLookup) : Endpoint × Tunnel := (l.target, l.tunnel)

def place (l : TunnelLookup) : TunnelHolder × Endpoint := (l.through, l.target)

/-- The endpoints that were looked up through a holder. -/
def targets (lookups : List TunnelLookup) (x : TunnelHolder) : Finset Endpoint :=
  ((lookups.filter (·.through = x)).map (·.target)).toFinset

/-- The holders with the endpoints that were looked up through them. -/
def places (lookups : List TunnelLookup) : Finset (TunnelHolder × Endpoint) :=
  (lookups.map place).toFinset

end TunnelLookup

open TunnelLookup (entry place targets places)

/-- What holds of holders and of their pool after some look-ups, the first ones at their places being
`first`. -/
structure Kept (first lookups : List TunnelLookup) (caches : TunnelHolder → TunnelCache)
    (dialogue : List (Endpoint × Tunnel)) : Prop where
  mem_iff : ∀ l, l ∈ lookups ↔ l ∈ first
  nodup : (first.map place).Nodup
  cache_eq : ∀ x, caches x = (first.filter (·.through = x)).map entry
  dialogue_eq : dialogue = first.map entry

namespace Kept

variable {first lookups : List TunnelLookup} {caches : TunnelHolder → TunnelCache}
  {dialogue : List (Endpoint × Tunnel)} {x : TunnelHolder} {e : Endpoint} {t : Tunnel}

theorem empty : Kept [] [] (fun _ => []) [] := by
  constructor <;> simp

/-- A place was looked up for the first time once. -/
theorem eq_of_place (h : Kept first lookups caches dialogue) {l k : TunnelLookup} (hl : l ∈ first)
    (hk : k ∈ first) (hplace : l.place = k.place) : l = k :=
  List.inj_on_of_nodup_map h.nodup hl hk hplace

/-- The endpoints that a holder has tunnels to are different ones. -/
theorem nodup_targets (h : Kept first lookups caches dialogue) (x : TunnelHolder) :
    ((first.filter (·.through = x)).map (·.target)).Nodup := by
  refine List.Nodup.map_on ?_ (h.nodup.of_map.filter _)
  intro l hl k hk htarget
  obtain ⟨hl, hlx⟩ := List.mem_filter.mp hl
  obtain ⟨hk, hkx⟩ := List.mem_filter.mp hk
  have hthrough : l.through = k.through := (of_decide_eq_true hlx).trans (of_decide_eq_true hkx).symm
  exact h.eq_of_place hl hk (Prod.ext hthrough htarget)

/-- A holder finds what was looked up through it. -/
theorem lookup_iff (h : Kept first lookups caches dialogue) :
    (caches x).lookup e = some t ↔ ⟨x, e, t⟩ ∈ first := by
  rw [h.cache_eq, List.lookup_eq_some_iff]
  constructor
  · rintro ⟨before, after, hsplit, -⟩
    have hmem : (e, t) ∈ (first.filter (·.through = x)).map entry := by simp [hsplit]
    obtain ⟨l, hfiltered, hentry⟩ := List.mem_map.mp hmem
    obtain ⟨hl, hthrough⟩ := List.mem_filter.mp hfiltered
    obtain ⟨rfl, rfl⟩ := Prod.mk.inj hentry
    obtain rfl : l.through = x := of_decide_eq_true hthrough
    exact hl
  · intro hl
    have hl' : (⟨x, e, t⟩ : TunnelLookup) ∈ first.filter (·.through = x) :=
      List.mem_filter.mpr ⟨hl, decide_eq_true rfl⟩
    obtain ⟨before, after, hsplit⟩ := List.append_of_mem hl'
    refine ⟨before.map entry, after.map entry, by rw [hsplit, List.map_append]; rfl, ?_⟩
    -- the endpoint comes only once
    have hnodup := h.nodup_targets x
    rw [hsplit, List.map_append, List.nodup_append] at hnodup
    intro p hp
    obtain ⟨k, hk, rfl⟩ := List.mem_map.mp hp
    have hne : k.target ≠ e := hnodup.2.2 _ (List.mem_map_of_mem hk) _ (List.mem_cons_self ..)
    exact bne_iff_ne.mpr hne.symm

/-- A look-up that finds something leaves everything as it is. -/
theorem hit (h : Kept first lookups caches dialogue) (hfound : (caches x).lookup e = some t) :
    Kept first (lookups ++ [⟨x, e, t⟩]) caches dialogue := by
  refine { h with mem_iff := fun l => ?_ }
  have hfirst := h.lookup_iff.mp hfound
  rw [List.mem_append, h.mem_iff, List.mem_singleton]
  exact or_iff_left_of_imp fun hl => hl ▸ hfirst

/-- A look-up that finds nothing asks the pool, and the holder keeps the answer. -/
theorem miss (h : Kept first lookups caches dialogue) (hmiss : (caches x).lookup e = none) (t : Tunnel) :
    Kept (first ++ [⟨x, e, t⟩]) (lookups ++ [⟨x, e, t⟩])
      (Function.update caches x (caches x ++ [(e, t)])) (dialogue ++ [(e, t)]) := by
  constructor
  case mem_iff =>
    intro l
    rw [List.mem_append, List.mem_append, h.mem_iff]
  case nodup =>
    rw [List.map_append, List.nodup_append]
    refine ⟨h.nodup, by simp, fun p hp q hq hpq => ?_⟩
    obtain ⟨l, hl, rfl⟩ := List.mem_map.mp hp
    rw [List.map_singleton, List.mem_singleton] at hq
    obtain ⟨rfl, rfl⟩ := Prod.mk.inj (hpq.trans hq)
    -- what was looked up there would be found
    have hfound := h.lookup_iff.mpr hl
    rw [hmiss] at hfound
    cases hfound
  case cache_eq =>
    intro y
    rw [List.filter_append, List.map_append]
    by_cases hy : y = x
    · subst hy
      rw [Function.update_self, h.cache_eq]
      simp [entry]
    · rw [Function.update_of_ne hy, h.cache_eq]
      simp [Ne.symm hy]
  case dialogue_eq =>
    rw [List.map_append, h.dialogue_eq]
    rfl

end Kept

/-- What holds of all look-ups through holders above one pool. -/
structure KeepsTunnels (lookups : List TunnelLookup) (caches : TunnelHolder → TunnelCache)
    (pool : TunnelSource) : Prop where
  /-- Nothing is lost or replaced. -/
  stays : ∀ x e t, (caches x).lookup e = some t ↔ ⟨x, e, t⟩ ∈ lookups
  endpoint : ∀ l ∈ lookups, l.tunnel.endpoint = l.target
  /-- Through one holder, two look-ups have one tunnel if they agree in all parts of the endpoint. -/
  same : ∀ l ∈ lookups, ∀ k ∈ lookups, l.through = k.through →
    (l.tunnel = k.tunnel ↔ l.target.address = k.target.address ∧
      l.target.userPort = k.target.userPort ∧ l.target.controlPort = k.target.controlPort ∧
      l.target.dataPort = k.target.dataPort)
  /-- Each place has a tunnel of its own. -/
  apart : ∀ l ∈ lookups, ∀ k ∈ lookups, l.tunnel.number = k.tunnel.number →
    l.through = k.through ∧ l.target = k.target
  strangers : ∀ l ∈ lookups, ∀ k ∈ lookups, l.through ≠ k.through → l.tunnel.number ≠ k.tunnel.number
  length : ∀ x, (caches x).length = (targets lookups x).card
  /-- The pool was asked once for each place and for nothing else. -/
  asked : ∃ order : List (TunnelHolder × Endpoint), order.Nodup ∧ order.toFinset = places lookups ∧
    pool.asked = order.map (·.2)
  requests : pool.asked.length = (places lookups).card

namespace Kept

variable {first lookups : List TunnelLookup} {caches : TunnelHolder → TunnelCache} {pool : TunnelSource}

/-- Above a fresh pool a tunnel belongs to one look-up. -/
theorem eq_of_number (h : Kept first lookups caches pool.dialogue) (hfresh : pool.Fresh)
    {l k : TunnelLookup} (hl : l ∈ first) (hk : k ∈ first) (hnumber : l.tunnel.number = k.tunnel.number) :
    l = k := by
  have hnew := hfresh.new
  rw [h.dialogue_eq, List.map_map] at hnew
  exact List.inj_on_of_nodup_map hnew hl hk hnumber

/-- The first look-ups are at the places of all. -/
theorem toFinset_place {dialogue : List (Endpoint × Tunnel)} (h : Kept first lookups caches dialogue) :
    (first.map place).toFinset = places lookups := by
  ext p
  simp [places, h.mem_iff]

theorem keepsTunnels (h : Kept first lookups caches pool.dialogue) (hfresh : pool.Fresh) :
    KeepsTunnels lookups caches pool := by
  have hasked : pool.asked = (first.map place).map (·.2) := by
    rw [← Service.map_fst_dialogue, h.dialogue_eq, List.map_map, List.map_map]
    rfl
  constructor
  case stays =>
    intro x e t
    rw [h.lookup_iff, h.mem_iff]
  case endpoint =>
    intro l hl
    refine hfresh.endpoint l.entry ?_
    rw [h.dialogue_eq]
    exact List.mem_map_of_mem ((h.mem_iff l).mp hl)
  case same =>
    intro l hl k hk hthrough
    rw [h.mem_iff] at hl hk
    rw [← Endpoint.eq_iff]
    constructor
    · exact fun htunnel => congrArg _ (h.eq_of_number hfresh hl hk (congrArg Tunnel.number htunnel))
    · exact fun htarget => congrArg _ (h.eq_of_place hl hk (Prod.ext hthrough htarget))
  case apart =>
    intro l hl k hk hnumber
    rw [h.mem_iff] at hl hk
    obtain rfl := h.eq_of_number hfresh hl hk hnumber
    exact ⟨rfl, rfl⟩
  case strangers =>
    intro l hl k hk hthrough hnumber
    rw [h.mem_iff] at hl hk
    exact hthrough (congrArg _ (h.eq_of_number hfresh hl hk hnumber))
  case length =>
    intro x
    have htargets : targets lookups x = ((first.filter (·.through = x)).map (·.target)).toFinset := by
      ext e
      simp [targets, h.mem_iff]
    rw [htargets, List.toFinset_card_of_nodup (h.nodup_targets x), h.cache_eq, List.length_map,
      List.length_map]
  case asked => exact ⟨first.map place, h.nodup, h.toFinset_place, hasked⟩
  case requests =>
    rw [hasked, List.length_map, ← List.toFinset_card_of_nodup h.nodup, h.toFinset_place]

end Kept

-- ---------------------------------------------------------------------------
-- Control tunnels
-- ---------------------------------------------------------------------------

/-- What holds of a controller that is asked at every look-up: its answers are what was looked up. -/
structure Forwarded (lookups : List TunnelLookup) (controller : TunnelSource) : Prop where
  answers : controller.dialogue = lookups.map entry
  requests : controller.asked.length = lookups.length
  /-- Tunnels lead where they should if those of the controller do. -/
  endpoint : (∀ x ∈ controller.dialogue, x.2.endpoint = x.1) → ∀ l ∈ lookups, l.tunnel.endpoint = l.target
  /-- Each look-up has a tunnel of its own if the controller opens new ones. -/
  numbers : (controller.dialogue.map (·.2.number)).Nodup → (lookups.map (·.tunnel.number)).Nodup

theorem forwarded_of_dialogue {lookups : List TunnelLookup} {controller : TunnelSource}
    (h : controller.dialogue = lookups.map entry) : Forwarded lookups controller := by
  constructor
  case answers => exact h
  case requests => rw [← Service.map_fst_dialogue, h, List.length_map, List.length_map]
  case endpoint =>
    intro hendpoint l hl
    refine hendpoint l.entry ?_
    rw [h]
    exact List.mem_map_of_mem hl
  case numbers =>
    intro hnew
    rw [h, List.map_map] at hnew
    exact hnew

end FragmentHost

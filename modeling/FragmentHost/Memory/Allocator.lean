import FragmentHost.Failure
import FragmentHost.Text.Quoted
import FragmentHost.Text.Record
import FragmentHost.Word

/-!
# Allocators

An allocator grants bytes. It has a reservation that its parent holds for it from the start, a ceiling,
and a limit that a coordinator may set later. Use within the reservation costs the parent nothing; the
part above it, the excess, is charged to the parent as well. This module holds what one allocator does
by itself; `FragmentHost.Memory.Forest` holds the trees.
-/

namespace FragmentHost

/-- The bookkeeping of one allocator. -/
structure Allocator where
  /-- The name of the owner. -/
  label : String
  /-- The allocators above, the nearest first. -/
  above : List Nat
  /-- The bytes that the parent holds from the start. -/
  initial : Int
  /-- The most bytes that may be in use; a negative number sets no bound. -/
  max : Int
  /-- Requests that pass through are subject to the limits of the allocators above. -/
  obeysLimits : Bool
  /-- The limit set by the coordinator; a negative number sets no bound. -/
  limit : Int := -1
  /-- The bytes in use. -/
  current : Int := 0
  /-- The most bytes that were ever in use. -/
  peak : Int := 0
  /-- The total of the grants, as a word that wraps around. -/
  allocated : Int := 0
  /-- The total of the returns, as a word that wraps around. -/
  deallocated : Int := 0
  closed : Bool := false
  /-- Nobody holds the allocator any more. -/
  dropped : Bool := false
  /-- The children on record in order of creation. -/
  entries : List Nat := []
  deriving DecidableEq, Repr, Inhabited

namespace Allocator

/-- The part of `usage` that the reservation does not cover. -/
def excess (a : Allocator) (usage : Int) : Int := Max.max (usage - a.initial) 0

/-- The bytes that the parent holds while `usage` bytes are in use. -/
def covered (a : Allocator) (usage : Int) : Int := a.excess usage + a.initial

/-- Usage after a grant of `bytes`. -/
def usageAfter (a : Allocator) (bytes : Int) : Int := Word.saturatingAdd a.current bytes

/-- What the parent has to grant before `bytes` can be granted here. -/
def demand (a : Allocator) (bytes : Int) : Int :=
  a.excess (a.usageAfter bytes) - a.excess a.current

/-- Usage after a return of `bytes`, of which there are never more than were in use. -/
def usageWithout (a : Allocator) (bytes : Int) : Int := Max.max (a.current - bytes) 0

/-- What the parent gets back when `bytes` are returned here. -/
def relief (a : Allocator) (bytes : Int) : Int :=
  a.excess a.current - a.excess (a.usageWithout bytes)

/-- The name of the allocator in refusals. -/
def title (a : Allocator) : String := "allocator " ++ a.label

/-- A refusal of `bytes` on account of a bound. -/
def shortage (a : Allocator) (bytes : Int) (bound : String) (value : Int) : Failure :=
  .outOfMemory (a.title ++ " cannot grant " ++ toString bytes ++ " bytes: " ++ toString a.current ++
    " in use, " ++ bound ++ " " ++ toString value)

/-- The refusal of `bytes` by this allocator alone: it is closed, its ceiling would be passed, or its
limit would be and the request is subject to it. -/
def refusal? (a : Allocator) (bytes : Int) (limited : Bool) : Option Failure :=
  if a.closed then some (.closed a.title)
  else if 0 ≤ a.max ∧ a.max < a.usageAfter bytes then
    some (a.shortage bytes "max reservation" a.max)
  else if limited ∧ 0 ≤ a.limit ∧ a.limit < a.usageAfter bytes then
    some (a.shortage bytes "fragment limit" a.limit)
  else none

/-- The allocator with `bytes` granted. -/
def grant (a : Allocator) (bytes : Int) : Allocator :=
  { a with
    current := a.usageAfter bytes
    peak := Max.max a.peak (a.usageAfter bytes)
    allocated := Word.wrap (a.allocated + bytes) }

/-- The allocator with `bytes` returned. -/
def giveBack (a : Allocator) (bytes : Int) : Allocator :=
  { a with
    current := a.usageWithout bytes
    deallocated := Word.wrap (a.deallocated + (a.current - a.usageWithout bytes)) }

/-- The allocator closed, with nothing in use. -/
def shut (a : Allocator) : Allocator := { a with closed := true, current := 0 }

/-- The allocator is neither closed nor dropped. -/
def isLive (a : Allocator) : Bool := !a.closed && !a.dropped

/-- The one-line description. -/
def describe (a : Allocator) : String :=
  Record.describe "MemTracker"
    [("label", Quoted.ofString a.label), ("current", toString a.current),
     ("peak", toString a.peak), ("max_reservation", toString a.max),
     ("fragment_limit", toString a.limit)]

theorem excess_nonneg (a : Allocator) (u : Int) : 0 ≤ a.excess u := by
  simp only [excess]; omega

/-- The parent holds the larger of the reservation and the use. -/
theorem covered_eq_max (a : Allocator) (u : Int) : a.covered u = Max.max a.initial u := by
  simp only [covered, excess]; omega

theorem excess_mono (a : Allocator) {u v : Int} (h : u ≤ v) : a.excess u ≤ a.excess v := by
  simp only [excess]; omega

end Allocator

end FragmentHost

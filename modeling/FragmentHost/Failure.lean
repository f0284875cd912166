/-!
# Failures

What can go wrong on a node. Each kind has its own wording, `Failure.message`. A failure that was
followed by others carries them along: it stays the primary one and the others are suppressed.
-/

namespace FragmentHost

/-- A failure and its cause. -/
inductive Failure where
  /-- Something could not be set up. -/
  | setup (text : String)
  /-- An allocator refused a request. -/
  | outOfMemory (text : String)
  /-- The operation is not available here. -/
  | unsupported (text : String)
  /-- An operator failed while it ran. -/
  | execution (text : String)
  /-- A resource could not be given back. -/
  | release (resource text : String)
  /-- An allocator was closed while bytes were still granted. -/
  | memoryLeak (label : String) (bytes : Int)
  /-- The object was closed before. -/
  | closed (what : String)
  /-- An argument that no state could accept. -/
  | invalidArgument (text : String)
  /-- A failure with the later ones attached. -/
  | combined (first : Failure) (later : List Failure)
  deriving Repr, Inhabited

namespace Failure

/-- The wording of a failure; attached ones are only counted. -/
def message : Failure → String
  | setup text => "setup failure: " ++ text
  | outOfMemory text => "out of memory: " ++ text
  | unsupported text => "unsupported operation: " ++ text
  | execution text => "execution failure: " ++ text
  | release resource text => "failed to release " ++ resource ++ ": " ++ text
  | memoryLeak label bytes =>
    "memory leak in allocator " ++ label ++ ": " ++ toString bytes ++ " bytes outstanding"
  | closed what => what ++ " is closed"
  | invalidArgument text => "invalid argument: " ++ text
  | combined first later =>
    first.message ++ " (" ++ toString later.length ++ " suppressed)"

/-- Attaches `later` to `first`; with nothing to attach `first` stays plain. -/
def withSuppressed (first : Failure) (later : List Failure) : Failure :=
  if later.isEmpty then first else combined first later

/-- The failure to which others are attached; a plain one is its own. One level is unwrapped. -/
def primary : Failure → Failure
  | combined first _ => first
  | f => f

/-- The failures attached at the outermost level. -/
def suppressed : Failure → List Failure
  | combined _ later => later
  | _ => []

/-- The primary failure is a refused request for memory. -/
def isOutOfMemory (f : Failure) : Bool :=
  match f.primary with
  | outOfMemory _ => true
  | _ => false

mutual

/-- Same kind, same parts. -/
def same : Failure → Failure → Bool
  | setup a, setup b => a == b
  | outOfMemory a, outOfMemory b => a == b
  | unsupported a, unsupported b => a == b
  | execution a, execution b => a == b
  | release r a, release s b => r == s && a == b
  | memoryLeak l m, memoryLeak k n => l == k && m == n
  | closed a, closed b => a == b
  | invalidArgument a, invalidArgument b => a == b
  | combined f fs, combined g gs => same f g && sameAll fs gs
  | _, _ => false

/-- Same length, and the same failures place by place. -/
def sameAll : List Failure → List Failure → Bool
  | [], [] => true
  | f :: fs, g :: gs => same f g && sameAll fs gs
  | _, _ => false

end

mutual

theorem eq_of_same : ∀ {f g : Failure}, same f g = true → f = g
  | setup _, g, h => by cases g <;> simp_all [same]
  | outOfMemory _, g, h => by cases g <;> simp_all [same]
  | unsupported _, g, h => by cases g <;> simp_all [same]
  | execution _, g, h => by cases g <;> simp_all [same]
  | release _ _, g, h => by cases g <;> simp_all [same]
  | memoryLeak _ _, g, h => by cases g <;> simp_all [same]
  | closed _, g, h => by cases g <;> simp_all [same]
  | invalidArgument _, g, h => by cases g <;> simp_all [same]
  | combined f fs, g, h => by
    cases g with
    | combined g gs =>
      simp only [same, Bool.and_eq_true] at h
      rw [eq_of_same h.1, eq_of_sameAll h.2]
    | _ => simp [same] at h

theorem eq_of_sameAll : ∀ {fs gs : List Failure}, sameAll fs gs = true → fs = gs
  | [], gs, h => by cases gs <;> simp_all [sameAll]
  | f :: fs, gs, h => by
    cases gs with
    | nil => simp [sameAll] at h
    | cons g gs =>
      simp only [sameAll, Bool.and_eq_true] at h
      rw [eq_of_same h.1, eq_of_sameAll h.2]

end

mutual

theorem same_refl : ∀ f : Failure, same f f = true
  | setup _ => by simp [same]
  | outOfMemory _ => by simp [same]
  | unsupported _ => by simp [same]
  | execution _ => by simp [same]
  | release _ _ => by simp [same]
  | memoryLeak _ _ => by simp [same]
  | closed _ => by simp [same]
  | invalidArgument _ => by simp [same]
  | combined f fs => by simp [same, same_refl f, sameAll_refl fs]

theorem sameAll_refl : ∀ fs : List Failure, sameAll fs fs = true
  | [] => by simp [sameAll]
  | f :: fs => by simp [sameAll, same_refl f, sameAll_refl fs]

end

/-- Equality of failures is decided part by part. -/
instance : DecidableEq Failure := fun f g =>
  if h : same f g = true then isTrue (eq_of_same h)
  else isFalse fun e => h (e ▸ same_refl f)

@[simp] theorem withSuppressed_nil (f : Failure) : f.withSuppressed [] = f := rfl

@[simp] theorem withSuppressed_cons (f g : Failure) (gs : List Failure) :
    f.withSuppressed (g :: gs) = combined f (g :: gs) := rfl

end Failure

end FragmentHost

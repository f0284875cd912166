import FragmentHost.Options.Plan
import FragmentHost.Session.Names

/-!
# Commands on options
-/

namespace FragmentHost

/-- What can be asked of option managers. -/
inductive OptionCommand where
  /-- The manager of a node, without options. -/
  | makeNode (new : String)
  /-- The options of a plan on top of a manager. -/
  | makeOverrides (new manager : String) (plan : Option String)
  | set (manager : String) (option : PlanOption)
  /-- Sets the options of a plan, one after the other. -/
  | setAll (manager : String) (plan : Option String)
  | get (manager name : String)
  deriving DecidableEq, Repr

namespace Session

/-- Names an option manager. -/
def nameManager (s : Session) (name : String) (m : ManagerName) : Session :=
  s.naming fun n => { n with managers := n.managers.put name m }

/-- Goes on with the manager of a node; there is no other that could be set. -/
def findNode (s : Session) (name : String) (next : Nat → Outcome) : Outcome :=
  s.find (·.managers) name fun m =>
    match m with
    | .node number => next number
    | .overrides _ => s.refuse (.unknownName name)

/-- Carries out a command on option managers. -/
def onOptions (s : Session) : OptionCommand → Outcome
  | .makeNode new =>
    let (h, number) := s.host.addOptions
    ((s.on h).nameManager new (.node number)).done
  | .makeOverrides new manager plan =>
    s.find (·.managers) manager fun m =>
      s.attempt (PlanOption.ofPlan plan) fun options =>
        let overrides := Overrides.ofList options
        (s.nameManager new (.overrides (m.stack.push overrides))).answer
          (.amount (some overrides.length))
  | .set manager option =>
    s.findNode manager fun number => (s.on (s.host.setOption number option)).done
  | .setAll manager plan =>
    s.findNode manager fun number =>
      s.attempt (PlanOption.ofPlan plan) fun options =>
        (s.on (options.foldl (fun h o => h.setOption number o) s.host)).done
  | .get manager name =>
    s.find (·.managers) manager fun m =>
      s.answer (.option ⟨s.host.option? m.stack name⟩)

end Session

end FragmentHost

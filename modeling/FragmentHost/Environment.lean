import FragmentHost.Identity
import FragmentHost.Options.Manager
import FragmentHost.SchemaTree
import FragmentHost.Service
import FragmentHost.Tunnel

/-!
# Environments

What a node provides to all its fragments: the root allocator, the metrics, the options, and the services
for tunnels and for the catalog. Services are made elsewhere, and several environments may have the same.
-/

namespace FragmentHost

/-- What is known of the client who submitted a query. -/
structure UserSession where
  user : String
  defaultSchema : Option String := none
  properties : List (String × String) := []
  deriving DecidableEq, Repr, Inhabited

/-- A service that registers the schemas which a session can see, or fails. -/
abbrev SchemaFactory := Service UserSession (Except Failure SchemaTree)

/-- A catalog that is the same for all sessions, and the failure that it reports after it registered its
tables. -/
structure Catalog where
  /-- The tables, each with the path of its schema. -/
  tables : List (List String × String) := []
  failure : Option Failure := none
  deriving DecidableEq, Repr, Inhabited

namespace Catalog

/-- The tables, and a schema for the user of the session. -/
def tree (c : Catalog) (user : String) : SchemaTree :=
  (c.tables.foldl (fun t entry => t.add entry.1 (some entry.2)) SchemaTree.root).add [user] none

/-- What the catalog answers as a service. -/
def schemas (c : Catalog) : Answers UserSession (Except Failure SchemaTree) := fun _ session =>
  match c.failure with
  | some f => .error f
  | none => .ok (c.tree session.user)

end Catalog

/-- The services of an environment, by their numbers. -/
structure Services where
  pool : Nat
  controller : Nat
  factory : Nat
  deriving DecidableEq, Repr, Inhabited

/-- The environment of the fragments of a node. -/
structure Environment where
  /-- The number of the root allocator. -/
  root : Nat
  endpoint : Endpoint
  /-- The number of the profile with the metrics. -/
  metrics : Nat
  options : OptionStack
  services : Services
  deriving DecidableEq, Repr

namespace Environment

/-- The name of the metrics. -/
def metricsName : String := "Metrics"

/-- The name of a root allocator made from the configuration. -/
def rootLabel : String := "process"

/-- The metric that counts the fragments started. -/
def started : String := "FragmentsStarted"

/-- The metric that counts the fragments that failed. -/
def failed : String := "FragmentsFailed"

/-- The metric that counts the fragments that were canceled. -/
def canceled : String := "FragmentsCanceled"

end Environment

end FragmentHost

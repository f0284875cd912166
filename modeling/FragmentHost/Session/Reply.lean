import FragmentHost.Host.Basic

/-!
# Replies

What a command answers: a value, or the reason for which it was refused.
-/

namespace FragmentHost

/-- Why a command was refused. -/
inductive Refusal where
  /-- There is no object of that name. -/
  | unknownName (name : String)
  /-- There is no child at that place. -/
  | noSuchChild
  /-- The operation failed. -/
  | failure (f : Failure)
  /-- There is no configuration. -/
  | config (e : ConfigError)
  deriving DecidableEq, Repr, Inhabited

/-- What is known of an allocator. -/
structure AllocatorReport where
  allocator : Allocator
  /-- The labels of the live children. -/
  children : List String
  /-- The name shows the totals as well. -/
  detailed : Bool
  deriving DecidableEq, Repr, Inhabited

/-- What is known of a context. -/
structure ContextReport where
  context : Context
  /-- The node that the context is on. -/
  identity : Endpoint
  memoryUsed : Int
  maxMemoryUsed : Int
  description : String
  deriving DecidableEq, Repr, Inhabited

/-- What is known of an operator. -/
structure OperatorReport where
  operator : Operator
  records : Int
  batches : Int
  deriving DecidableEq, Repr, Inhabited

/-- What is known of the metrics of an environment. -/
structure MetricsReport where
  started : Option Int
  failed : Option Int
  canceled : Option Int
  listing : String
  deriving DecidableEq, Repr, Inhabited

/-- What is known of a tunnel cache. -/
structure CacheReport where
  size : Nat
  /-- The tunnels that its pool was asked for. -/
  opened : Nat
  deriving DecidableEq, Repr, Inhabited

/-- A counter with its name. -/
structure NamedCounter where
  name : String
  counter : Counter
  deriving DecidableEq, Repr, Inhabited

/-- The value that a command answers. -/
inductive Reply where
  | nothing
  | flag (value : Bool)
  | amount (value : Option Int)
  | text (value : Option String)
  | texts (values : List String)
  | failure (value : Option Failure)
  | allocator (report : AllocatorReport)
  /-- A buffer as it was handed out. -/
  | buffer (b : Buffer)
  /-- A buffer with its description. -/
  | bufferReport (b : Buffer)
  /-- The capacity of a buffer and some of its bytes. -/
  | bytes (capacity : Nat) (bytes : List UInt8)
  | poolSize (size : Nat)
  | lifecycle (state : Lifecycle) (changed : Bool)
  | option (found : OptionLookup)
  | counter (c : NamedCounter)
  /-- A timer that was started and stopped, and whether its counter kept from falling. -/
  | timing (c : NamedCounter) (grew : Bool)
  | registrySize (size : Nat)
  | functions (found : List FunctionSignature)
  | function (found : Option FunctionSignature)
  | schema (tree : Option SchemaTree)
  | tunnel (t : Tunnel)
  /-- A tunnel from a cache, and the cache afterwards. -/
  | cachedTunnel (t : Tunnel) (report : CacheReport)
  | cacheSize (report : CacheReport)
  | metrics (report : MetricsReport)
  /-- The incoming buffers of a context. -/
  | incoming (b : Option IncomingBuffers)
  /-- What became of incoming buffers. -/
  | incomingReport (b : IncomingBuffers)
  /-- The time of a query, also as the clocks of the session show it. -/
  | time (q : QueryTime) (localText : String)
  | context (report : ContextReport)
  | operator (report : OperatorReport)
  | operators (reports : List OperatorReport)
  | config (c : Config)
  /-- The settings of memory in the configuration in force. -/
  | reservations (c : Config)

end FragmentHost

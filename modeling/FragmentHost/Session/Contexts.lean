import FragmentHost.Host.Contexts
import FragmentHost.Host.Tunnels
import FragmentHost.Session.Allocators
import FragmentHost.Session.Environments

/-!
# Commands on contexts
-/

namespace FragmentHost

/-- What can be asked of contexts. -/
inductive ContextCommand where
  /-- A new context, with a registry of its own unless one is named. -/
  | make (new environment : String) (request : PlanRequest) (user registry : Option String)
  | fail (context : String) (cause : Failure)
  | cancel (context : String)
  | cause (context : String)
  /-- Records a failure without telling the fragment. -/
  | deferFailure (context : String) (f : Failure)
  /-- Reports the failures recorded so far and forgets them. -/
  | takeDeferred (context : String)
  | close (context : String)
  | drop (context : String)
  | nameAllocator (context new : String)
  | child (context new : String) (request : ReservationRequest)
  | limit (context : String) (limit : Int)
  | buffer (context new : String)
  | bufferOfSize (context new : String) (size : Nat)
  | replace (context buffer new : String) (size : Nat)
  | dataTunnel (context : String) (endpoint : Endpoint)
  | controlTunnel (context : String) (endpoint : Endpoint)
  | schema (context : String)
  | attach (context new : String) (incoming : IncomingBuffers)
  | incoming (context : String)
  /-- What became of incoming buffers, by their own name. -/
  | incomingReport (incoming : String)
  | option (context name : String)
  | functions (context name : String)
  | time (context : String)
  | info (context : String)
  | operator (context new : String) (operator : Operator)
  | batch (operator : String) (records : Int)
  | operators (context : String)
  /-- The profile, brought up to date but for the clock. It may be named. -/
  | profile (context : String) (new : Option String)
  deriving DecidableEq, Repr

namespace Session

/-- Goes on with the context of a name. -/
def findContext (s : Session) (name : String) (next : Nat → Context → Outcome) : Outcome :=
  s.find (·.contexts) name fun number =>
    match s.host.context? number with
    | some c => next number c
    | none => s.refuse (.unknownName name)

/-- The registry of a new context: the given one, or a new one. -/
def registryFor (h : Host) (registry : Option Nat) : Host × Nat :=
  match registry with
  | some r => (h, r)
  | none => h.addRegistry

/-- Makes a context and names it. The plan is completed, and the configuration read for it, before the
environment is looked for. -/
def makeContext (s : Session) (new environment : String) (request : PlanRequest)
    (user registry : Option String) : Outcome :=
  s.findOptional (·.registries) registry fun r =>
    let (config, h) := s.host.settings
    let s := s.on h
    s.findEnvironment environment fun number e =>
      let (h, registry) := registryFor s.host r
      let (h, result) := h.openContext number e (request.complete config)
        (user.map fun u => { user := u }) registry
      (s.on h).attempt result fun c =>
        ((s.on h).naming fun n => { n with contexts := n.contexts.put new c }).done

/-- Shows a context. -/
def contextReport (h : Host) (c : Context) : ContextReport where
  context := c
  identity := ((h.environment? c.environment).map (·.endpoint)).getD default
  memoryUsed := h.forest.current c.allocator
  maxMemoryUsed := h.forest.peak c.allocator
  description := c.describe h.forest

/-- Shows an operator. -/
def operatorReport (h : Host) (o : OperatorName) : OperatorReport where
  operator := o.operator
  records := o.operator.total Operator.records (h.profile o.profile)
  batches := o.operator.total Operator.batches (h.profile o.profile)

/-- Shows a tunnel. -/
def answerTunnel (s : Session) (result : Host × Option Tunnel) : Outcome :=
  (s.on result.1).answer (.tunnel (result.2.getD default))

/-- Carries out a command on contexts. -/
def onContexts (s : Session) : ContextCommand → Outcome
  | .make new environment request user registry =>
    s.makeContext new environment request user registry
  | .fail context cause =>
    s.findContext context fun n _ => (s.on (s.host.failContext n cause)).done
  | .cancel context => s.findContext context fun n _ => (s.on (s.host.cancelContext n)).done
  | .cause context => s.findContext context fun _ c => s.answer (.failure c.deferred.report?)
  | .deferFailure context f =>
    s.findContext context fun n c =>
      s.attempt (c.deferred.add f) fun d =>
        (s.on (s.host.modifyContext n fun c => { c with deferred := d })).done
  | .takeDeferred context =>
    s.findContext context fun n c =>
      let (report, d) := c.deferred.take
      (s.on (s.host.modifyContext n fun c => { c with deferred := d })).answer (.failure report)
  | .close context =>
    s.findContext context fun n _ =>
      let (h, report) := s.host.closeContext n
      (s.on h).report report
  | .drop context =>
    s.findContext context fun _ _ =>
      (s.naming fun n => { n with contexts := n.contexts.remove context }).done
  | .nameAllocator context new =>
    s.findContext context fun _ c => (s.nameAllocator new c.allocator false).done
  | .child context new request =>
    s.findContext context fun _ c => s.reserve new c.allocator request false
  | .limit context limit =>
    s.findContext context fun _ c => (s.on (s.host.setLimit c.allocator limit)).done
  | .buffer context new =>
    s.findContext context fun _ c => s.handOut new (s.host.getDefault c.pool)
  | .bufferOfSize context new size =>
    s.findContext context fun _ c => s.handOut new (s.host.getBuffer c.pool size)
  | .replace context buffer new size =>
    s.find (·.buffers) buffer fun b =>
      s.findContext context fun _ c => s.replaceBuffer new c.pool b size
  | .dataTunnel context endpoint =>
    s.findContext context fun n _ => s.answerTunnel (s.host.dataTunnel n endpoint)
  | .controlTunnel context endpoint =>
    s.findContext context fun n _ => s.answerTunnel (s.host.controlTunnel n endpoint)
  | .schema context =>
    s.findContext context fun n _ =>
      let (h, tree) := s.host.rootSchema n
      (s.on h).answer (.schema tree)
  | .attach context new incoming =>
    s.findContext context fun n _ =>
      let (h, buffers) := s.host.attachIncoming n incoming
      ((s.on h).naming fun n => { n with incoming := n.incoming.put new buffers }).done
  | .incoming context =>
    s.findContext context fun _ c =>
      s.answer (.incoming (c.incoming.bind fun (i : Nat) => s.host.incoming[i]?))
  | .incomingReport incoming =>
    s.find (·.incoming) incoming fun i =>
      s.answer (.incomingReport (s.host.incoming[i]?.getD default))
  | .option context name =>
    s.findContext context fun _ c => s.answer (.option ⟨s.host.option? c.options name⟩)
  | .functions context name =>
    s.findContext context fun _ c =>
      s.answer (.functions ((s.host.registry c.registry).lookup name))
  | .time context =>
    s.findContext context fun _ c => s.answer (.time c.time (c.time.localText s.host.zones))
  | .info context =>
    s.findContext context fun _ c => s.answer (.context (contextReport s.host c))
  | .operator context new operator =>
    s.findContext context fun n c =>
      let h := s.host.addOperator n c operator
      let o : OperatorName := ⟨c.profile, operator⟩
      ((s.on h).naming fun n => { n with operators := n.operators.put new o }).answer
        (.operator (operatorReport h o))
  | .batch operator records =>
    s.find (·.operators) operator fun o =>
      let h := s.host.modifyProfile o.profile (o.operator.addBatch records)
      (s.on h).answer (.operator (operatorReport h o))
  | .operators context =>
    s.findContext context fun _ c =>
      s.answer (.operators (c.operators.map fun o => operatorReport s.host ⟨c.profile, o⟩))
  | .profile context new =>
    s.findContext context fun _ c =>
      let s := s.on (s.host.refreshProfile c 0)
      let s := new.elim s fun name => s.nameProfile name ⟨c.profile, []⟩
      s.answer (.text (some (s.host.profile c.profile).text))

end Session

end FragmentHost

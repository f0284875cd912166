import FragmentHost.Failure.Release
import FragmentHost.Host.Buffers
import FragmentHost.Host.Environments
import FragmentHost.Options.Plan

/-!
# The contexts of a host

A context is made in full or not at all: everything that can fail comes before the first lasting change.
While it is open, failures and a cancellation are recorded in it and counted in the metrics of its
environment. Closing it gives back what it has in a fixed order, and then reports all failures at once.
-/

namespace FragmentHost

namespace Context

/-- The note that a context was made. -/
def creationEvent (p : PlanFragment) (isRoot : Bool) : LogEvent :=
  ⟨.debug, .contexts, "fragment " ++ p.handle.text ++ " context created: initial=" ++
    toString p.initial ++ " max=" ++ toString p.max ++ " root=" ++ toString isRoot⟩

/-- The note that the fragment was told of a failure. -/
def failureEvent (c : Context) (cause : Failure) : LogEvent :=
  ⟨.error, .contexts, "Fragment " ++ c.fragment.handle.text ++ " received failure: " ++
    cause.message⟩

/-- The note that the fragment was canceled. -/
def cancelEvent (c : Context) : LogEvent :=
  ⟨.info, .contexts, "Fragment " ++ c.fragment.handle.text ++ " canceled"⟩

/-- The note that the context is being closed. -/
def closingEvent (c : Context) : LogEvent :=
  ⟨.debug, .contexts, "closing in state " ++ c.state.text⟩

/-- The span of work of closing the context. -/
def closingSpan (c : Context) : LogSpan :=
  ⟨.contexts, "fragment=" ++ c.fragment.handle.text⟩

/-- The failure of a fragment that asks for the catalog without serving a user. -/
def notRoot : Failure :=
  .unsupported
    "Schema tree can only be created in root fragment. This is a non-root fragment."

/-- The failure of a context whose allocator was refused. -/
def withoutMemory (refusal : Failure) : Failure :=
  .setup ("Failure while getting memory allocator for fragment: " ++ refusal.message)

end Context

namespace Host

/-- The options and the time of a fragment, which its plan may get wrong. -/
def prepare (zones : ZoneTable) (e : Environment) (p : PlanFragment) :
    Except Failure (OptionStack × QueryTime) :=
  match PlanOption.ofPlan p.options with
  | .error f => .error f
  | .ok overrides =>
    match QueryTime.make zones p.start p.zone with
    | .error f => .error f
    | .ok time => .ok (e.options.push (Overrides.ofList overrides), time)

/-- A context above an allocator of its own. Nothing here can fail. -/
def furnish (h : Host) (environment : Nat) (p : PlanFragment) (session : Option UserSession)
    (registry : Nat) (options : OptionStack) (time : QueryTime) (allocator : Nat) : Host × Nat :=
  let h := h.count environment Environment.started
  let (h, profile) := h.addProfile (FragmentProfile.start p.handle p.assignment)
  -- without a configuration so far: the log may have completed the file by now
  let (config, h) := h.settings
  let (h, pool) := h.openPool p.handle.ownerText allocator config.bufferSize
  let c : Context :=
    { fragment := p, environment, session, registry, options, time, allocator, profile, pool }
  ({ h.log (Context.creationEvent p c.isRoot) with contexts := h.contexts ++ [c] }, h.contexts.length)

/-- Makes a context in an environment. The configuration is read even if the allocator is refused; of
the rest a failure leaves no trace. -/
def openContext (h : Host) (environment : Nat) (e : Environment) (p : PlanFragment)
    (session : Option UserSession) (registry : Nat) : Host × Except Failure Nat :=
  match prepare h.zones e p with
  | .error f => (h, .error f)
  | .ok (options, time) =>
    let (config, h) := h.settings
    match h.newChild e.root p.handle.ownerText p.initial p.max config.applyFragmentLimit with
    | .error refusal => (h, .error (Context.withoutMemory refusal))
    | .ok (h, allocator) =>
      let (h, c) := h.furnish environment p session registry options time allocator
      (h, .ok c)

/-- Moves a context towards a state; the first move to it is counted. -/
def signal (h : Host) (number : Nat) (c : Context) (target : Lifecycle) (metric : String) : Host :=
  if c.state.request target = c.state then h
  else
    (h.modifyContext number fun x => { x with state := x.state.request target }).count
      c.environment metric

/-- Tells a context of a failure. The fragment goes on until its operators notice. -/
def failContext (h : Host) (number : Nat) (cause : Failure) : Host :=
  match h.context? number with
  | none => h
  | some c =>
    let h := (h.log (c.failureEvent cause)).signal number c .failed Environment.failed
    match c.deferred.add cause with
    | .ok d => h.modifyContext number fun x => { x with deferred := d }
    -- the report was made already: the failure is only logged
    | .error refusal => h.log (Deferred.lossWarning .contexts refusal)

/-- Cancels a context. -/
def cancelContext (h : Host) (number : Nat) : Host :=
  match h.context? number with
  | none => h
  | some c =>
    let h := if c.state.request .canceled = c.state then h else h.log c.cancelEvent
    h.signal number c .canceled Environment.canceled

/-- What a root fragment can see of the catalog, which is asked each time. A failure is one of the
fragment. -/
def rootSchema (h : Host) (number : Nat) : Host × Option SchemaTree :=
  match h.context? number with
  | none => (h, none)
  | some c =>
    match c.session with
    | none => (h.failContext number Context.notRoot, none)
    | some session =>
      match (h.environment? c.environment).bind fun e =>
          Service.askAt h.factories e.services.factory session with
      | none => (h, none)
      | some (.ok t, factories) => ({ h with factories := factories }, some t)
      | some (.error f, factories) => ({ h with factories := factories }.failContext number f, none)

/-- Feeds the receivers of a context from incoming buffers. -/
def attachIncoming (h : Host) (number : Nat) (b : IncomingBuffers) : Host × Nat :=
  let buffers := h.incoming.length
  ({ h with incoming := h.incoming ++ [b] }.modifyContext number
    fun c => { c with incoming := some buffers }, buffers)

/-- Releases the incoming buffers of a context, if there are any. -/
def releaseIncoming (h : Host) (c : Context) (d : Deferred) :
    Host × Deferred × List LogEvent :=
  match c.incoming with
  | none => (h, d, [])
  | some i =>
    match h.incoming[i]? with
    | none => (h, d, [])
    | some b =>
      ({ h with incoming := h.incoming.modify i (·.released (h.forest.current c.allocator)) },
        d.release b.name b.failure)

/-- Closes a context, once: its pool, its incoming buffers and its allocator, each whatever became of
the ones before. The report is the primary failure with all later ones. -/
def closeContext (h : Host) (number : Nat) : Host × Option Failure :=
  match h.context? number with
  | none => (h, none)
  | some c =>
    if c.isClosed then (h, none)
    else
      -- the buffers of the pool draw from the allocator, so the pool goes first
      let (arena, poolEvents) := closingOf h.arena c.pool
      let (h, d, incomingEvents) := { h with arena := arena }.releaseIncoming c c.deferred
      -- what is still in use now was leaked
      let (forest, leak) := h.forest.close c.allocator
      let (d, leakEvents) := d.release (forest.label c.allocator) leak
      -- all releases were attempted; only now may the failures come out
      let (report, d) := d.close
      let h := (h.withForest forest).modifyContext number fun x =>
        { x with isClosed := true, incoming := none, deferred := d }
      let events := c.closingEvent :: poolEvents ++ incomingEvents ++ leakEvents
      ({ h with journal := h.journal.recordAll [c.closingSpan] events }, report)

/-- Adds an operator to a context. -/
def addOperator (h : Host) (number : Nat) (c : Context) (o : Operator) : Host :=
  (h.modifyProfile c.profile o.enter).modifyContext number fun x =>
    { x with operators := x.operators ++ [o] }

/-- Brings the profile of a context up to date. -/
def refreshProfile (h : Host) (c : Context) (elapsed : Int) : Host :=
  h.modifyProfile c.profile (FragmentProfile.refresh · elapsed (h.forest.outline c.allocator))

end Host

end FragmentHost

import FragmentHost.Proofs.Host.Opening

/-!
# The configuration that stays

A node has no configuration until a file was read for it, and it reads one from many places: when a file
is named, when the configuration or one of the settings is asked for, when a root allocator is made for an
environment, and twice when a context is made. `Host.readings` lists what a call would read from the files
as they are, whether there is a configuration or not. The configuration in force is the first of all
readings that succeeded (`latched_runAll`), however files and variables changed in between.

The main statement is `configuration_latched`. As long as no reading succeeded, a call answers with what
it reads itself, a failure leaves nothing behind, and the settings are the built-in ones (`Undecided`).
From the first success on, every call answers with that configuration and changes nothing, whatever the
files hold by then (`Decided`).
-/

namespace FragmentHost

-- ---------------------------------------------------------------------------
-- Sources
-- ---------------------------------------------------------------------------

/-- The configuration of the file that the variables name, or of the usual one. -/
def Config.read (vs : Variables) (files : FileTree) : Except ConfigError Config :=
  match locate vs files with
  | .ok path => load files path
  | .error e => .error e

namespace ConfigSource

/-- A named file counts unless there is a configuration. -/
theorem fromPath_eq (s : ConfigSource) (files : FileTree) (path : String) :
    s.fromPath files path = (s.latched.elim (Config.load files path) .ok,
      { s with latched := s.latched.or (Config.load files path).toOption }) := by
  obtain ⟨environ, _ | c⟩ := s
  · rw [fromPath]
    cases Config.load files path <;> rfl
  · rfl

/-- So does the file that the variables name. -/
theorem current_eq (s : ConfigSource) (files : FileTree) :
    s.current files = (s.latched.elim (Config.read s.environ files) .ok,
      { s with latched := s.latched.or (Config.read s.environ files).toOption }) := by
  obtain ⟨environ, _ | c⟩ := s
  · rw [current, Config.read]
    cases Config.locate environ files with
    | ok path => exact fromPath_eq _ files path
    | error e => rfl
  · rfl

theorem settings_eq (s : ConfigSource) (files : FileTree) :
    s.settings files = ((s.latched.or (Config.read s.environ files).toOption).getD {},
      { s with latched := s.latched.or (Config.read s.environ files).toOption }) := by
  rw [settings, current_eq]
  obtain ⟨environ, _ | c⟩ := s
  · cases Config.read environ files <;> rfl
  · rfl

/-- A configuration in force is not read again. -/
theorem fromPath_of_latched {s : ConfigSource} {c : Config} (h : s.latched = some c) (files : FileTree)
    (path : String) : s.fromPath files path = (.ok c, s) := by
  rw [fromPath, h]

theorem current_of_latched {s : ConfigSource} {c : Config} (h : s.latched = some c)
    (files : FileTree) : s.current files = (.ok c, s) := by
  rw [current, h]

end ConfigSource

/-- The call with everything around the host as it says, apart from the configuration in force, which
nothing but a reading sets. -/
def HostCall.keeping (latched : Option Config) : HostCall → HostCall
  | .elsewhere s => .elsewhere { s with config := { s.config with latched } }
  | call => call

/-- What can be asked of a node that has to do with its configuration. Calls of the host are among it:
some of them read the configuration, and in others files and variables change in any way. -/
inductive NodeCall where
  | fromPath (path : String)
  | current
  /-- One of the settings. -/
  | setting
  | host (call : HostCall)

namespace Host

-- ---------------------------------------------------------------------------
-- Runs
-- ---------------------------------------------------------------------------

/-- What reading the configuration gives now. -/
def reading (h : Host) : Except ConfigError Config := Config.read h.config.environ h.journal.files

/-- What the making of a context reads: once for its reservation, and if that is granted, again for its
pool. -/
def readingsFor (h : Host) (e : Environment) (plan : PlanFragment) : List (Except ConfigError Config) :=
  match prepare h.zones e plan with
  | .error _ => []
  | .ok _ =>
    match h.settings.2.newChild e.root plan.handle.ownerText plan.initial plan.max
        h.settings.1.applyFragmentLimit with
    | .error _ => [h.reading]
    | .ok (g, _) => [h.reading, g.reading]

/-- What a call of the host reads, if anything. -/
def readingsOf (h : Host) : HostCall → List (Except ConfigError Config)
  | .openEnvironment none _ _ services => if h.hasServices services then [h.reading] else []
  | .openContext environment plan _ _ =>
    ((h.environment? environment).map fun e => h.readingsFor e plan).getD []
  | _ => []

/-- What a call reads from the files as they are. -/
def readings (h : Host) : NodeCall → List (Except ConfigError Config)
  | .fromPath path => [Config.load h.journal.files path]
  | .current | .setting => [h.reading]
  | .host call => h.readingsOf call

/-- The host after a call. -/
def run (h : Host) : NodeCall → Host
  | .fromPath path => { h with config := (h.config.fromPath h.journal.files path).2 }
  | .current => { h with config := (h.config.current h.journal.files).2 }
  | .setting => h.settings.2
  | .host call => h.act (call.keeping h.config.latched)

/-- The host after calls. -/
def runAll (h : Host) (calls : List NodeCall) : Host := calls.foldl run h

/-- What calls read, one after the other. -/
def readingsAll (h : Host) : List NodeCall → List (Except ConfigError Config)
  | [] => []
  | call :: calls => h.readings call ++ (h.run call).readingsAll calls

/-- The first reading that succeeded. -/
def firstRead (readings : List (Except ConfigError Config)) : Option Config :=
  readings.findSome? (·.toOption)

-- ---------------------------------------------------------------------------
-- What leaves the configuration alone
-- ---------------------------------------------------------------------------

theorem settings_eq (h : Host) : h.settings = ((h.config.latched.or h.reading.toOption).getD {},
    { h with config := { h.config with latched := h.config.latched.or h.reading.toOption } }) := by
  rw [settings, ConfigSource.settings_eq]
  rfl

theorem Store.config_eq {h g : Host} {p : HostPart} (hs : h.Store p g)
    (hp : p ∉ [.config, .surroundings]) : g.config = h.config := by
  cases hs with
  | config | surroundings => simp at hp
  | _ => rfl

theorem Writes.config_eq {h g : Host} {ps : List HostPart} (hw : Writes ps h g)
    (hps : HostPart.apart ps [.config, .surroundings] = true) : g.config = h.config :=
  hw.same (fun hp hs => hs.config_eq hp) hps

theorem Store.journal_eq {h g : Host} {p : HostPart} (hs : h.Store p g)
    (hp : p ∉ [.journal, .surroundings]) : g.journal = h.journal := by
  cases hs with
  | journal | surroundings => simp at hp
  | _ => rfl

theorem Writes.journal_eq {h g : Host} {ps : List HostPart} (hw : Writes ps h g)
    (hps : HostPart.apart ps [.journal, .surroundings] = true) : g.journal = h.journal :=
  hw.same (fun hp hs => hs.journal_eq hp) hps

-- ---------------------------------------------------------------------------
-- What calls read
-- ---------------------------------------------------------------------------

theorem latched_openEnvironment (h : Host) (root : Option Nat) (endpoint : Endpoint)
    (options : Option OptionStack) (services : Services) :
    (h.act (.openEnvironment root endpoint options services)).config.latched =
      h.config.latched.or (firstRead (h.readingsOf (.openEnvironment root endpoint options services))) := by
  rw [act]
  cases hservices : h.hasServices services with
  | false =>
    have hnone : h.readingsOf (.openEnvironment root endpoint options services) = [] := by
      cases root <;> simp [readingsOf, hservices]
    rw [hnone]
    exact (Option.or_none ..).symm
  | true =>
    have hconfig := (writes_openEnvironment (h.rootFor root).1 (h.rootFor root).2 endpoint options
      services).config_eq rfl
    rw [if_pos rfl, hconfig]
    cases root with
    | some r => exact (Option.or_none ..).symm
    | none =>
      have hroot : (h.rootFor none).1.config = h.settings.2.config := rfl
      rw [hroot, settings_eq, readingsOf, if_pos hservices, firstRead, List.findSome?_singleton]

/-- The making of a context sets nothing of the configuration but what it reads. -/
theorem config_openContext (h : Host) (number : Nat) (e : Environment) (plan : PlanFragment)
    (session : Option UserSession) (registry : Nat) :
    (h.openContext number e plan session registry).1.config =
      { h.config with latched := h.config.latched.or (firstRead (h.readingsFor e plan)) } := by
  have hfirst : h.settings.2.config =
      { h.config with latched := h.config.latched.or h.reading.toOption } := by
    rw [settings_eq]
  unfold openContext readingsFor
  cases prepare h.zones e plan with
  | error f =>
    dsimp only
    rw [show firstRead [] = none from rfl, Option.or_none]
  | ok prepared =>
    dsimp only
    cases hk : h.settings.2.newChild e.root plan.handle.ownerText plan.initial plan.max
        h.settings.1.applyFragmentLimit with
    | error refusal =>
      dsimp only
      rw [hfirst, firstRead, List.findSome?_singleton]
    | ok made =>
      -- counting the start and adding a profile do not reach the files
      have hsecond : ∀ k : Host, k.config = made.1.config → k.journal = made.1.journal →
          k.settings.2.config = { made.1.config with
            latched := made.1.config.latched.or made.1.reading.toOption } := by
        intro k hconfig hjournal
        rw [settings_eq, reading, reading, hconfig, hjournal]
      have hcount := hsecond ((made.1.count number Environment.started).addProfile
        (FragmentProfile.start plan.handle plan.assignment)).1
        ((writes_count made.1 number Environment.started).config_eq rfl)
        ((writes_count made.1 number Environment.started).journal_eq rfl)
      have hreads : firstRead [h.reading, made.1.reading] =
          h.reading.toOption.or made.1.reading.toOption := by
        rw [firstRead, List.findSome?_cons, List.findSome?_singleton]
        cases h.reading.toOption <;> rfl
      rw [(writes_newChild hk).config_eq rfl, hfirst] at hcount
      rw [hreads, ← Option.or_assoc]
      exact hcount

/-- A context that was made had its reservation granted. -/
theorem reading_mem_readingsFor {h g : Host} {number n registry : Nat} {e : Environment}
    {plan : PlanFragment} {session : Option UserSession}
    (ho : h.openContext number e plan session registry = (g, .ok n)) : h.reading ∈ h.readingsFor e plan := by
  unfold openContext at ho
  unfold readingsFor
  cases hprepare : prepare h.zones e plan with
  | error f => simp [hprepare] at ho
  | ok prepared =>
    dsimp only
    cases h.settings.2.newChild e.root plan.handle.ownerText plan.initial plan.max
        h.settings.1.applyFragmentLimit <;> exact List.mem_cons_self ..

theorem latched_openContext (h : Host) (environment : Nat) (plan : PlanFragment) (session : Option UserSession)
    (registry : Nat) :
    (h.act (.openContext environment plan session registry)).config.latched =
      h.config.latched.or (firstRead (h.readingsOf (.openContext environment plan session registry))) := by
  rw [act, readingsOf]
  cases h.environment? environment with
  | none => exact (Option.or_none ..).symm
  | some e => exact congrArg ConfigSource.latched (config_openContext h environment e plan session registry)

theorem latched_run (h : Host) (call : NodeCall) :
    (h.run call).config.latched = h.config.latched.or (firstRead (h.readings call)) := by
  cases call with
  | fromPath path =>
    rw [run, ConfigSource.fromPath_eq, readings, firstRead, List.findSome?_singleton]
  | current =>
    rw [run, ConfigSource.current_eq, readings, firstRead, List.findSome?_singleton]
    rfl
  | setting =>
    rw [run, settings_eq, readings, firstRead, List.findSome?_singleton]
  | host call =>
    rw [run, readings]
    cases call with
    | openEnvironment root endpoint options services =>
      exact latched_openEnvironment h root endpoint options services
    | openContext environment plan session registry =>
      exact latched_openContext h environment plan session registry
    | elsewhere s => exact (Option.or_none ..).symm
    | _ =>
      refine (congrArg ConfigSource.latched ((writes_act h _).config_eq ?_)).trans (Option.or_none ..).symm
      rfl

/-- The configuration in force is the first one that was read. -/
theorem latched_runAll (h : Host) (calls : List NodeCall) :
    (h.runAll calls).config.latched = h.config.latched.or (firstRead (h.readingsAll calls)) := by
  induction calls generalizing h with
  | nil => exact (Option.or_none ..).symm
  | cons call calls ih =>
    have hreads : firstRead (h.readingsAll (call :: calls)) =
        (firstRead (h.readings call)).or (firstRead ((h.run call).readingsAll calls)) := by
      rw [readingsAll, firstRead, List.findSome?_append]
      rfl
    rw [hreads, ← Option.or_assoc, ← latched_run]
    exact ih (h.run call)

-- ---------------------------------------------------------------------------
-- What contexts get
-- ---------------------------------------------------------------------------

/-- Context `n` has an allocator and a pool with these settings. -/
def Furnished (h : Host) (n : Nat) (applyFragmentLimit : Bool) (bufferSize : Nat) : Prop :=
  ∃ c a pool, h.context? n = some c ∧ h.forest.get? c.allocator = some a ∧
    a.obeysLimits = applyFragmentLimit ∧ h.arena.pool? c.pool = some pool ∧
    pool.defaultSize = bufferSize

theorem fst_settings (h : Host) : h.settings.1 = h.settings.2.config.latched.getD {} := by
  rw [settings_eq]

section NewContext

variable {h g : Host} {number n registry : Nat} {e : Environment} {plan : PlanFragment}
  {session : Option UserSession}

theorem pool_openContext (ho : h.openContext number e plan session registry = (g, .ok n)) :
    ∃ c, g.contexts = h.contexts ++ [c] ∧ ∃ pool, g.arena.pool? c.pool = some pool ∧
      pool.defaultSize = (g.config.latched.getD {}).bufferSize := by
  obtain ⟨options, time, k, allocator, -, hk, hfurnish⟩ := openContext_granted ho
  have hbefore : Writes [.config, .memory, .journal, .metrics] h (k.count number Environment.started) :=
    (((writes_settings h).mono (by simp)).trans ((writes_newChild hk).mono (by simp))).trans
      ((writes_count k number Environment.started).mono (by simp))
  obtain ⟨rfl, -⟩ := Prod.mk.inj hfurnish
  apply Exists.intro
  constructor
  · show (k.count number Environment.started).contexts ++ [_] = h.contexts ++ [_]
    rw [(hbefore.sameRecords rfl).contexts_eq]
  · exact ⟨_, (Arena.pool?_openPool _ _ _ _ _).trans (if_pos rfl),
      congrArg Config.bufferSize (fst_settings _)⟩

/-- A new context has the settings that were read for it. -/
theorem furnished_openContext (ho : h.openContext number e plan session registry = (g, .ok n)) :
    g.Furnished n h.settings.1.applyFragmentLimit (g.config.latched.getD {}).bufferSize := by
  obtain ⟨rfl, c, hopened⟩ := openContext_ok ho
  obtain ⟨d, hcontexts, pool, hpool, hsize⟩ := pool_openContext ho
  obtain rfl : c = d := List.singleton_inj.1
    (List.append_cancel_left (hopened.contexts_eq.symm.trans hcontexts))
  obtain ⟨a, ha, -, -, -, hobeys⟩ := Forest.get?_newChild hopened.allocator
  refine ⟨c, a, pool, ?_, ha, hobeys, hpool, hsize⟩
  rw [context?, hopened.contexts_eq, List.getElem?_concat_length]

end NewContext

-- ---------------------------------------------------------------------------
-- Before and after the first success
-- ---------------------------------------------------------------------------

/-- No configuration was read so far: each call answers with what it reads, a failure leaves everything as
it was, and where no setting can be read the built-in one counts. -/
structure Undecided (h : Host) : Prop where
  fromPath_error : ∀ files path e, Config.load files path = .error e →
    h.config.fromPath files path = (.error e, h.config)
  fromPath_ok : ∀ files path c, Config.load files path = .ok c →
    h.config.fromPath files path = (.ok c, { h.config with latched := some c })
  current_error : ∀ files e, Config.read h.config.environ files = .error e →
    h.config.current files = (.error e, h.config)
  current_ok : ∀ files c, Config.read h.config.environ files = .ok c →
    h.config.current files = (.ok c, { h.config with latched := some c })
  settings_error : ∀ e, h.reading = .error e → h.settings.2 = h ∧ h.settings.1.rootLimit = -1 ∧
    h.settings.1.initialReservation = 1000000 ∧ h.settings.1.maxReservation = 20000000000 ∧
    h.settings.1.bufferSize = 256 ∧ h.settings.1.applyFragmentLimit = true
  settings_ok : ∀ c, h.reading = .ok c →
    h.settings = (c, { h with config := { h.config with latched := some c } })
  context : ∀ number e plan session registry g n,
    h.openContext number e plan session registry = (g, .ok n) → g.config.latched = none →
    g.Furnished n true 256

/-- Configuration `c` was read: every call answers with it, whatever there is in the files and whatever
the variables name, and changes nothing. -/
structure Decided (h : Host) (c : Config) : Prop where
  fromPath : ∀ files path, h.config.fromPath files path = (.ok c, h.config)
  current : ∀ files environ,
    { h.config with environ }.current files = (.ok c, { h.config with environ })
  settings : h.settings = (c, h)
  context : ∀ number e plan session registry g n,
    h.openContext number e plan session registry = (g, .ok n) →
    g.config = h.config ∧ g.Furnished n c.applyFragmentLimit c.bufferSize

theorem undecided_of_latched {h : Host} (hl : h.config.latched = none) : h.Undecided := by
  have hsame : { h.config with latched := none } = h.config := by rw [← hl]
  constructor
  case fromPath_error =>
    intro files path e hload
    rw [ConfigSource.fromPath_eq, hl, hload]
    exact Prod.ext rfl hsame
  case fromPath_ok =>
    intro files path c hload
    rw [ConfigSource.fromPath_eq, hl, hload]
    rfl
  case current_error =>
    intro files e hread
    rw [ConfigSource.current_eq, hl, hread]
    exact Prod.ext rfl hsame
  case current_ok =>
    intro files c hread
    rw [ConfigSource.current_eq, hl, hread]
    rfl
  case settings_error =>
    intro e hread
    have hsettings : h.settings = ({}, h) := by
      rw [settings_eq, hl, hread]
      exact Prod.ext rfl (congrArg (fun config => { h with config := config }) hsame)
    rw [hsettings]
    exact ⟨rfl, rfl, rfl, rfl, rfl, rfl⟩
  case settings_ok =>
    intro c hread
    rw [settings_eq, hl, hread]
    rfl
  case context =>
    intro number e plan session registry g n ho hg
    have hconfig := congrArg (fun k => k.1.config.latched) ho
    rw [config_openContext, hl, Option.none_or] at hconfig
    -- so nothing was read for the reservation either
    have hreading : h.reading.toOption = none :=
      List.findSome?_eq_none_iff.1 (hconfig.trans hg) _ (reading_mem_readingsFor ho)
    have hfurnished := furnished_openContext ho
    rw [hg, settings_eq, hl, hreading] at hfurnished
    exact hfurnished

theorem decided_of_latched {h : Host} {c : Config} (hl : h.config.latched = some c) : h.Decided c := by
  have hsettings : h.settings = (c, h) := by
    rw [settings, ConfigSource.settings, ConfigSource.current_of_latched hl]
  constructor
  case fromPath =>
    intro files path
    exact ConfigSource.fromPath_of_latched hl files path
  case current =>
    intro files environ
    exact ConfigSource.current_of_latched (s := { h.config with environ }) hl files
  case settings => exact hsettings
  case context =>
    intro number e plan session registry g n ho
    have hconfig : g.config = h.config := by
      have hread := congrArg (fun k => k.1.config) ho
      rw [config_openContext, hl, Option.some_or, ← hl] at hread
      exact hread.symm
    have hfurnished := furnished_openContext ho
    rw [hconfig, hl, hsettings] at hfurnished
    exact ⟨hconfig, hfurnished⟩

end Host

/-- In every run the first reading that succeeds decides: until then there is no configuration, and from
then on there is no other. -/
theorem configuration_latched (process : Process) (calls : List NodeCall) :
    let start := (Session.ofProcess process).host
    match Host.firstRead (start.readingsAll calls) with
    | none => (start.runAll calls).Undecided
    | some c => (start.runAll calls).Decided c := by
  intro start
  have hlatched := start.latched_runAll calls
  rw [show start.config.latched = none from rfl, Option.none_or] at hlatched
  cases hfirst : Host.firstRead (start.readingsAll calls) with
  | none => exact Host.undecided_of_latched (hlatched.trans hfirst)
  | some c => exact Host.decided_of_latched (hlatched.trans hfirst)

/-- The first call finds no file. Then one is named by its place from the top, and what lies in the working
directory does not count any more. -/
example :
    let files : FileTree :=
      { files := [(["etc", "site.toml"], "[runtime]\napply_fragment_limit = false\n".toUTF8),
          (["srv", "fragexec.toml"], "".toUTF8)]
        directories := [["etc"]]
        working := ["srv"] }
    ((Session.ofProcess {}).host.runAll [.current, .setting,
      .host (.elsewhere { journal := { base := files } }), .fromPath "/etc/site.toml", .setting,
      .current]).config.latched = some { applyFragmentLimit := false } := by
  decide +kernel

end FragmentHost

import Postmortem.Proofs.Setup

/-! # Settings and history

What reports go by follows from the calls that were made and from what came of them. Most settings
are those of the last call that gave one. The time of the start is that of the first. Both rules
meet in the directory, where the last configuration that names one goes before the first start that
found one.
-/

namespace Postmortem.Context

variable {α : Type}

/-- A call that was made, and what came of it. -/
abbrev Event := Call × Except NulError Unit

/-- The context after some calls, the refused ones included. -/
def afterAll : List Call → Context → Context
  | [], c => c
  | call :: rest, c => afterAll rest (call.after c)

/-- What happened when some calls were made one after another. -/
def history : List Call → Context → List Event
  | [], _ => []
  | call :: rest, c => (call, call.outcome c) :: history rest (call.after c)

/-- What the first event tells that tells anything. -/
def first (tells : Event → Option α) (events : List Event) : Option α := events.findSome? tells

/-- What the last event tells that tells anything. -/
def last (tells : Event → Option α) (events : List Event) : Option α := first tells events.reverse

/-! ## What events tell -/

/-- A program name, which may be taken back. -/
def programGiven : Event → Option (Option Bytes)
  | (.init m path, .ok ()) => (foundProgram m path).map some
  | (.setProgramName path, .ok ()) => some (path.map Bytes.baseName)
  | _ => none

/-- Part of a configuration. -/
def configuredIn (part : Config → α) : Event → Option α
  | (.configure config, .ok ()) => some (part config)
  | _ => none

/-- A directory that a configuration names. -/
def directoryNamed : Event → Option Bytes
  | (.configure config, .ok ()) => config.tempDirectory.map utf8
  | _ => none

/-- The directory of the system. -/
def directoryFound : Event → Option Bytes
  | (.init m _, .ok ()) => some (Utf8.repair m.tempDirectory)
  | _ => none

/-- A postmortem command. A configuration without one gives the empty one. -/
def postmortemGiven : Event → Option CommandTexts
  | (.configure config, .ok ()) => some (configured config.postmortem)
  | (.setPostmortem command argv fatalArgv, .ok ()) =>
    some (CommandConfig.encoded ⟨command, argv, fatalArgv⟩)
  | _ => none

/-- A session logger. A configuration without one gives the empty one. -/
def sessionGiven : Event → Option CommandTexts
  | (.configure config, .ok ()) => some (configured config.sessionLogger)
  | (.setSessionLogger command argv crashArgv, .ok ()) =>
    some (CommandConfig.encoded ⟨command, argv, crashArgv⟩)
  | _ => none

/-- Whether the stack traces of crashes go to the session logger. -/
def stackLoggingGiven : Event → Option Bool
  | (.configure config, .ok ()) => some config.fatalStackLogging
  | (.setFatalStackLogging on, .ok ()) => some on
  | _ => none

/-- A time, which a start of the process sees whatever comes of it. -/
def timeSeen : Event → Option Int
  | (.init m _, _) => if m.epochSeconds = 0 then none else some m.epochSeconds
  | _ => none

/-! ## Settings -/

/-- What reports go by. -/
structure Settings where
  program : Bytes
  directory : Bytes
  stem : Bytes
  postmortem : CommandTexts
  postmortemTimeout : Duration
  session : CommandTexts
  sessionTimeout : Duration
  fatalStackLogging : Bool
  trapOnDebugger : Bool
  unwinder : UnwinderKind
  launchTime : Int

/-- The settings of a context. -/
def settings (c : Context) : Settings where
  program := c.names.value.programName.bytes
  directory := c.names.value.directory.bytes
  stem := c.names.value.stem.bytes
  postmortem := c.commands.value.postmortem.encoded
  postmortemTimeout := c.commands.value.postmortemTimeout
  session := c.commands.value.session.encoded
  sessionTimeout := c.commands.value.sessionTimeout
  fatalStackLogging := c.fatalStackLogging
  trapOnDebugger := c.trapOnDebugger
  unwinder := c.unwinder
  launchTime := c.launchTime

/-- The settings that a history leads to. -/
def Settings.ofHistory (events : List Event) : Settings where
  program := ((last programGiven events).getD none).getD (utf8 "libArch")
  directory := ((last directoryNamed events).or (first directoryFound events)).getD (utf8 "/tmp")
  stem := (last (configuredIn fun config => utf8 config.logStem) events).getD (utf8 "st")
  postmortem := (last postmortemGiven events).getD .none
  postmortemTimeout := (last (configuredIn (·.postmortemTimeout)) events).getD (.ofSeconds 300)
  session := (last sessionGiven events).getD .none
  sessionTimeout := (last (configuredIn (·.sessionTimeout)) events).getD (.ofSeconds 60)
  fatalStackLogging := (last stackLoggingGiven events).getD false
  trapOnDebugger := (last (configuredIn (·.trapOnDebugger)) events).getD true
  unwinder := (last (configuredIn (·.unwinder)) events).getD .unwindTables
  launchTime := (first timeSeen events).getD 0

/-! ## One call -/

/-- What a call does to a part of the context, from what it does when it succeeds and when it is
    refused. -/
theorem part_after (part : Given → α) (rule : Event → α → α)
    (done : ∀ (call : Call) (c : Context),
      part (call.gives (call.begun c).given) = rule (call, .ok ()) (part c.given))
    (refused : ∀ (call : Call) (c : Context) (e : NulError),
      part (call.begun c).given = rule (call, .error e) (part c.given))
    (call : Call) (c : Context) :
    part (call.after c).given = rule (call, call.outcome c) (part c.given) := by
  obtain ⟨ok, -, given⟩ | ⟨e, failed, -, left⟩ := call.step c
  · rw [ok, given]
    exact done call c
  · rw [failed, left]
    exact refused call c e

/-! ## Many calls -/

theorem first_cons (tells : Event → Option α) (event : Event) (events : List Event) :
    first tells (event :: events) = (tells event).or (first tells events) := by
  rw [first, List.findSome?_cons]
  cases tells event <;> rfl

theorem last_cons (tells : Event → Option α) (event : Event) (events : List Event) :
    last tells (event :: events) = (last tells events).or (tells event) := by
  rw [last, first, List.reverse_cons, List.findSome?_append, List.findSome?_singleton]
  rfl

theorem first_nothing (events : List Event) : first (fun _ => (none : Option α)) events = none :=
  List.findSome?_eq_none_iff.mpr fun _ _ => rfl

/-- A part that some events decide anew, and others only if it is open. -/
theorem decided (part : Given → Option α) (anew ifOpen : Event → Option α)
    (done : ∀ (call : Call) (c : Context), part (call.gives (call.begun c).given) =
      (anew (call, .ok ())).or ((part c.given).or (ifOpen (call, .ok ()))))
    (refused : ∀ (call : Call) (c : Context) (e : NulError), part (call.begun c).given =
      (anew (call, .error e)).or ((part c.given).or (ifOpen (call, .error e))))
    (calls : List Call) (c : Context) :
    part (afterAll calls c).given =
      (last anew (history calls c)).or ((part c.given).or (first ifOpen (history calls c))) := by
  induction calls generalizing c with
  | nil => exact (Option.or_none ..).symm
  | cons call rest ih =>
      have step := part_after part (fun event old => (anew event).or (old.or (ifOpen event)))
        done refused call c
      rw [afterAll, ih, step, history, last_cons, first_cons]
      simp only [Option.or_assoc]

/-- A part that is what the last event has made it that tells anything about it. -/
theorem last_counts (part : Given → α) (tells : Event → Option α)
    (done : ∀ (call : Call) (c : Context),
      part (call.gives (call.begun c).given) = (tells (call, .ok ())).getD (part c.given))
    (refused : ∀ (call : Call) (c : Context) (e : NulError),
      part (call.begun c).given = (tells (call, .error e)).getD (part c.given))
    (calls : List Call) (c : Context) :
    part (afterAll calls c).given = (last tells (history calls c)).getD (part c.given) := by
  have getD_or (told : Option α) (old : α) :
      some (told.getD old) = told.or ((some old).or none) := by
    cases told <;> rfl
  apply Option.some.inj
  rw [getD_or]
  exact decided (fun g => some (part g)) tells (fun _ => none)
    (fun call c => by rw [done, getD_or]) (fun call c e => by rw [refused, getD_or]) calls c

/-! ## The settings -/

/-- The time that is known, if one is. -/
def knownTime (g : Given) : Option Int := if g.launchTime = 0 then none else some g.launchTime

theorem getD_knownTime (g : Given) : (knownTime g).getD 0 = g.launchTime := by
  rw [knownTime]
  split
  · next unknown => exact unknown.symm
  · rfl

theorem knownTime_begun (m : Machine) (path : Option Bytes) (c : Context)
    (outcome : Except NulError Unit) : knownTime ((Call.init m path).begun c).given =
      (knownTime c.given).or (timeSeen (.init m path, outcome)) := by
  by_cases unknown : c.launchTime = 0 <;> simp [knownTime, given, Call.begun, timeSeen, unknown]

/-- The first time counts that a start of the process sees. -/
theorem launchTime_afterAll (calls : List Call) (c : Context) :
    knownTime (afterAll calls c).given =
      (knownTime c.given).or (first timeSeen (history calls c)) := by
  refine (decided knownTime (fun _ => none) timeSeen ?_ ?_ calls c).trans ?_
  · intro call c
    cases call with
    | init m path => exact knownTime_begun m path c (.ok ())
    | _ => exact (Option.or_none ..).symm
  · intro call c e
    cases call with
    | init m path => exact knownTime_begun m path c (.error e)
    | _ => exact (Option.or_none ..).symm
  · rw [last, first_nothing]
    rfl

/-- A directory that was named stays until another one is named; one that was found stays as long
    as none is named. -/
theorem directory_afterAll (calls : List Call) (c : Context) :
    (afterAll calls c).given.directory = (last directoryNamed (history calls c)).or
      (c.given.directory.or (first directoryFound (history calls c))) := by
  refine decided (·.directory) directoryNamed directoryFound ?_ ?_ calls c
  · intro call c
    cases call with
    | init m path => rfl
    | configure config =>
        exact congrArg (Option.or (config.tempDirectory.map utf8)) (Option.or_none ..).symm
    | _ => exact (Option.or_none ..).symm
  · intro call c e
    cases call <;> exact (Option.or_none ..).symm

theorem program_afterAll (calls : List Call) (c : Context) :
    (afterAll calls c).given.program =
      (last programGiven (history calls c)).getD c.given.program := by
  refine last_counts (·.program) programGiven ?_ ?_ calls c
  · intro call c
    cases call with
    | init m path =>
        show (foundProgram m path).or _ = ((foundProgram m path).map some).getD _
        cases foundProgram m path <;> rfl
    | _ => rfl
  · intro call c e
    cases call <;> rfl

/-- What only configurations give. -/
theorem configured_afterAll (part : Given → α) (inConfig : Config → α)
    (done : ∀ (call : Call) (c : Context), part (call.gives (call.begun c).given) =
      (configuredIn inConfig (call, .ok ())).getD (part c.given))
    (kept : ∀ (call : Call) (c : Context), part (call.begun c).given = part c.given)
    (calls : List Call) (c : Context) :
    part (afterAll calls c).given =
      (last (configuredIn inConfig) (history calls c)).getD (part c.given) := by
  refine last_counts part (configuredIn inConfig) done (fun call c e => ?_) calls c
  rw [kept]
  cases call <;> rfl

/-- The settings of a context are what it was given, or else the defaults. -/
theorem settings_eq (c : Context) : c.settings =
    { program := c.given.program.getD (utf8 "libArch")
      directory := c.given.directory.getD (utf8 "/tmp")
      stem := c.given.stem.getD (utf8 "st")
      postmortem := c.given.postmortem
      postmortemTimeout := c.given.postmortemTimeout
      session := c.given.session
      sessionTimeout := c.given.sessionTimeout
      fatalStackLogging := c.given.fatalStackLogging
      trapOnDebugger := c.given.trapOnDebugger
      unwinder := c.given.unwinder
      launchTime := c.given.launchTime } := by
  have text (s : CString) (o : Option CString) : (o.getD s).bytes = (o.map (·.bytes)).getD s.bytes :=
    (Option.getD_map ..).symm
  simp only [settings, Names.programName, Names.directory, Names.stem, text]
  rfl

/-- The settings are determined by the calls made since the start of the program and by which of
    them were refused. -/
theorem settings_afterAll (calls : List Call) :
    (afterAll calls .initial).settings = .ofHistory (history calls .initial) := by
  have postmortem := last_counts (·.postmortem) postmortemGiven
    (fun call c => by cases call <;> rfl) (fun call c e => by cases call <;> rfl) calls .initial
  have session := last_counts (·.session) sessionGiven
    (fun call c => by cases call <;> rfl) (fun call c e => by cases call <;> rfl) calls .initial
  have stackLogging := last_counts (·.fatalStackLogging) stackLoggingGiven
    (fun call c => by cases call <;> rfl) (fun call c e => by cases call <;> rfl) calls .initial
  have stem := configured_afterAll (·.stem.getD (utf8 "st")) (fun config => utf8 config.logStem)
    (fun call c => by cases call <;> rfl) (fun call c => by cases call <;> rfl) calls .initial
  have postmortemTimeout := configured_afterAll (·.postmortemTimeout) (·.postmortemTimeout)
    (fun call c => by cases call <;> rfl) (fun call c => by cases call <;> rfl) calls .initial
  have sessionTimeout := configured_afterAll (·.sessionTimeout) (·.sessionTimeout)
    (fun call c => by cases call <;> rfl) (fun call c => by cases call <;> rfl) calls .initial
  have trapOnDebugger := configured_afterAll (·.trapOnDebugger) (·.trapOnDebugger)
    (fun call c => by cases call <;> rfl) (fun call c => by cases call <;> rfl) calls .initial
  have unwinder := configured_afterAll (·.unwinder) (·.unwinder)
    (fun call c => by cases call <;> rfl) (fun call c => by cases call <;> rfl) calls .initial
  have launchTime := congrArg (·.getD 0) (launchTime_afterAll calls .initial)
  rw [getD_knownTime] at launchTime
  rw [settings_eq, program_afterAll, directory_afterAll, stem, postmortem, session,
    stackLogging, postmortemTimeout, sessionTimeout, trapOnDebugger, unwinder, launchTime]
  rfl

end Postmortem.Context

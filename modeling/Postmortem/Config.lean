import Postmortem.Command
import Postmortem.Signal
import Postmortem.Unwinder

/-! # Configurations

A configuration says how a process reports: which commands are run and how long they may take, where
log files go and how their names begin, and which signals count as crashes. There are three ways to
a configuration, the default, a request and a JSON text, and the last two end in the same check.
-/

namespace Postmortem

/-- Everything that can be configured. -/
structure Config where
  createAltStack : Bool
  /-- Are the stack traces of crashes handed to the session logger? -/
  fatalStackLogging : Bool
  /-- How the names of log files begin. -/
  logStem : String
  postmortem : Option CommandConfig
  /-- How long the postmortem command may take; zero is without end. -/
  postmortemTimeout : Duration
  sessionLogger : Option CommandConfig
  sessionTimeout : Duration
  signals : List Int
  tempDirectory : Option String
  trapOnDebugger : Bool
  unwinder : UnwinderKind
  useAltStack : Bool
  deriving Repr, DecidableEq

/-- Why a configuration is refused. -/
inductive ConfigError where
  | unusedAltStack
  | invalidLogStem (stem : String)
  | emptyTempDirectory
  | duplicateSignals
  | invalidSignal (number : Int)
  deriving Repr, DecidableEq

/-- The wording of the refusal. -/
def ConfigError.message : ConfigError → String
  | .unusedAltStack => "Cannot create an altstack without using it"
  | .invalidLogStem stem => "Invalid log file prefix " ++ Text.quoted stem
  | .emptyTempDirectory => "Temporary directory must not be empty"
  | .duplicateSignals => "Signals contained duplicate elements"
  | .invalidSignal number => Signal.invalidNumber number

namespace Config

/-- How the names of log files begin unless configured. -/
def defaultLogStem : String := "st"

/-- How long the postmortem command may take unless configured. -/
def defaultPostmortemTimeout : Duration := .ofSeconds 300

/-- How long the session logger may take unless configured. -/
def defaultSessionTimeout : Duration := .ofSeconds 60

/-- The default configuration. -/
def standard : Config where
  createAltStack := false
  fatalStackLogging := false
  logStem := defaultLogStem
  postmortem := none
  postmortemTimeout := defaultPostmortemTimeout
  sessionLogger := none
  sessionTimeout := defaultSessionTimeout
  signals := Signal.defaults
  tempDirectory := none
  trapOnDebugger := true
  unwinder := .unwindTables
  useAltStack := false

/-- The first of some signal numbers that is none. -/
def firstInvalid (signals : List Int) : Option Int :=
  signals.find? fun n => (Signal.ofNumber? n).isNone

/-- The numbers without those that equal the one before them. -/
def withoutRepeats : List Int → List Int
  | [] => []
  | [n] => [n]
  | n :: m :: rest => if n = m then withoutRepeats (m :: rest) else n :: withoutRepeats (m :: rest)

/-- Does a number come more than once? Sorting brings those that are equal together. -/
def repeats (signals : List Int) : Bool :=
  (withoutRepeats (signals.mergeSort fun n m => decide (n ≤ m))).length ≠ signals.length

/-- Refuses what makes no sense: an alternative stack that is created but not used, a beginning of
    file names that is empty or leads into another directory, an empty directory, and signals that
    are repeated or do not exist. -/
def validate (c : Config) : Except ConfigError Unit :=
  if c.createAltStack && !c.useAltStack then .error .unusedAltStack
  else if c.logStem.toList.isEmpty || c.logStem.toList.contains '/' then
    .error (.invalidLogStem c.logStem)
  else if c.tempDirectory.any (·.toList.isEmpty) then .error .emptyTempDirectory
  else if repeats c.signals then .error .duplicateSignals
  else
    match firstInvalid c.signals with
    | some n => .error (.invalidSignal n)
    | none => .ok ()

/-- A configuration that was checked. -/
def checked (c : Config) : Except ConfigError Config := c.validate.map fun _ => c

/-- What is asked of a configuration; what is left open takes its default. -/
structure Request where
  postmortem : Option CommandConfig
  postmortemTimeout : Option Duration
  sessionLogger : Option CommandConfig
  sessionTimeout : Option Duration
  logStem : Option String
  tempDirectory : Option String
  unwinder : UnwinderKind
  /-- No signals stand for the default ones. -/
  signals : List Int
  createAltStack : Bool
  useAltStack : Bool
  deriving Repr, DecidableEq

/-- The request that leaves everything open. -/
def Request.none : Request :=
  ⟨.none, .none, .none, .none, .none, .none, .unwindTables, [], false, false⟩

/-- The configuration that a request asks for, unchecked. -/
def Request.config (r : Request) : Config where
  createAltStack := r.createAltStack
  fatalStackLogging := false
  logStem := r.logStem.getD defaultLogStem
  postmortem := r.postmortem
  postmortemTimeout := r.postmortemTimeout.getD defaultPostmortemTimeout
  sessionLogger := r.sessionLogger
  sessionTimeout := r.sessionTimeout.getD defaultSessionTimeout
  signals := if r.signals.isEmpty then Signal.defaults else r.signals
  tempDirectory := r.tempDirectory
  trapOnDebugger := true
  unwinder := r.unwinder
  useAltStack := r.useAltStack

/-- The configuration that a request asks for. -/
def ofRequest (r : Request) : Except ConfigError Config := r.config.checked

/-- Decides whether the stack traces of crashes are handed to the session logger. -/
def setFatalStackLogging (c : Config) (on : Bool) : Config := { c with fatalStackLogging := on }

/-- Decides whether a debugger takes over in a crash. -/
def setTrapOnDebugger (c : Config) (on : Bool) : Config := { c with trapOnDebugger := on }

/-- A change of a configuration in its place, which may be refused. What was written before it was
    refused stays written. -/
abbrev Change := ExceptT ConfigError (StateM Config) Unit

/-- Refuses to go on unless this is so. -/
def ensure (holds : Bool) (e : ConfigError) : Change := if holds then pure () else throw e

/-- What can be changed in a configuration once there is one. -/
inductive Setting where
  | fatalStackLogging
  | trapOnDebugger
  | createAltStack
  | useAltStack
  deriving Repr, DecidableEq

/-- Changes a setting. An alternative stack can be created only while handlers run on it. -/
def assign : Setting → Bool → Change
  | .fatalStackLogging, on => modify (·.setFatalStackLogging on)
  | .trapOnDebugger, on => modify (·.setTrapOnDebugger on)
  | .createAltStack, on => do
    ensure (!on || (← get).useAltStack) .unusedAltStack
    modify fun c => { c with createAltStack := on }
  | .useAltStack, on => do
    ensure (!(← get).createAltStack || on) .unusedAltStack
    modify fun c => { c with useAltStack := on }

/-- Makes a change: what comes of it, and the configuration as it is afterwards. -/
def make (change : Change) (c : Config) : Except ConfigError Unit × Config := change.run.run c

/-- The configuration after a change, if it is not refused. -/
def changed (change : Change) (c : Config) : Except ConfigError Config :=
  let (outcome, c) := make change c
  outcome.map fun _ => c

/-- Decides whether an alternative stack is created. -/
def setCreateAltStack (c : Config) (on : Bool) : Except ConfigError Config :=
  changed (assign .createAltStack on) c

/-- Decides whether handlers run on an alternative stack. -/
def setUseAltStack (c : Config) (on : Bool) : Except ConfigError Config :=
  changed (assign .useAltStack on) c

end Config

end Postmortem

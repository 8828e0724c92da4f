import Postmortem.Config
import Postmortem.Registry.ExtraLines
import Postmortem.Registry.ProgramInfo
import Postmortem.ReportLock
import Postmortem.Symbol.Table

/-! # The context of reports

What a process has said about itself and its reports. It is set up in ordinary operation, by calls
that either do all they were asked for or change nothing, and read in a crash, where nothing may be
waited for: a part that somebody is changing at that moment is left out or taken at its default.
-/

namespace Postmortem

/-- The names that reports use, as far as they were given. -/
structure Names where
  program : Option CString
  tempDirectory : Option CString
  logStem : Option CString
  deriving Repr, DecidableEq

namespace Names

/-- No names given. -/
def none : Names := ⟨.none, .none, .none⟩

/-- The program name, `libArch` unless one was given. -/
def programName (n : Names) : CString := n.program.getD (.text "libArch")

/-- The directory for log files. -/
def directory (n : Names) : CString := n.tempDirectory.getD (.text "/tmp")

/-- How the names of log files begin. -/
def stem (n : Names) : CString := n.logStem.getD (.text "st")

end Names

/-- The commands that reports run, and how long each may take. -/
structure Commands where
  postmortem : CommandTemplate
  postmortemTimeout : Duration
  session : CommandTemplate
  sessionTimeout : Duration
  deriving Repr, DecidableEq

/-- No commands. -/
def Commands.none : Commands :=
  ⟨.empty, Config.defaultPostmortemTimeout, .empty, Config.defaultSessionTimeout⟩

/-- The context of the reports of a process. -/
structure Context where
  names : Guarded Names
  commands : Guarded Commands
  programInfo : Guarded ProgramInfo
  extraLines : Guarded ExtraLines
  /-- What the process describes addresses with, if it has provided for that. -/
  symbolizer : Option Symbolizer
  reportLock : ReportLock
  /-- When the process was started, 0 as long as that is not known. -/
  launchTime : Int
  /-- Has a fatal report begun? -/
  crashing : Bool
  fatalStackLogging : Bool
  trapOnDebugger : Bool
  unwinder : UnwinderKind
  /-- Is the session logger run at the end of the process? -/
  loggedAtExit : Bool

namespace Context

/-- The context at the start of a program. -/
def initial : Context where
  names := .new .none
  commands := .new .none
  programInfo := .new .empty
  extraLines := .new .empty
  symbolizer := none
  reportLock := .free
  launchTime := 0
  crashing := false
  fatalStackLogging := false
  trapOnDebugger := true
  unwinder := .unwindTables
  loggedAtExit := false

/-- The names as a report uses them: what is being changed counts as not given. -/
def reportNames (c : Context) : Names := c.names.tryRead.getD .none

/-! ## Setting up -/

/-- A computation that changes the context in its place and may be refused. What was written before
    it was refused stays written. -/
abbrev Setup := ExceptT NulError (StateM Context)

namespace Setup

/-- Takes what a conversion comes to, or refuses to go on. -/
def take {α : Type} (converted : Except NulError α) : Setup α := ExceptT.mk (pure converted)

/-- Writes names. -/
def writeNames (f : Names → Names) : Setup Unit :=
  modify fun c => { c with names := c.names.put (f c.names.value) }

/-- Writes commands. -/
def writeCommands (f : Commands → Commands) : Setup Unit :=
  modify fun c => { c with commands := c.commands.put (f c.commands.value) }

end Setup

/-- Makes a change: what comes of it, and the context as it is afterwards. -/
def make (change : Setup Unit) (c : Context) : Except NulError Unit × Context := change.run.run c

/-- The context after a change, if it is not refused. -/
def changed (change : Setup Unit) (c : Context) : Except NulError Context :=
  let (outcome, c) := make change c
  outcome.map fun _ => c

/-- The C string for a path's program name. -/
def programOfPath (path : Bytes) : Except NulError CString :=
  CString.ofBytes (Bytes.baseName path)

/-- The names that `init` finds: the directory for temporary files, and the program. -/
def foundNames (m : Machine) (path : Option Bytes) : Except NulError (CString × Option CString) := do
  let path := path.or (m.executable.map Utf8.repair)
  let directory ← CString.ofBytes (Utf8.repair m.tempDirectory)
  let program ← CommandTemplate.optional programOfPath path
  return (directory, program)

/-- Records the time of the start, the program and the directory for temporary files. The time is
    recorded once, whatever comes of the rest; a directory that is known already stays. -/
def Setup.init (m : Machine) (path : Option Bytes) : Setup Unit := do
  modify fun c =>
    { c with launchTime := if c.launchTime = 0 then m.epochSeconds else c.launchTime }
  let (directory, program) ← Setup.take (foundNames m path)
  Setup.writeNames fun names =>
    { names with tempDirectory := names.tempDirectory.or (some directory) }
  Setup.writeNames fun names => { names with program := program.or names.program }

/-- Records what is known at the start of the process. -/
def init (c : Context) (m : Machine) (path : Option Bytes) : Except NulError Unit × Context :=
  make (Setup.init m path) c

/-- The commands of a configuration. -/
def commandsOf (config : Config) : Except NulError Commands := do
  let postmortem ← CommandTemplate.optional CommandTemplate.ofConfig config.postmortem
  let session ← CommandTemplate.optional CommandTemplate.ofConfig config.sessionLogger
  return {
    postmortem := postmortem.getD .empty
    postmortemTimeout := config.postmortemTimeout
    session := session.getD .empty
    sessionTimeout := config.sessionTimeout }

/-- Applies a configuration. The program name stays, and so does the directory unless the
    configuration names one. -/
def Setup.configure (config : Config) : Setup Unit := do
  let commands ← Setup.take (commandsOf config)
  let directory ← Setup.take (CommandTemplate.optional CString.ofString config.tempDirectory)
  let stem ← Setup.take (CString.ofString config.logStem)
  Setup.writeNames fun names =>
    { names with tempDirectory := directory.or names.tempDirectory, logStem := some stem }
  Setup.writeCommands fun _ => commands
  modify fun c => { c with fatalStackLogging := config.fatalStackLogging }
  modify fun c => { c with trapOnDebugger := config.trapOnDebugger }
  modify fun c => { c with unwinder := config.unwinder }

/-- The context once a configuration is applied. -/
def configure (c : Context) (config : Config) : Except NulError Context :=
  changed (Setup.configure config) c

/-- Gives the program a name, that of a path, or takes it back. -/
def Setup.programName (path : Option Bytes) : Setup Unit := do
  let program ← Setup.take (CommandTemplate.optional programOfPath path)
  Setup.writeNames fun names => { names with program }

/-- The context once the program has this name. -/
def setProgramName (c : Context) (path : Option Bytes) : Except NulError Context :=
  changed (Setup.programName path) c

/-- The program name as a text. -/
def programName (c : Context) : Bytes := Utf8.repair c.names.value.programName.bytes

/-- Sets the postmortem command with its templates. -/
def Setup.postmortem (command : Option String) (argv fatalArgv : Option (List String)) :
    Setup Unit := do
  let postmortem ← Setup.take (CommandTemplate.ofTexts command argv fatalArgv)
  Setup.writeCommands fun commands => { commands with postmortem }

/-- The context once the postmortem command is set. -/
def setPostmortem (c : Context) (command : Option String) (argv fatalArgv : Option (List String)) :
    Except NulError Context :=
  changed (Setup.postmortem command argv fatalArgv) c

/-- Sets the session logger with its templates for the end of a session and for a crash. -/
def Setup.sessionLogger (command : Option String) (argv crashArgv : Option (List String)) :
    Setup Unit := do
  let session ← Setup.take (CommandTemplate.ofTexts command argv crashArgv)
  Setup.writeCommands fun commands => { commands with session }

/-- The context once the session logger is set. -/
def setSessionLogger (c : Context) (command : Option String)
    (argv crashArgv : Option (List String)) : Except NulError Context :=
  changed (Setup.sessionLogger command argv crashArgv) c

/-- Decides whether the stack traces of crashes are handed to the session logger. -/
def setFatalStackLogging (c : Context) (on : Bool) : Context := { c with fatalStackLogging := on }

/-- Has the session logger run at the end of the process. -/
def logAtExit (c : Context) : Context := { c with loggedAtExit := true }

/-! ## Information for reports -/

/-- States a fact about the program; an empty value takes it back. -/
def setProgramInfo (c : Context) (key value : Bytes) : Except Poisoned Context := do
  let info ← c.programInfo.lock
  return { c with programInfo := c.programInfo.put (info.set key value) }

/-- The value stated for a key. -/
def programInfo? (c : Context) (key : Bytes) : Except Poisoned (Option Bytes) := do
  let info ← c.programInfo.lock
  return info.get? key

/-- Registers lines for reports under a key. -/
def setExtraLines (c : Context) (key : Bytes) (buffer : Option LineBuffer) :
    Except Poisoned Context := do
  let extra ← c.extraLines.lock
  return { c with extraLines := c.extraLines.put (extra.set key buffer) }

/-- The facts about the program as reports show them. -/
def programInfoText (c : Context) : Fragments :=
  match c.programInfo.tryRead with
  | some info => [info.rendered]
  | none => []

/-- The registered lines as reports show them, at most `max` of them. -/
def extraText (c : Context) (store : LineStore) (max : Option Nat) : Fragments :=
  match c.extraLines.tryRead with
  | some extra => extra.emit store max
  | none => []

/-- The processor time used in seconds, or else the time since the start of the process. -/
def elapsed (c : Context) (m : Machine) : Int :=
  m.usage.getD (m.clock - c.launchTime)

/-- What addresses are described with. -/
def currentSymbolizer (c : Context) (m : Machine) : Symbolizer :=
  c.symbolizer.getD m.symbols.symbolizer

end Context

end Postmortem

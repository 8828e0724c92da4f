import Postmortem.Check.ReportFile
import Postmortem.Config.Json
import Postmortem.Handler
import Postmortem.Rehearsal.Mode
import Postmortem.SessionEnd
import Postmortem.StackLog

/-! # Rehearsals

The rehearsal program is told a mode and a directory. It configures reports to go into the
directory, with a postmortem command that appends a line to each of them, and then does what its
mode says.
-/

namespace Postmortem.Rehearsal

/-- Why a rehearsal does not take place, or was not as it should be. -/
inductive RunError where
  /-- The first argument that is missing. -/
  | missingArgument (index : Nat)
  | unknownMode (name : Bytes)
  | extraArguments
  | configuration (e : ConfigError)
  | nul (e : NulError)
  | poisoned
  | handlers (e : RegisterError)
  /-- A report on a process that goes on says that it is crashing. -/
  | flagSet
  deriving Repr, DecidableEq

/-- The wording of the failure. -/
def RunError.message : RunError → Bytes
  | .missingArgument index => utf8 ("Unexpected number of arguments " ++ toString index)
  | .unknownMode name => Mode.unknown name
  | .extraArguments => utf8 "unexpected extra arguments"
  | .configuration e => utf8 e.message
  | .nul e => utf8 e.message
  | .poisoned => utf8 Poisoned.message
  | .handlers e => utf8 e.message
  | .flagSet => utf8 "nonfatal report set the crash flag"

/-- The mode and the directory that are asked for. -/
def parseArguments : List Bytes → Except RunError (Mode × Bytes)
  | [] => .error (.missingArgument 1)
  | name :: rest =>
    match Mode.ofName? name with
    | none => .error (.unknownMode name)
    | some mode =>
      match rest with
      | [] => .error (.missingArgument 2)
      | [directory] => .ok (mode, directory)
      | _ => .error .extraArguments

/-! ## The commands -/

/-- Where the shell is. -/
def shellPath : String := "/bin/sh"

/-- Where the program is that waits. -/
def sleepPath : String := "/bin/sleep"

/-- The script that appends a line to a report, with the process id and the reason. -/
def script : String := "echo \"postmortem ran for pid $1: $2\" >> \"$0\""

/-- The shell as far as it is needed here: it runs the script on the arguments after it. -/
def shell : Program where
  appends := [{
    target := 2
    text := [.literal Check.postmortemMark, .literal (utf8 " "), .argument 3, .literal (utf8 ": "),
      .argument 4, .literal [Bytes.newline]] }]
  lifetime := some 0
  ending := .exited 0
  recorded := false

/-- How long the hanging postmortem command runs, in seconds. -/
def sleepSeconds : Nat := 30

/-- The program that waits as long as it is told to here. -/
def sleeper : Program where
  appends := []
  lifetime := some sleepSeconds
  ending := .exited 0
  recorded := false

/-- The same arguments for all occasions. -/
def commandWith (path : String) (arguments : List String) : CommandConfig :=
  ⟨some path, some arguments, some arguments⟩

/-- The postmortem command that appends a line. -/
def echoCommand : CommandConfig :=
  commandWith shellPath ["$cmd", "-c", script, "$log", "$pid", "$reason"]

/-- The postmortem command that hangs. -/
def hangingCommand : CommandConfig := commandWith sleepPath ["$cmd", toString sleepSeconds]

/-- The configuration of a rehearsal. -/
def configuration (mode : Mode) (directory : Bytes) : Except ConfigError Config :=
  let (command, timeout) := match mode with
    | .postmortemTimeout => (hangingCommand, Duration.ofSeconds 1)
    | _ => (echoCommand, Duration.ofSeconds 30)
  let request := { Config.Request.none with
    postmortem := some command
    postmortemTimeout := some timeout
    tempDirectory := some (String.ofList (Utf8.decodeLossy directory))
    createAltStack := true
    useAltStack := true }
  (Config.ofRequest request).map (·.setTrapOnDebugger false)

/-! ## The run -/

/-- The heading of the extra line, which is the name of the program. -/
def heading : Bytes := utf8 "crashing_test_app"

/-- Sets the context up. -/
def prepare (mode : Mode) (config : Config) (w : World) : Except RunError World := do
  let (result, context) := w.context.init w.machine none
  let _ ← result.mapError .nul
  let context ← (context.configure config).mapError .nul
  let context ← (context.setProgramInfo (utf8 "mode") (utf8 mode.name)).mapError fun _ =>
    RunError.poisoned
  let lines := w.lines.put heading [utf8 ("running " ++ mode.name)]
  let context ← (context.setExtraLines heading (lines.find? heading)).mapError fun _ =>
    RunError.poisoned
  return { w with context, lines }

/-- Sets the context up in one step. -/
def setUp (mode : Mode) (config : Config) : Steps World (Except RunError Unit) :=
  Steps.act fun w =>
    match prepare mode config w with
    | .ok prepared => (.ok (), prepared)
    | .error e => (.error e, w)

/-- A thread, by its place among the threads of the program. -/
def thread (n : Nat) : ThreadId := ⟨n + 1, Nat.succ_pos n⟩

/-- Makes a fatal report. -/
def fatalReport (me : ThreadId) (reason : CString) : Steps World (Except Halt Unit) :=
  (Report.log ⟨true, reason, some (.text "reported by crashing_test_app"), none⟩ me).andThen fun _ =>
    return .ok ()

/-- Writes a line to the output stream. -/
def announce (what : String) (mode : Mode) : Steps World Unit :=
  World.machineStep (·.print (utf8 (what ++ "=" ++ mode.name ++ "\n")))

/-- Reads from an address where nothing is. -/
def crash : Steps World (Except Halt Unit) := do
  let c ← Steps.look (·.machine.circumstances Signal.segmentation.number)
  Handler.deliver (thread 0) Signal.segmentation.number c

/-- Checks that a report on a process that goes on has not marked it. -/
def checkFlag : Steps World (Except RunError Unit) := do
  if ← Steps.look (·.context.crashing) then return .error .flagSet else return .ok ()

/-- Does what a mode says. Two threads that report at once take turns, and as their reports are
    alike it makes no difference who comes first. -/
def perform (mode : Mode) (config : Config) : Steps World (Except Halt (Except RunError Unit)) :=
  match mode with
  | .segfault => do
    match ← Steps.act (Handler.register config) with
    | .error e => return .ok (.error (.handlers e))
    | .ok () =>
      announce "crashing" mode
      crash.andThen fun _ => return .ok (.ok ())
  | .fatal => (fatalReport (thread 0) (.text "fatal test")).andThen fun _ => return .ok (.ok ())
  | .postmortemTimeout =>
    (fatalReport (thread 0) (.text "timeout test")).andThen fun _ => return .ok (.ok ())
  | .concurrentFatal =>
    (fatalReport (thread 1) (.text "concurrent test")).andThen fun _ =>
      (fatalReport (thread 2) (.text "concurrent test")).andThen fun _ => return .ok (.ok ())
  | .nonfatal =>
    (Report.log ⟨false, .text "nonfatal test", none, none⟩ (thread 0)).andThen fun _ =>
      return .ok (← checkFlag)
  | .logStack =>
    (StackLog.log (thread 0) (utf8 (mode.name ++ " requested")) false none).andThen fun _ =>
      return .ok (.ok ())

/-- What the program does, up to its end. -/
def attempt (arguments : List Bytes) : Steps World (Except Halt (Except RunError Mode)) := do
  match parseArguments arguments with
  | .error e => return .ok (.error e)
  | .ok (mode, directory) =>
    match configuration mode directory with
    | .error e => return .ok (.error (.configuration e))
    | .ok config =>
      match ← setUp mode config with
      | .error e => return .ok (.error e)
      | .ok () => (perform mode config).andThen fun result => return .ok (result.map fun _ => mode)

/-- The end of the program, unless a signal has ended it: a failure is shown on the error stream. -/
def conclude (result : Except RunError Mode) : Steps World Unit := do
  if (← Steps.look (·.machine.fate)) = .running then
    match result with
    | .ok mode =>
      announce "finished" mode
      match ← Session.atExit (thread 0) with
      | .ok () => World.machineStep (·.finish (.exited 0))
      | .error _ => return ()
    | .error e =>
      World.machineStep fun m =>
        (m.say (utf8 "Error: " ++ e.message ++ [Bytes.newline])).finish (.exited 1)

/-- The rehearsal program. If it is held up on its way that is all there is; the timeouts of a
    rehearsal see to it that it is not. -/
def run (arguments : List Bytes) : Steps World Unit := do
  match ← attempt arguments with
  | .ok result => conclude result
  | .error _ => return ()

end Postmortem.Rehearsal

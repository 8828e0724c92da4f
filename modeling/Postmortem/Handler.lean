import Postmortem.Report

/-! # Crash handlers

For the signals of a configuration a process can have handlers that write a report and then hand the
signal on to what the process had provided for it before, so that apart from the report the signal
has the effect it would have had. Handlers are registered once in the life of a process.
-/

namespace Postmortem

/-- Why handlers cannot be registered. -/
inductive RegisterError where
  | alreadyRegistered
  /-- These signals, with the errors the system gave, have no handlers. -/
  | notInstalled (signals : List (Int × Errno))
  deriving Repr, DecidableEq

/-- The wording of the failure. -/
def RegisterError.message : RegisterError → String
  | .alreadyRegistered => "Crash handlers are already registered"
  | .notInstalled signals =>
    let items := signals.map fun (n, e) => Text.quotedChars (toString n ++ ": " ++ e.describe).toList
    "Unable to register crash handlers for " ++ String.ofList (Text.bracketed items)

namespace Handler

/-- Installs the handler for one signal and remembers what was there. -/
def install (n : Int) (w : World) : Option Errno × World :=
  match Signal.ofNumber? n with
  | none => (some .invalid, w)
  | some s =>
    if s.catchable then
      let before := w.machine.disposition s.number
      (none, { w with
        machine := w.machine.setDisposition s.number .crashReport
        handlers := { w.handlers with
          previous := w.handlers.previous ++ [(s.number, before)] } })
    else (some .invalid, w)

/-- Installs the handlers for some signals, and lists those that failed. -/
def installAll : List Int → World → List (Int × Errno) × World
  | [], w => ([], w)
  | n :: rest, w =>
    let (failure, w) := install n w
    let (failures, w) := installAll rest w
    match failure with
    | some e => ((n, e) :: failures, w)
    | none => (failures, w)

/-- Registers the crash handlers of a configuration, once. A signal that cannot be handled does not
    keep the others from getting their handlers. The signals of a valid configuration are all within
    the range of those that can be remembered; and that there is memory for a stack of the handlers,
    if the configuration asks for one, is taken for granted. If either were not so, nothing would be
    installed, and later registrations would be refused all the same. -/
def register (config : Config) (w : World) : Except RegisterError Unit × World :=
  if w.handlers.registered then (.error .alreadyRegistered, w)
  else
    let (failures, w) :=
      installAll config.signals { w with handlers := { w.handlers with registered := true } }
    (if failures.isEmpty then .ok () else .error (.notInstalled failures), w)

/-- What becomes of a handler whose report does not return. It must not panic, and the process is
    aborted if it does. -/
def abandon : Halt → Steps World (Except Halt Unit)
  | .panicked => do
    World.machineStep (·.finish (.killed Signal.abort.number))
    return .error .ended
  | halt => return .error halt

/-- The handler: a fatal report, and the signal is handed on. -/
def onCrash (me : ThreadId) (n : Int) (c : Circumstances) : Steps World (Except Halt Unit) := do
  match ← Report.log ⟨true, Signal.reasonOfNumber n, none, none⟩ me with
  | .ok _ =>
    Steps.change (World.forward n c)
    return .ok ()
  | .error halt => abandon halt

/-- A signal reaches a thread. -/
def deliver (me : ThreadId) (n : Int) (c : Circumstances) : Steps World (Except Halt Unit) := do
  match ← Steps.look fun w => w.machine.disposition n.toNat with
  | .crashReport => onCrash me n c
  | d =>
    World.machineStep (·.signalEffect n c d)
    return .ok ()

/-- A child of a thread that is not making a report has ended. -/
def childEnded (me : ThreadId) : Steps World (Except Halt Unit) := do
  deliver me Machine.childSignal (← Steps.look (·.machine.circumstances Machine.childSignal))

end Handler

end Postmortem

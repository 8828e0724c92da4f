import Postmortem.World

/-! # What signals do

A signal has the effect that the process has provided for. The handler that reports crashes ends with
handing the signal on to what was provided for it before. While a thread is making a report that is
all the handler does, for the report lock refuses it another one; and signals do come then, for every
command that a report runs tells of its end by one.
-/

namespace Postmortem

namespace Machine

/-- What a signal does by default. -/
def defaultEffect (m : Machine) (n : Int) : Machine :=
  match Signal.ofNumber? n with
  | none => m
  | some s =>
    match s.defaultAction with
    | .terminate => m.finish (.killed s.number)
    | .ignore => m
    | .suspend => { m with fate := .suspended }

/-- A handler of the process is called. -/
def callHandler (m : Machine) (n : Int) (circumstances : Option Circumstances) : Machine :=
  { m with calls := m.calls ++ [⟨n.toNat, circumstances⟩] }

/-- What a signal does if this is provided for it. The handlers of this library are left to their
    own definitions. -/
def signalEffect (m : Machine) (n : Int) (c : Circumstances) : Disposition → Machine
  | .standard => m.defaultEffect n
  | .ignored => m
  | .handler => m.callHandler n none
  | .infoHandler => m.callHandler n (some c)
  | .crashReport => m
  | .wakeUp => m

end Machine

namespace World

/-- What is said if a handler runs before it is known what there was before. -/
def nothingRecorded : Bytes := utf8 "No previous handler recorded for the crash signal, exiting\n"

/-- A crash handler hands a signal on, with all that it was given, to what was provided for it
    before. The default is put back first. -/
def forward (n : Int) (c : Circumstances) (w : World) : World :=
  match w.handlers.previous? n.toNat with
  | none => { w with machine := (w.machine.say nothingRecorded).finish (.exited 1) }
  | some .standard =>
    { w with machine := (w.machine.setDisposition n.toNat .standard).defaultEffect n }
  | some d => { w with machine := w.machine.signalEffect n c d }

/-- A signal reaches a thread that is making a report. -/
def interrupt (n : Int) (c : Circumstances) (w : World) : World :=
  match w.machine.disposition n.toNat with
  | .crashReport => forward n c w
  | d => { w with machine := w.machine.signalEffect n c d }

/-- A child of a thread that is making a report has ended. -/
def childEnded : Steps World (Except Halt Unit) := do
  Steps.change fun w =>
    interrupt Machine.childSignal (w.machine.circumstances Machine.childSignal) w
  return .ok ()

end World

end Postmortem

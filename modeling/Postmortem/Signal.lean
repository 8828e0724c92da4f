import Postmortem.CString

/-! # Signals

The standard signals of Linux on x86-64, numbered 1 to 31, with what they do to a process that has
not provided for them and the reason that a report gives for them.
-/

namespace Postmortem

/-- A signal that has a name. -/
structure Signal where
  number : Nat
  valid : 1 ≤ number ∧ number ≤ 31
  deriving Repr, DecidableEq

namespace Signal

/-- The signal with this number, if there is one. -/
def ofNumber? (n : Int) : Option Signal :=
  if h : 1 ≤ n.toNat ∧ n.toNat ≤ 31 then some ⟨n.toNat, h⟩ else none

def quit : Signal := ⟨3, by decide⟩
def illegalInstruction : Signal := ⟨4, by decide⟩
def trap : Signal := ⟨5, by decide⟩
def abort : Signal := ⟨6, by decide⟩
def bus : Signal := ⟨7, by decide⟩
def arithmetic : Signal := ⟨8, by decide⟩
def kill : Signal := ⟨9, by decide⟩
def segmentation : Signal := ⟨11, by decide⟩
def terminate : Signal := ⟨15, by decide⟩
def stop : Signal := ⟨19, by decide⟩
def badCall : Signal := ⟨31, by decide⟩

/-- The names in the order of the numbers. -/
def names : List String :=
  ["SIGHUP", "SIGINT", "SIGQUIT", "SIGILL", "SIGTRAP", "SIGABRT", "SIGBUS", "SIGFPE", "SIGKILL",
   "SIGUSR1", "SIGSEGV", "SIGUSR2", "SIGPIPE", "SIGALRM", "SIGTERM", "SIGSTKFLT", "SIGCHLD",
   "SIGCONT", "SIGSTOP", "SIGTSTP", "SIGTTIN", "SIGTTOU", "SIGURG", "SIGXCPU", "SIGXFSZ",
   "SIGVTALRM", "SIGPROF", "SIGWINCH", "SIGIO", "SIGPWR", "SIGSYS"]

/-- The symbolic name. -/
def name (s : Signal) : String := (names[s.number - 1]?).getD ""

/-- What a signal does to a process that has not provided for it. -/
inductive DefaultAction where
  | terminate
  | ignore
  | suspend
  deriving Repr, DecidableEq

/-- The default action: news of children, windows and urgent data is ignored, as is the request to
    go on; four signals suspend the process and the others end it. -/
def defaultAction (s : Signal) : DefaultAction :=
  if s.number ∈ [17, 18, 23, 28] then .ignore
  else if s.number ∈ [19, 20, 21, 22] then .suspend
  else .terminate

/-- Can a process provide for the signal? Killing and stopping are out of its hands. -/
def catchable (s : Signal) : Bool := s ≠ kill && s ≠ stop

/-- The signals handled unless others are asked for. -/
def defaults : List Int := [bus, abort, segmentation, illegalInstruction, arithmetic].map (·.number)

/-- The reason given for a signal that is not expected to end a program. -/
def unexpectedReason : CString := .text "received a fatal signal"

/-- The reason given in the report of a crash by this signal. -/
def reason (s : Signal) : CString :=
  if s = segmentation then .text "received SIGSEGV"
  else if s = bus then .text "received SIGBUS"
  else if s = illegalInstruction then .text "received SIGILL"
  else if s = arithmetic then .text "received SIGFPE"
  else if s = abort then .text "received SIGABRT"
  else if s = trap then .text "received SIGTRAP"
  else if s = badCall then .text "received SIGSYS"
  else if s = quit then .text "received SIGQUIT"
  else if s = terminate then .text "received SIGTERM"
  else unexpectedReason

/-- The reason given for a signal number. -/
def reasonOfNumber (n : Int) : CString :=
  match ofNumber? n with
  | some s => s.reason
  | none => unexpectedReason

/-- The complaint about a number that is no signal. -/
def invalidNumber (n : Int) : String := "Invalid signal number " ++ toString n

end Signal

end Postmortem

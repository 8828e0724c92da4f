import Postmortem.Spawn

/-! # Commands

A command that reports run has two templates for its arguments, one for ordinary and one for fatal
occasions. Either may be missing, and so may the command itself, which the environment can provide;
then nothing is run. Everything is made a C string when the command is configured, so that running
it needs no memory.
-/

namespace Postmortem

/-- A command as it is configured, in texts. -/
structure CommandConfig where
  command : Option String
  argv : Option (List String)
  fatalArgv : Option (List String)
  deriving Repr, DecidableEq

/-- A command ready to be run, with its templates for ordinary and fatal occasions. -/
structure CommandTemplate where
  command : Option CString
  argv : Option (List CString)
  fatalArgv : Option (List CString)
  deriving Repr, DecidableEq

namespace CommandTemplate

/-- No command. -/
def empty : CommandTemplate := ⟨none, none, none⟩

/-- The C strings of some texts; the first NUL in them counts. -/
def cstrings : List String → Except NulError (List CString)
  | [] => .ok []
  | text :: rest => do
    let first ← CString.ofString text
    return first :: (← cstrings rest)

/-- Applies a conversion to a text that may be missing. -/
def optional {α β : Type} (convert : α → Except NulError β) : Option α → Except NulError (Option β)
  | none => .ok none
  | some a => (convert a).map some

/-- Makes a command ready: its name, the ordinary template and the fatal one, in this order. -/
def ofTexts (command : Option String) (argv fatalArgv : Option (List String)) :
    Except NulError CommandTemplate := do
  let command ← optional CString.ofString command
  let argv ← optional cstrings argv
  let fatalArgv ← optional cstrings fatalArgv
  return ⟨command, argv, fatalArgv⟩

/-- Makes a configured command ready. -/
def ofConfig (config : CommandConfig) : Except NulError CommandTemplate :=
  ofTexts config.command config.argv config.fatalArgv

/-- The template for an occasion. -/
def template (t : CommandTemplate) (fatal : Bool) : Option (List CString) :=
  if fatal then t.fatalArgv else t.argv

/-- What is started on an occasion. -/
inductive Plan where
  /-- Nothing: there is no command, or no template for the occasion. -/
  | nothing
  /-- Nothing, for the template has too many arguments. -/
  | tooMany
  | program (path : CString) (argv : Argv)
  deriving Repr, DecidableEq

/-- Decides what to start. The command of the environment goes before the configured one. The
    program is the first argument after substitution, or the command if there are no arguments. -/
def plan (t : CommandTemplate) (override : Option CString) (fatal : Bool) (table : Substitutions) :
    Plan :=
  match override.or t.command, t.template fatal with
  | some command, some template =>
    match Argv.build command template table with
    | .ok argv => .program ((argv.get? 0).getD command) argv
    | .error _ => .tooMany
  | _, _ => .nothing

/-- The complaint about a template with too many arguments. -/
def tooManyLine (what : String) : Bytes :=
  utf8 ("Too many arguments to " ++ what ++ " command\n")

/-- Starts a command and waits for it. The result is what came of the program, if one was
    started. -/
def start (t : CommandTemplate) (override : CString) (fatal : Bool) (table : Substitutions)
    (timeout : Duration) (what : String) (m : Machine) : Option Spawned × Machine :=
  match t.plan (m.getenv override) fatal table with
  | .nothing => (none, m)
  | .tooMany => (none, m.say (tooManyLine what))
  | .program path argv =>
    let (spawned, m) := m.spawnAndWait path argv (some timeout)
    (some spawned, m)

/-- Runs a command, waits for it and reports its failure; true if a program was started, whatever
    became of it. -/
def run (t : CommandTemplate) (override : CString) (fatal : Bool) (table : Substitutions)
    (timeout : Duration) (what : String) (m : Machine) : Except Halt Bool × Machine :=
  match t.start override fatal table timeout what m with
  | (none, m) => (.ok false, m)
  | (some spawned, m) => (spawned.result.map fun _ => true, m.reportFailure spawned)

end CommandTemplate

end Postmortem

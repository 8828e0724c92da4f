import Postmortem.Proofs.LogFileCalls
import Postmortem.Report

/-! # What reports keep

A report changes nothing of what the process has said about itself, and gives nothing back that it
has made. All of this is said once, about every step of it; only the steps that take the report lock
and let go of it are left out.
-/

namespace Postmortem

namespace LogFile

theorem follows_attempt (path : CString) (m : Machine) : m.Follows (attempt path m).2 := by
  rw [attempt]
  split
  · next created =>
    obtain ⟨_, _, -, -, created⟩ := FileTree.created_of_createExclusive created
    exact Machine.follows_files created.grows
  · exact ⟨rfl, rfl, rfl, .refl m.files, List.prefix_rfl, List.prefix_rfl⟩

/-- The machine after an attempt to create a file. -/
def Attempted (m later : Machine) : Prop := ∃ path, later = (attempt path m).2

theorem search_always (size number : Nat) (name : Name) :
    (search size number name).Always Attempted := by
  obtain ⟨left, h⟩ : ∃ left, Decimal.tenTo nameCapacity - number = left := ⟨_, rfl⟩
  induction left using Nat.strong_induction_on generalizing number name with
  | _ left ih =>
      rw [search]
      intro m
      refine ⟨⟨_, rfl⟩, ?_⟩
      cases tried : (attempt name.asCString m).1 with
      | ok _ =>
          simp only [tried]
          trivial
      | error e =>
          simp only [tried]
          split
          · split
            · next next made =>
              have lt := lt_of_numbered made
              exact ih _ (by omega) (number + 1) next rfl
            · trivial
          · trivial

/-- Every step of the search is an attempt to create a file. -/
theorem create_always (dir stem program : CString) (pid : Int) :
    (create dir stem program pid).Always Attempted := by
  rw [create]
  split
  · exact search_always _ _ _
  · trivial

theorem follows_create (dir stem program : CString) (pid : Int) (m : Machine) :
    m.Follows ((create dir stem program pid).run m).2 := by
  refine Steps.Always.run Machine.Follows.refl (fun _ _ _ => Machine.Follows.trans) ?_ m
  refine (create_always dir stem program pid).imp ?_
  rintro m _ ⟨path, rfl⟩
  exact follows_attempt path m

end LogFile

namespace World

variable {childEnded : Steps World (Except Halt Unit)}

theorem afterWait_error {spawned : Spawned} {halt : Halt} (result : spawned.result = .error halt) :
    afterWait childEnded (some spawned) = pure (.error halt) := by
  simp only [afterWait, result]

theorem afterWait_ok {spawned : Spawned} {answer : Except SpawnError Nat}
    (result : spawned.result = .ok answer) :
    afterWait childEnded (some spawned) =
      (if spawned.childEnded then childEnded else return .ok ()).andThen fun _ =>
        machineStep (·.reportFailure spawned) >>= fun _ => return .ok true := by
  simp only [afterWait, result]

/-- What becomes of the process if a child of a thread that is making a report ends. -/
def heard (w : World) : World :=
  interrupt Machine.childSignal (w.machine.circumstances Machine.childSignal) w

/-- What becomes of the process once the wait for a program has come to its end. -/
def waited (spawned : Spawned) (w : World) : World :=
  let v := if spawned.childEnded then w.heard else w
  { v with machine := v.machine.reportFailure spawned }

theorem run_afterWait_ok {spawned : Spawned} {answer : Except SpawnError Nat}
    (result : spawned.result = .ok answer) (w : World) :
    (afterWait World.childEnded (some spawned)).run w = (.ok true, w.waited spawned) := by
  rw [afterWait_ok result, Steps.run_andThen, waited]
  by_cases ended : spawned.childEnded
  · simp only [if_pos ended]
    rfl
  · simp only [if_neg ended]
    rfl

/-! ## Every step of a report -/

/-- What holds of the steps of which reports are made, each as it is made in any state. -/
structure Covers (R : World → World → Prop) : Prop where
  refl : ∀ w, R w w
  say : ∀ w bytes, R w { w with machine := w.machine.say bytes }
  append : ∀ w path bytes, R w { w with machine := w.machine.appendTo path bytes }
  attempt : ∀ w path, R w { w with machine := (LogFile.attempt path w.machine).2 }
  setErrno : ∀ w errno, R w { w with machine := { w.machine with errno } }
  start : ∀ w (t : CommandTemplate) override fatal table timeout what,
    R w { w with machine := (t.start override fatal table timeout what w.machine).2 }
  complain : ∀ w spawned, R w { w with machine := w.machine.reportFailure spawned }
  interrupt : ∀ w n c, R w (interrupt n c w)
  finish : ∀ w ending, R w { w with machine := w.machine.finish ending }

namespace Covers

variable {R : World → World → Prop}

theorem always_look {α : Type} (h : Covers R) (f : World → α) : (Steps.look f).Always R :=
  Steps.always_look h.refl f

theorem always_say (h : Covers R) (text : Fragments) : (World.say text).Always R := by
  induction text with
  | nil => trivial
  | cons fragment rest ih =>
      exact Steps.always_bind (Steps.always_change fun w => h.say w fragment) fun _ => ih

theorem always_append (h : Covers R) (path : Bytes) (text : Fragments) :
    (World.append path text).Always R := by
  induction text with
  | nil => trivial
  | cons fragment rest ih =>
      exact Steps.always_bind (Steps.always_change fun w => h.append w path fragment) fun _ => ih

theorem always_create (h : Covers R) (dir stem program : CString) (pid : Int) :
    (onMachine (LogFile.create dir stem program pid)).Always R := by
  refine Steps.always_within (LogFile.create_always dir stem program pid) ?_
  rintro w _ ⟨path, rfl⟩
  exact h.attempt w path

theorem always_startCommand (h : Covers R) (select : Commands → CommandTemplate × Duration)
    (override : CString) (fatal : Bool) (table : World → Substitutions) (what : String) :
    (startCommand select override fatal table what).Always R := by
  refine Steps.always_act fun w => ?_
  split
  · exact h.refl w
  · exact h.start w _ _ _ _ _ _

theorem always_childEnded (h : Covers R) : World.childEnded.Always R :=
  Steps.always_bind (Steps.always_change fun w => h.interrupt w _ _) fun _ => trivial

theorem always_afterWait (h : Covers R) (ended : childEnded.Always R) (started : Option Spawned) :
    (afterWait childEnded started).Always R := by
  cases started with
  | none => trivial
  | some spawned =>
      cases result : spawned.result with
      | error halt =>
          rw [afterWait_error result]
          trivial
      | ok answer =>
          rw [afterWait_ok result]
          apply Steps.always_andThen
          · split
            · exact ended
            · trivial
          · intro _
            exact Steps.always_bind (Steps.always_change fun w => h.complain w spawned) fun _ => trivial

theorem always_runCommand (h : Covers R) (ended : childEnded.Always R)
    (select : Commands → CommandTemplate × Duration) (override : CString) (fatal : Bool)
    (table : World → Substitutions) (what : String) :
    (runCommand childEnded select override fatal table what).Always R :=
  Steps.always_bind (h.always_startCommand _ _ _ _ _) (h.always_afterWait ended)

/-- After a report there is no session log to append, and the session logger is told at once. -/
theorem always_finish (h : Covers R) (program stackFile : CString) :
    (Session.finish World.childEnded program stackFile none true).Always R := by
  show (Steps.look (·.context.fatalStackLogging) >>= fun on => _).Always R
  refine Steps.always_bind (h.always_look _) fun on => ?_
  split
  · exact Steps.always_andThen (h.always_runCommand h.always_childEnded _ _ _ _ _) fun _ => trivial
  · trivial

end Covers

end World

namespace Report

/-- The report once the preamble is in the log file. -/
def announced (r : Report) (program logName : CString) : Steps World (Except Halt Unit) := do
  let banner := Banner.ofProgram program.bytes
  let text ← Steps.look fun w => announcement w banner program r.reason r.message logName
  World.say text
  (r.runPostmortem logName).andThen (concluded banner program logName)

theorem writeTo_eq (r : Report) (program logName : CString) :
    r.writeTo program logName = (Steps.look fun w => preamble w r.reason r.message r.extra) >>=
      fun text => World.append logName.bytes text >>= fun _ => r.announced program logName :=
  rfl

theorem make_eq (r : Report) :
    r.make = if r.fatal then Steps.change markCrashing >>= fun _ => r.unmarked else r.unmarked :=
  rfl

end Report

namespace World.Covers

variable {R : World → World → Prop}

theorem always_concluded (h : Covers R) (banner : Banner) (program logName : CString) (ran : Bool) :
    (Report.concluded banner program logName ran).Always R := by
  refine Steps.always_bind (h.always_look _) fun text => ?_
  refine Steps.always_bind (h.always_say text) fun _ => ?_
  split
  · exact h.always_finish _ _
  · trivial

theorem always_announced (h : Covers R) (r : Report) (program logName : CString) :
    (r.announced program logName).Always R := by
  refine Steps.always_bind (h.always_look _) fun text => ?_
  refine Steps.always_bind (h.always_say text) fun _ => ?_
  exact Steps.always_andThen (h.always_runCommand h.always_childEnded _ _ _ _ _)
    (h.always_concluded _ program logName)

theorem always_writeTo (h : Covers R) (r : Report) (program logName : CString) :
    (r.writeTo program logName).Always R := by
  rw [Report.writeTo_eq]
  refine Steps.always_bind (h.always_look _) fun text => ?_
  exact Steps.always_bind (h.always_append _ text) fun _ => h.always_announced r program logName

theorem always_continued (h : Covers R) (r : Report) (program : CString)
    (result : Except LogFileError CString) : (r.continued program result).Always R := by
  cases result with
  | ok logName => exact h.always_writeTo r program logName
  | error e =>
      refine Steps.always_bind (h.always_say _) fun _ => ?_
      exact Steps.always_bind (Steps.always_change fun w => h.setErrno w e.errno) fun _ => trivial

theorem always_written (h : Covers R) (r : Report) : r.written.Always R := by
  refine Steps.always_bind (h.always_look _) fun names => ?_
  refine Steps.always_bind (h.always_look _) fun pid => ?_
  refine Steps.always_bind (h.always_create _ _ _ _) fun result => ?_
  exact h.always_continued r names.programName result

theorem always_surrender (h : Covers R) : Report.surrender.Always R :=
  Steps.always_bind (Steps.always_change fun w => h.finish w _) fun _ => trivial

theorem always_unmarked (h : Covers R) (r : Report) : r.unmarked.Always R := by
  refine Steps.always_bind (h.always_look _) fun trapped => ?_
  split
  · exact h.always_surrender
  · exact h.always_written r

end World.Covers

/-- After a report the session logger is all that there is to a session. -/
theorem Session.run_finish (program stackFile : CString) (w : World) :
    (finish World.childEnded program stackFile none true).run w =
      if w.context.fatalStackLogging then
        (((invoke World.childEnded program (some stackFile)).run w).1.map fun _ => (),
          ((invoke World.childEnded program (some stackFile)).run w).2)
      else (.ok (), w) := by
  show (Steps.look (·.context.fatalStackLogging) >>= fun on => _).run w = _
  rw [Steps.run_bind, Steps.run_look]
  split
  · exact Steps.run_andThen_pure _ _ w
  · rfl

/-! ## What is kept -/

namespace World

/-- What every step of a report leaves as it is, or only adds to. -/
structure Follows (w later : World) : Prop where
  machine : w.machine.Follows later.machine
  context : later.context = { w.context with crashing := later.context.crashing }
  lines : later.lines = w.lines

theorem Follows.refl (w : World) : w.Follows w := ⟨.refl w.machine, rfl, rfl⟩

theorem Follows.trans {u v w : World} (h : u.Follows v) (h' : v.Follows w) : u.Follows w where
  machine := h.machine.trans h'.machine
  context := by rw [h'.context, h.context]
  lines := h'.lines.trans h.lines

theorem Follows.reportLock {w later : World} (h : w.Follows later) :
    later.context.reportLock = w.context.reportLock := by
  rw [h.context]

theorem Follows.reportNames {w later : World} (h : w.Follows later) :
    later.context.reportNames = w.context.reportNames := by
  rw [h.context]
  rfl

/-- What every step of a computation does, all of it does. -/
theorem follows_run {α : Type} {c : Steps World α} (h : c.Always Follows) (w : World) :
    w.Follows (c.run w).2 :=
  h.run Follows.refl (fun _ _ _ => Follows.trans) w

theorem follows_machine {w : World} {machine : Machine} (h : w.machine.Follows machine) :
    w.Follows { w with machine } :=
  ⟨h, rfl, rfl⟩

theorem run_onMachine {α : Type} (c : Steps Machine α) (w : World) :
    (onMachine c).run w = ((c.run w.machine).1, { w with machine := (c.run w.machine).2 }) := by
  apply Steps.run_within
  · exact fun _ _ => rfl
  · exact fun _ _ _ => rfl
  · exact fun _ => rfl

theorem follows_forward (n : Int) (c : Circumstances) (w : World) :
    w.Follows (forward n c w) := by
  rw [forward]
  split
  · exact follows_machine ((w.machine.follows_say _).trans (Machine.follows_finish _ _))
  · exact follows_machine
      ((w.machine.follows_setDisposition _ _).trans (Machine.follows_defaultEffect _ _))
  · exact follows_machine (w.machine.follows_signalEffect _ _ _)

theorem follows_interrupt (n : Int) (c : Circumstances) (w : World) :
    w.Follows (interrupt n c w) := by
  rw [interrupt]
  split
  · exact follows_forward n c w
  · exact follows_machine (w.machine.follows_signalEffect _ _ _)

theorem follows_waited (spawned : Spawned) (w : World) : w.Follows (w.waited spawned) := by
  have told (v : World) :
      v.Follows { v with machine := v.machine.reportFailure spawned } :=
    follows_machine (v.machine.follows_reportFailure spawned)
  rw [waited]
  split
  · exact (follows_interrupt _ _ w).trans (told w.heard)
  · exact told w

theorem covers_follows : Covers Follows where
  refl := .refl
  say w _ := follows_machine (w.machine.follows_say _)
  append w _ _ := follows_machine (w.machine.follows_appendTo _ _)
  attempt _ _ := follows_machine (LogFile.follows_attempt _ _)
  setErrno w _ := follows_machine ⟨rfl, rfl, rfl, .refl w.machine.files, List.prefix_rfl, List.prefix_rfl⟩
  start w _ _ _ _ _ _ := follows_machine (w.machine.follows_start _ _ _ _ _ _)
  complain w _ := follows_machine (w.machine.follows_reportFailure _)
  interrupt w n c := follows_interrupt n c w
  finish w _ := follows_machine (w.machine.follows_finish _)

theorem follows_runCommand (select : Commands → CommandTemplate × Duration) (override : CString)
    (fatal : Bool) (table : World → Substitutions) (what : String) (w : World) :
    w.Follows ((runCommand childEnded select override fatal table what).run w).2 :=
  follows_run (covers_follows.always_runCommand covers_follows.always_childEnded _ _ _ _ _) w

end World

namespace Report

theorem follows_markCrashing (w : World) : w.Follows (markCrashing w) :=
  ⟨.refl w.machine, rfl, rfl⟩

theorem make_always (r : Report) : r.make.Always World.Follows := by
  have unmarked := World.covers_follows.always_unmarked r
  rw [make_eq]
  split
  · exact Steps.always_bind (Steps.always_change follows_markCrashing) fun _ => unmarked
  · exact unmarked

theorem follows_continued (r : Report) (program : CString)
    (result : Except LogFileError CString) (w : World) :
    w.Follows ((r.continued program result).run w).2 :=
  World.follows_run (World.covers_follows.always_continued r program result) w

end Report

end Postmortem

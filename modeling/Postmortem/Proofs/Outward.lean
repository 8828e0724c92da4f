import Postmortem.Proofs.World

/-! # What reports do to the outside

But for the mark of a fatal one, a report leaves all that the process keeps for reports as it is: its
steps are on the machine. There they create files and append to them, and no byte that was in a
file goes away.
-/

namespace Postmortem

namespace Machine

theorem extends_becomeProgram (m : Machine) (path : CString) (argv : Argv) :
    m.files.Extends (m.becomeProgram path argv).2.files := by
  rw [becomeProgram]
  split
  · exact extends_perform _ _ _ _
  · exact .refl m.files

theorem extends_spawnAndWait (m : Machine) (path : CString) (argv : Argv)
    (timeout : Option Duration) : m.files.Extends (m.spawnAndWait path argv timeout).2.files := by
  rw [spawnAndWait]
  split
  · exact .refl m.files
  · exact extends_becomeProgram m path argv

theorem extends_start (m : Machine) (t : CommandTemplate) (override : CString) (fatal : Bool)
    (table : Substitutions) (timeout : Duration) (what : String) :
    m.files.Extends (t.start override fatal table timeout what m).2.files := by
  rw [CommandTemplate.start]
  split
  · exact .refl m.files
  · exact .refl m.files
  · exact extends_spawnAndWait _ _ _ _

@[simp] theorem files_reportFailure (m : Machine) (spawned : Spawned) :
    (m.reportFailure spawned).files = m.files := by
  rw [reportFailure]
  split <;> rfl

@[simp] theorem files_finish (m : Machine) (ending : Ending) : (m.finish ending).files = m.files := by
  rw [finish]
  split <;> rfl

@[simp] theorem files_defaultEffect (m : Machine) (n : Int) : (m.defaultEffect n).files = m.files := by
  rw [defaultEffect]
  split
  · rfl
  · split
    · exact files_finish _ _
    · rfl
    · rfl

@[simp] theorem files_signalEffect (m : Machine) (n : Int) (c : Circumstances) (d : Disposition) :
    (m.signalEffect n c d).files = m.files := by
  cases d with
  | standard => exact files_defaultEffect m n
  | ignored | handler | infoHandler | crashReport | wakeUp => rfl

end Machine

theorem LogFile.extends_attempt (path : CString) (m : Machine) :
    m.files.Extends (attempt path m).2.files := by
  rw [attempt]
  split
  · next created => exact FileTree.extends_of_createExclusive created
  · exact .refl m.files

namespace World

/-- Only the machine is worked on, and there is nothing but additions to its files. -/
structure Outward (w later : World) : Prop where
  context : later.context = w.context
  lines : later.lines = w.lines
  handlers : later.handlers = w.handlers
  files : w.machine.files.Extends later.machine.files

variable {u v w : World} {machine : Machine}

theorem Outward.refl (w : World) : w.Outward w := ⟨rfl, rfl, rfl, .refl w.machine.files⟩

theorem Outward.trans (h : u.Outward v) (h' : v.Outward w) : u.Outward w where
  context := h'.context.trans h.context
  lines := h'.lines.trans h.lines
  handlers := h'.handlers.trans h.handlers
  files := h.files.trans h'.files

/-- What every step of a computation does, all of it does. -/
theorem outward_run {α : Type} {c : Steps World α} (h : c.Always Outward) (w : World) :
    w.Outward (c.run w).2 :=
  h.run Outward.refl (fun _ _ _ => Outward.trans) w

theorem outward_machine (h : w.machine.files.Extends machine.files) :
    w.Outward { w with machine } :=
  ⟨rfl, rfl, rfl, h⟩

theorem outward_of_files (h : machine.files = w.machine.files) : w.Outward { w with machine } :=
  outward_machine (h ▸ .refl w.machine.files)

theorem outward_forward (n : Int) (c : Circumstances) (w : World) :
    w.Outward (forward n c w) := by
  rw [forward]
  split
  · exact outward_of_files (by simp only [Machine.files_finish]; rfl)
  · exact outward_of_files (by simp only [Machine.files_defaultEffect]; rfl)
  · exact outward_of_files (by simp only [Machine.files_signalEffect])

theorem outward_interrupt (n : Int) (c : Circumstances) (w : World) :
    w.Outward (interrupt n c w) := by
  rw [interrupt]
  split
  · exact outward_forward n c w
  · exact outward_of_files (by simp only [Machine.files_signalEffect])

theorem files_interrupt (n : Int) (c : Circumstances) (w : World) :
    (interrupt n c w).machine.files = w.machine.files := by
  rw [interrupt]
  split
  · rw [forward]
    split
    · simp only [Machine.files_finish]
      rfl
    · simp only [Machine.files_defaultEffect]
      rfl
    · simp only [Machine.files_signalEffect]
  · simp only [Machine.files_signalEffect]

theorem files_waited (spawned : Spawned) (w : World) :
    (w.waited spawned).machine.files = w.machine.files := by
  rw [waited, Machine.files_reportFailure]
  split
  · exact files_interrupt _ _ w
  · rfl

theorem files_afterWait (started : Option Spawned) (w : World) :
    ((afterWait childEnded started).run w).2.machine.files = w.machine.files := by
  cases started with
  | none => rfl
  | some spawned =>
      cases result : spawned.result with
      | error halt => rw [afterWait_error result, Steps.run_pure]
      | ok answer => rw [run_afterWait_ok result, files_waited]

/-- What follows the start of a command is nothing to the files. -/
theorem files_runCommand (select : Commands → CommandTemplate × Duration) (override : CString)
    (fatal : Bool) (table : World → Substitutions) (what : String) (w : World) :
    ((runCommand childEnded select override fatal table what).run w).2.machine.files =
      ((startCommand select override fatal table what).run w).2.machine.files := by
  rw [runCommand, Steps.run_bind, files_afterWait]

theorem covers_outward : Covers Outward where
  refl := .refl
  say w _ := outward_machine (.refl w.machine.files)
  append w _ _ := outward_machine (w.machine.extends_appendTo _ _)
  attempt w _ := outward_machine (LogFile.extends_attempt _ w.machine)
  setErrno w _ := outward_machine (.refl w.machine.files)
  start w _ _ _ _ _ _ := outward_machine (w.machine.extends_start _ _ _ _ _ _)
  complain w _ := outward_of_files (w.machine.files_reportFailure _)
  interrupt w n c := outward_interrupt n c w
  finish w _ := outward_of_files (w.machine.files_finish _)

end World

namespace Report

variable {w : World}

/-- A report of which the process is marked already keeps all that it has to do with. -/
theorem outward_unmarked (r : Report) (w : World) : w.Outward (r.unmarked.run w).2 :=
  World.outward_run (World.covers_outward.always_unmarked r) w

end Report

end Postmortem

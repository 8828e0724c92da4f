import Postmortem.Proofs.World

/-! # Reports one after another

What a call does if it finds the report lock free and nobody else makes a step meanwhile, and what
comes of many such calls.
-/

namespace Postmortem

namespace World

variable {w : World} {name : CString}

/-- What the search for a log file would come to in this state. -/
def search (w : World) : Except LogFileError CString × Machine :=
  let names := w.context.reportNames
  (LogFile.create names.directory names.stem names.programName w.machine.pid).run w.machine

/-- The log file that a report gets in this state. If a debugger gets the process there is none. -/
def logFile? (w : World) : Option CString := if w.trapped then none else w.search.1.toOption

theorem trapped_of_logFile (h : w.logFile? = some name) : w.trapped = false := by
  rw [logFile?] at h
  split at h
  · cases h
  · next free => exact Bool.eq_false_iff.mpr free

theorem search_of_logFile (h : w.logFile? = some name) : w.search.1 = .ok name := by
  have free := trapped_of_logFile h
  simp only [logFile?, free, Bool.false_eq_true, if_false] at h
  cases found : w.search.1 with
  | ok name' =>
      rw [found] at h
      exact congrArg Except.ok (Option.some.inj h)
  | error e =>
      rw [found] at h
      cases h

theorem createExclusive_of_logFile (h : w.logFile? = some name) :
    w.machine.files.createExclusive w.machine.working name.bytes = .ok w.search.2.files :=
  LogFile.createExclusive_of_create (search_of_logFile h)

theorem not_taken_of_logFile (h : w.logFile? = some name) :
    ¬ w.machine.files.Taken w.machine.working name.bytes := by
  intro taken
  have created := createExclusive_of_logFile h
  rw [taken] at created
  cases created

theorem follows_search (w : World) : w.machine.Follows w.search.2 :=
  LogFile.follows_create _ _ _ _ _

theorem taken_after_search (h : w.logFile? = some name) :
    w.search.2.files.Taken w.search.2.working name.bytes := by
  obtain ⟨_, _, -, -, created⟩ :=
    FileTree.created_of_createExclusive (createExclusive_of_logFile h)
  rw [(follows_search w).working]
  exact created.taken

end World

namespace Report

variable {w : World}

theorem run_written (r : Report) (w : World) :
    r.written.run w = (r.continued w.context.reportNames.programName w.search.1).run
      { w with machine := w.search.2 } := by
  simp only [written, Steps.run_bind, Steps.run_look, World.run_onMachine]
  rfl

theorem run_unmarked (r : Report) (w : World) :
    r.unmarked.run w = if w.trapped then
        (.error .ended, { w with machine := w.machine.finish (.exited 0) })
      else r.written.run w := by
  show (if w.trapped then surrender else r.written).run w = _
  split
  · rfl
  · rfl

/-- The state in which a call begins its report. -/
def entered (r : Report) (me : ThreadId) (w : World) : World :=
  let taken := { w with context := { w.context with reportLock := ⟨me.number⟩ } }
  if r.fatal then markCrashing taken else taken

@[simp] theorem machine_entered (r : Report) (me : ThreadId) (w : World) :
    (r.entered me w).machine = w.machine := by
  rw [entered]
  split <;> rfl

@[simp] theorem lines_entered (r : Report) (me : ThreadId) (w : World) :
    (r.entered me w).lines = w.lines := by
  rw [entered]
  split <;> rfl

@[simp] theorem reportNames_entered (r : Report) (me : ThreadId) (w : World) :
    (r.entered me w).context.reportNames = w.context.reportNames := by
  rw [entered]
  split <;> rfl

@[simp] theorem search_entered (r : Report) (me : ThreadId) (w : World) :
    (r.entered me w).search = w.search := by
  simp only [World.search, machine_entered, reportNames_entered]

@[simp] theorem trapped_entered (r : Report) (me : ThreadId) (w : World) :
    (r.entered me w).trapped = w.trapped := by
  rw [entered]
  split <;> rfl

theorem run_make (r : Report) (w : World) :
    r.make.run w = r.unmarked.run (if r.fatal then markCrashing w else w) := by
  rw [make_eq]
  split
  · simp only [Steps.run_bind, Steps.run_change]
  · rfl

theorem ask_of_free (me : ThreadId) (h : w.context.reportLock.owner = 0) :
    ask me w =
      (.acquired, { w with context := { w.context with reportLock := ⟨me.number⟩ } }) := by
  simp only [ask, ReportLock.attempt, if_pos h]

theorem ask_of_held (me : ThreadId) (h : w.context.reportLock.owner ≠ 0)
    (other : w.context.reportLock.owner ≠ me.number) : ask me w = (.retry, w) := by
  simp only [ask, ReportLock.attempt, if_neg h, if_neg other]

/-- A call begins with an attempt to take the lock. -/
theorem log_eq (r : Report) (me : ThreadId) :
    r.log me = .step (fun w => (ask me w).2) fun w =>
      (r.afterAttempt (ask me w).1).andThen fun _ => pure (.ok (ask me w).1) :=
  rfl

/-- What a call comes to that finds the lock free, up to where it lets go of it. -/
def made (r : Report) (me : ThreadId) (w : World) : Except Halt Unit × World :=
  r.unmarked.run (r.entered me w)

/-- The state in which the search for the log file of a call has come to an end. -/
def searched (r : Report) (me : ThreadId) (w : World) : World :=
  { r.entered me w with machine := w.search.2 }

theorem made_of_untrapped (r : Report) (me : ThreadId) (untrapped : w.trapped = false) :
    r.made me w =
      (r.continued w.context.reportNames.programName w.search.1).run (r.searched me w) := by
  rw [made, run_unmarked, trapped_entered, untrapped, run_written, search_entered,
    reportNames_entered]
  rfl

/-- What a call does whose log file is there. -/
theorem made_of_logFile (r : Report) (me : ThreadId) {logName : CString}
    (created : w.logFile? = some logName) :
    r.made me w =
      (r.writeTo w.context.reportNames.programName logName).run (r.searched me w) := by
  rw [made_of_untrapped r me (World.trapped_of_logFile created), World.search_of_logFile created]
  rfl

theorem made_of_trapped (r : Report) (me : ThreadId) (trapped : w.trapped = true) :
    r.made me w = (.error .ended,
      { r.entered me w with machine := w.machine.finish (.exited 0) }) := by
  rw [made, run_unmarked, trapped_entered, trapped, machine_entered]
  rfl

/-- What a call does that finds the lock free. -/
theorem run_log (r : Report) (me : ThreadId) (h : w.context.reportLock = .free) :
    (r.log me).run w = ((r.made me w).1.map fun _ => .acquired,
      if leaves (r.made me w).1 then leave (r.made me w).2 else (r.made me w).2) := by
  have asked := ask_of_free me (show w.context.reportLock.owner = 0 by rw [h]; rfl)
  have begun : r.make.run (ask me w).2 = r.made me w := by
    rw [run_make, asked]
    rfl
  have acquired : (ask me w).1 = .acquired := by rw [asked]
  have whole : r.makeAndLeave.run (ask me w).2 = ((r.made me w).1,
      if leaves (r.made me w).1 then leave (r.made me w).2 else (r.made me w).2) := by
    simp only [makeAndLeave, Steps.run_bind, begun]
    split
    · rfl
    · rfl
  show ((r.afterAttempt (ask me w).1).andThen fun _ => pure (.ok (ask me w).1)).run (ask me w).2 = _
  rw [acquired, afterAttempt, Steps.run_andThen_pure, whole]

theorem machine_after_log (r : Report) (me : ThreadId) (h : w.context.reportLock = .free) :
    ((r.log me).run w).2.machine = (r.made me w).2.machine := by
  rw [run_log r me h]
  split
  · rfl
  · rfl

theorem follows_made (r : Report) (me : ThreadId) (w : World) :
    (r.entered me w).Follows (r.made me w).2 :=
  World.follows_run (World.covers_follows.always_unmarked r) _

/-- Whether the call returns or not, the machine has only been added to. -/
theorem machine_follows_log (r : Report) (me : ThreadId) (h : w.context.reportLock = .free) :
    w.machine.Follows ((r.log me).run w).2.machine := by
  rw [machine_after_log r me h, ← machine_entered r me w]
  exact (follows_made r me w).machine

/-- The call returns. -/
def Returns (r : Report) (me : ThreadId) (w : World) : Prop :=
  ∃ attempt, ((r.log me).run w).1 = .ok attempt

theorem made_of_returns {r : Report} {me : ThreadId} (h : w.context.reportLock = .free)
    (returns : r.Returns me w) : (r.made me w).1 = .ok () := by
  obtain ⟨attempt, returned⟩ := returns
  rw [run_log r me h] at returned
  cases result : (r.made me w).1 with
  | ok _ => rfl
  | error halt =>
      rw [result] at returned
      cases returned

/-- The debugger gets no process of which a call returns. -/
theorem untrapped_of_returns {r : Report} {me : ThreadId} (h : w.context.reportLock = .free)
    (returns : r.Returns me w) : w.trapped = false := by
  cases trapped : w.trapped with
  | false => rfl
  | true =>
      have returned := made_of_returns h returns
      rw [made_of_trapped r me trapped] at returned
      cases returned

/-- A call that finds the lock free and returns has made its report and let go of the lock. -/
theorem run_log_of_returns {r : Report} {me : ThreadId} (h : w.context.reportLock = .free)
    (returns : r.Returns me w) : (r.log me).run w = (.ok .acquired, leave (r.made me w).2) := by
  rw [run_log r me h, made_of_returns h returns]
  rfl

theorem follows_log {r : Report} {me : ThreadId} (h : w.context.reportLock = .free)
    (returns : r.Returns me w) : w.Follows ((r.log me).run w).2 := by
  have made := follows_made r me w
  rw [run_log_of_returns h returns]
  have context : w.context = { (r.entered me w).context with
      reportLock := .free, crashing := w.context.crashing } := by
    rw [entered, ← h]
    split <;> rfl
  refine ⟨machine_entered r me w ▸ made.machine, ?_, made.lines.trans (lines_entered r me w)⟩
  show { (r.made me w).2.context with reportLock := ReportLock.free } = _
  rw [made.context, context]
  rfl

/-- The log file is there after the call. -/
theorem taken_after_log (r : Report) (me : ThreadId) {name : CString}
    (h : w.context.reportLock = .free) (created : w.logFile? = some name) :
    ((r.log me).run w).2.machine.files.Taken ((r.log me).run w).2.machine.working name.bytes := by
  have here := World.taken_after_search created
  rw [machine_after_log r me h, made_of_untrapped r me (World.trapped_of_logFile created)]
  exact (r.follows_continued _ _ _).machine.taken here

/-! ## Sequences -/

/-- Calls made one at a time, by the threads given with them, until one does not return. -/
def inSequence (calls : List (ThreadId × Report)) : Steps World (Except Halt (List Attempt)) :=
  Steps.inOrder (calls.map fun (me, r) => r.log me)

/-- The state after calls made one at a time. -/
def afterAll (calls : List (ThreadId × Report)) (w : World) : World := ((inSequence calls).run w).2

/-- Made one at a time, the calls all return. -/
def AllReturn (calls : List (ThreadId × Report)) (w : World) : Prop :=
  ∃ attempts, ((inSequence calls).run w).1 = .ok attempts

/-- What a call writes to the error stream if it is made in this state. -/
def said (r : Report) (me : ThreadId) (w : World) : Bytes :=
  ((r.log me).run w).2.machine.stderr.drop w.machine.stderr.length

/-- What each of some calls writes to the error stream, if they are made one at a time. -/
def saidBy : List (ThreadId × Report) → World → List Bytes
  | [], _ => []
  | (me, r) :: rest, w => r.said me w :: saidBy rest ((r.log me).run w).2

/-- The log files of calls made one at a time. -/
def logFiles : List (ThreadId × Report) → World → List CString
  | [], _ => []
  | (me, r) :: rest, w => w.logFile?.toList ++ logFiles rest ((r.log me).run w).2

variable {calls : List (ThreadId × Report)} {me : ThreadId} {r : Report}

theorem afterAll_nil (w : World) : afterAll [] w = w := rfl

theorem allReturn_nil (w : World) : AllReturn [] w := ⟨[], rfl⟩

theorem allReturn_cons :
    AllReturn ((me, r) :: calls) w ↔ r.Returns me w ∧ AllReturn calls ((r.log me).run w).2 := by
  constructor
  · rintro ⟨attempts, all⟩
    obtain ⟨attempt, more, called, later, -⟩ := Steps.ends_of_inOrder_cons all
    exact ⟨⟨attempt, called⟩, more, later⟩
  · rintro ⟨⟨attempt, called⟩, more, later⟩
    refine ⟨attempt :: more, ?_⟩
    rw [inSequence] at later ⊢
    rw [List.map_cons, Steps.run_inOrder_cons called, later]
    rfl

theorem afterAll_cons (returns : r.Returns me w) :
    afterAll ((me, r) :: calls) w = afterAll calls ((r.log me).run w).2 := by
  obtain ⟨attempt, called⟩ := returns
  rw [afterAll, inSequence, List.map_cons, Steps.run_inOrder_cons called]
  rfl

theorem afterAll_cons_error {halt : Halt} (stopped : ((r.log me).run w).1 = .error halt) :
    afterAll ((me, r) :: calls) w = ((r.log me).run w).2 := by
  rw [afterAll, inSequence, List.map_cons, Steps.run_inOrder_cons_error stopped]

/-- The lock is free again after every call. -/
theorem free_after_log (h : w.context.reportLock = .free) (returns : r.Returns me w) :
    ((r.log me).run w).2.context.reportLock = .free :=
  (follows_log h returns).reportLock.trans h

theorem follows_afterAll (h : w.context.reportLock = .free) (all : AllReturn calls w) :
    w.Follows (afterAll calls w) := by
  induction calls generalizing w with
  | nil => exact .refl w
  | cons call rest ih =>
      obtain ⟨me, r⟩ := call
      obtain ⟨returns, later⟩ := allReturn_cons.mp all
      rw [afterAll_cons returns]
      exact (follows_log h returns).trans (ih (free_after_log h returns) later)

/-- Whether they return or not, the calls only add to the machine. -/
theorem machine_follows_afterAll (h : w.context.reportLock = .free) :
    w.machine.Follows (afterAll calls w).machine := by
  induction calls generalizing w with
  | nil => exact .refl w.machine
  | cons call rest ih =>
      obtain ⟨me, r⟩ := call
      have first := machine_follows_log r me h
      cases called : ((r.log me).run w).1 with
      | error halt =>
          rw [afterAll_cons_error called]
          exact first
      | ok attempt =>
          have returns : r.Returns me w := ⟨attempt, called⟩
          rw [afterAll_cons returns]
          exact first.trans (ih (free_after_log h returns))

theorem stderr_after_log (h : w.context.reportLock = .free) (returns : r.Returns me w) :
    ((r.log me).run w).2.machine.stderr = w.machine.stderr ++ r.said me w :=
  (List.prefix_iff_eq_append.mp (follows_log h returns).machine.said).symm

/-- The calls write one after another. -/
theorem stderr_afterAll (h : w.context.reportLock = .free) (all : AllReturn calls w) :
    (afterAll calls w).machine.stderr = w.machine.stderr ++ (saidBy calls w).flatten := by
  induction calls generalizing w with
  | nil => simp [afterAll_nil, saidBy]
  | cons call rest ih =>
      obtain ⟨me, r⟩ := call
      obtain ⟨returns, later⟩ := allReturn_cons.mp all
      rw [afterAll_cons returns, ih (free_after_log h returns) later, stderr_after_log h returns,
        saidBy, List.flatten_cons, List.append_assoc]

theorem not_taken_of_mem_logFiles {name : CString} (h : w.context.reportLock = .free)
    (all : AllReturn calls w) (member : name ∈ logFiles calls w) :
    ¬ w.machine.files.Taken w.machine.working name.bytes := by
  induction calls generalizing w with
  | nil => simp [logFiles] at member
  | cons call rest ih =>
      obtain ⟨me, r⟩ := call
      obtain ⟨returns, later⟩ := allReturn_cons.mp all
      obtain here | there := List.mem_append.mp member
      · exact World.not_taken_of_logFile (Option.mem_toList.mp here)
      · intro taken
        exact ih (free_after_log h returns) later there ((follows_log h returns).machine.taken taken)

/-- No two calls share a log file. -/
theorem logFiles_nodup (h : w.context.reportLock = .free) (all : AllReturn calls w) :
    (logFiles calls w).Nodup := by
  induction calls generalizing w with
  | nil => exact List.nodup_nil
  | cons call rest ih =>
      obtain ⟨me, r⟩ := call
      obtain ⟨returns, later⟩ := allReturn_cons.mp all
      have others := ih (free_after_log h returns) later
      rw [logFiles]
      cases created : w.logFile? with
      | none => exact others
      | some name =>
          refine List.nodup_cons.mpr ⟨?_, others⟩
          intro again
          exact not_taken_of_mem_logFiles (free_after_log h returns) later again
            (taken_after_log r me h created)

end Report

end Postmortem

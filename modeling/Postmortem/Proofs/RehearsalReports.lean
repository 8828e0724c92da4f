import Postmortem.Proofs.LogFilePlaces
import Postmortem.Proofs.Launches
import Postmortem.Proofs.ReportFile
import Postmortem.Proofs.Returning
import Postmortem.Rehearsal.Run

/-! # The reports of a rehearsal

A rehearsal has the shell append a line to each of its reports. So a report of it adds one file,
whose content is known to the last byte, and leaves everything ready for the next one.
-/

namespace Postmortem

/-! ## What programs append -/

namespace Machine

variable {m : Machine} {path : CString} {argv : Argv} {p : Program}

/-- All that a program does to the files is what it appends. -/
theorem files_spawnAndWait (fork : m.forkFailure = none)
    (found : m.findProgram path argv.toList = .ok p) (timeout : Option Duration) :
    (m.spawnAndWait path argv timeout).2.files = (m.perform p path argv.toList).files := by
  rw [spawnAndWait, fork]
  simp only [becomeProgram, found]
  rfl

end Machine

theorem CommandTemplate.files_start {m : Machine} {t : CommandTemplate} {override : CString}
    {fatal : Bool} {table : Substitutions} {path : CString} {arguments : List CString} {p : Program}
    (fork : m.forkFailure = none) (timeout : Duration) (what : String)
    (plan : (t.plan (m.getenv override) fatal table).attempted? = some (path, arguments))
    (found : m.findProgram path arguments = .ok p) :
    (t.start override fatal table timeout what m).2.files = (m.perform p path arguments).files := by
  rw [start]
  generalize t.plan (m.getenv override) fatal table = planned at plan
  cases planned with
  | nothing | tooMany => cases plan
  | program path' argv =>
      cases plan
      exact Machine.files_spawnAndWait fork found (some timeout)

namespace Rehearsal

/-! ## The postmortem command -/

/-- The arguments of the postmortem command, up to substitution. -/
def echoTemplate : List CString := ["$cmd", "-c", script, "$log", "$pid", "$reason"].map .spelled

/-- The postmortem command that appends a line, made ready. -/
def echo : CommandTemplate := ⟨some (.text shellPath), some echoTemplate, some echoTemplate⟩

/-- What the shell is started with. -/
def echoArguments (logName reason : CString) (pid : Int) : List CString :=
  [.text shellPath, .spelled "-c", .spelled script, logName, numberText pid, reason]

/-- The line that the shell appends. -/
def echoed (reason : CString) (pid : Int) : Bytes :=
  Check.postmortemMark ++ utf8 " " ++ (numberText pid).bytes ++ utf8 ": " ++ reason.bytes
    ++ [Bytes.newline]

variable {m : Machine} {w : World} {logName reason : CString} {pid : Int} {before : FileTree}
  {place : Place} {content : Bytes}

theorem attempted_echo (fatal : Bool) (logName reason : CString) (w : World) :
    (echo.plan none fatal (Report.substitutions logName reason w)).attempted? =
      some (.text shellPath, echoArguments logName reason w.machine.pid) := by
  have template : echo.template fatal = some echoTemplate := by cases fatal <;> rfl
  rw [CommandTemplate.attempted?_plan, template]
  simp only [attempted?, echo, echoTemplate, Report.substitutions, World.pidEntry, World.timeEntry,
    Argv.substitute_cons, Argv.substitute_nil, List.map_cons, List.map_nil, Option.none_or]
  simp +decide [echoArguments]

theorem findProgram_shell (executes : m.files.execute m.working (utf8 shellPath) = .ok shell)
    (log_short : logName.bytes.length < LogFile.nameCapacity)
    (reason_short : reason.bytes.length < Machine.maxArgument) :
    m.findProgram (.text shellPath) (echoArguments logName reason pid) = .ok shell := by
  have number_short : (numberText pid).bytes.length < Machine.maxArgument := by
    rw [bytes_numberText]
    split
    · next fits =>
      rw [Decimal.length_ofInt]
      exact fits.trans (by decide)
    · decide
  have fits : (echoArguments logName reason pid).any
      (fun a => Machine.maxArgument ≤ a.bytes.length) = false := by
    have log_short' := log_short.trans (show LogFile.nameCapacity < Machine.maxArgument by decide)
    simp only [echoArguments, List.any_cons, List.any_nil, Bool.or_false, Bool.or_eq_false_iff,
      decide_eq_false_iff_not, Nat.not_le]
    exact ⟨by decide, by decide, by decide, log_short', number_short, reason_short⟩
  have executes' : m.files.execute m.working (CString.text shellPath).bytes = .ok shell := executes
  simp only [Machine.findProgram, executes', fits, Bool.false_eq_true, if_false]

/-- The shell appends its line to the log file. -/
theorem added_perform (added : before.Added m.files m.working logName.bytes place content)
    (path reason : CString) (pid : Int) :
    before.Added (m.perform shell path (echoArguments logName reason pid)).files m.working
      logName.bytes place (content ++ echoed reason pid) := by
  obtain ⟨final, appended, added'⟩ := added.append (echoed reason pid)
  have text : (⟨2, [.literal Check.postmortemMark, .literal (utf8 " "), .argument 3,
      .literal (utf8 ": "), .argument 4, .literal [Bytes.newline]]⟩ : Appending).render path.bytes
        (((echoArguments logName reason pid).drop 1).map (·.bytes)) = echoed reason pid := by
    simp [Appending.render, echoArguments, echoed]
  simp only [Machine.perform, shell, List.foldl_cons, List.foldl_nil, text]
  simp only [echoArguments, List.drop_succ_cons, List.drop_zero, List.map_cons,
    List.getElem?_cons_succ, List.getElem?_cons_zero, FileTree.appendOrCreate, appended]
  exact added'

/-! ## One report -/

/-- The machine is as a rehearsal takes it to be: it may start programs, its shell appends the line,
    no other postmortem command is provided, the directory is there, and the host name has neither a
    line end nor a mark of an announcement, as is so of all names that hosts may have. -/
structure Surroundings (m : Machine) (directory : CString) (place : Place) : Prop where
  fork : m.forkFailure = none
  executes : m.files.execute m.working (utf8 shellPath) = .ok shell
  override : m.getenv Report.override = none
  located : m.files.locate m.working directory.bytes = .ok (place, .directory)
  host_line : Bytes.newline ∉ m.hostText
  host_colon : (58 : UInt8) ∉ m.hostText
  host_end : Bytes.occursIn Check.Line.nameEnd m.hostText = false

variable {later : Machine} {v : World} {directory : CString} {mode : Mode} {n : Nat} {r : Report}
  {tried : List Attempted}

theorem Surroundings.kept (h : Surroundings m directory place) (follows : m.Follows later)
    (tries : m.Tries tried later) (more : m.files.Extends later.files) :
    Surroundings later directory place where
  fork := tries.forkFailure.trans h.fork
  executes := by rw [follows.working]; exact more.execute h.executes
  override := by rw [Machine.getenv, tries.environment]; exact h.override
  located := by rw [follows.working]; exact more.locate_directory h.located
  host_line := by rw [follows.hostText]; exact h.host_line
  host_colon := by rw [follows.hostText]; exact h.host_colon
  host_end := by rw [follows.hostText]; exact h.host_end

/-- The name that reports have for the program. -/
def programName : CString := ⟨heading, by decide⟩

/-- How the names of log files begin. -/
def stem : CString := .text Config.defaultLogStem

/-- The extra lines of a rehearsal, as reports show them. -/
def running (mode : Mode) : Bytes := utf8 ("crashing_test_app:\nrunning " ++ mode.name ++ "\n")

/-- The process is set up for the reports of a rehearsal. -/
structure SetUp (mode : Mode) (directory : CString) (w : World) : Prop where
  names : w.context.reportNames = ⟨some programName, some directory, some stem⟩
  settled : w.context.commands.held = false
  command : w.context.commands.value.postmortem = echo
  logging : w.context.fatalStackLogging = false
  info : w.context.programInfoText.flatten = utf8 ("mode: " ++ mode.name ++ "\n")
  extra : (w.context.extraText w.lines none).flatten = Bytes.newline :: running mode
  bounded : w.Bounded

theorem SetUp.kept (h : SetUp mode directory w) (follows : w.Follows v) : SetUp mode directory v where
  names := follows.reportNames.trans h.names
  settled := by rw [follows.context]; exact h.settled
  command := by rw [follows.context]; exact h.command
  logging := by rw [follows.context]; exact h.logging
  info := by rw [follows.context]; exact h.info
  extra := by rw [follows.context, follows.lines]; exact h.extra
  bounded := h.bounded.of_follows follows

theorem SetUp.searched (h : SetUp mode directory w) (r : Report) (me : ThreadId) :
    SetUp mode directory (r.searched me w) := by
  have bounded := Report.bounded_searched h.bounded r me
  rw [Report.searched, Report.entered] at bounded ⊢
  split at bounded
  · next fatal =>
    rw [if_pos fatal]
    exact ⟨h.names, h.settled, h.command, h.logging, h.info, h.extra, bounded⟩
  · next ordinary =>
    rw [if_neg ordinary]
    exact ⟨h.names, h.settled, h.command, h.logging, h.info, h.extra, bounded⟩

theorem added_append (added : before.Added w.machine.files w.machine.working logName.bytes place content)
    (text : Fragments) :
    before.Added ((World.append logName.bytes text).run w).2.machine.files w.machine.working
      logName.bytes place (content ++ text.flatten) := by
  induction text generalizing w content with
  | nil => simpa [World.append] using added
  | cons fragment rest ih =>
      obtain ⟨final, appended, added'⟩ := added.append fragment
      have step : w.machine.appendTo logName.bytes fragment = { w.machine with files := final } := by
        rw [Machine.appendTo, appended]
      simp only [World.append, World.machineStep, Steps.run_bind, Steps.run_change, step]
      rw [List.flatten_cons, ← List.append_assoc]
      exact ih (w := { w with machine := { w.machine with files := final } }) added'

/-- The postmortem command appends its line. -/
theorem added_runPostmortem {target : Place} (around : Surroundings w.machine directory target)
    (setUp : SetUp mode directory w)
    (log_short : logName.bytes.length < LogFile.nameCapacity)
    (reason_short : r.reason.bytes.length < Machine.maxArgument)
    (added : before.Added w.machine.files w.machine.working logName.bytes place content) :
    before.Added ((r.runPostmortem logName).run w).2.machine.files w.machine.working logName.bytes
      place (content ++ echoed r.reason w.machine.pid) := by
  have read : w.context.commands.tryRead = some w.context.commands.value := by
    rw [Guarded.tryRead, setUp.settled]
    rfl
  have plan := attempted_echo r.fatal logName r.reason w
  rw [← around.override, ← setUp.command] at plan
  rw [Report.runPostmortem, World.files_runCommand]
  simp only [World.startCommand, Steps.run_act, read]
  rw [CommandTemplate.files_start around.fork _ _ plan
    (findProgram_shell around.executes log_short reason_short)]
  exact added_perform added _ _ _

/-- What a report writes into its log file, and the line behind it. -/
def written (mode : Mode) (r : Report) (pid : Int) : Bytes :=
  (Report.reasonLine r.reason ++ Report.optionalLine r.message).flatten ++ Bytes.newline :: running mode
    ++ (Report.optionalLine r.extra).flatten ++ Check.sectionMark ++ echoed r.reason pid

theorem flatten_preamble (h : SetUp mode directory w) (r : Report) :
    (Report.preamble w r.reason r.message r.extra).flatten ++ echoed r.reason w.machine.pid =
      written mode r w.machine.pid := by
  simp [Report.preamble, written, h.extra, Check.sectionMark]

theorem added_writeTo {target : Place} (around : Surroundings w.machine directory target)
    (setUp : SetUp mode directory w) (program : CString)
    (log_short : logName.bytes.length < LogFile.nameCapacity)
    (reason_short : r.reason.bytes.length < Machine.maxArgument)
    (added : before.Added w.machine.files w.machine.working logName.bytes place []) :
    before.Added ((r.writeTo program logName).run w).2.machine.files w.machine.working
      logName.bytes place (written mode r w.machine.pid) := by
  let w₁ := ((World.append logName.bytes (Report.preamble w r.reason r.message r.extra)).run w).2
  let w₂ := r.prepared program logName w
  let w₃ := ((r.runPostmortem logName).run w₂).2
  let w₄ := Report.closed program w₃
  have announced : w.Tries [] w₂ := Report.tries_prepared r program logName w
  have more : w.Outward w₂ :=
    (World.outward_run (World.covers_outward.always_append _ _) w).trans
      (World.outward_run (World.covers_outward.always_say _) w₁)
  have follows : w.Follows w₄ :=
    (announced.follows.trans (World.follows_runCommand _ _ _ _ _ w₂)).trans
      (Report.follows_closed program w₃)
  have setUp₂ := setUp.kept announced.follows
  obtain ⟨ran, result⟩ := Report.result_runPostmortem setUp₂.bounded r logName
  have around₂ := around.kept announced.follows.machine announced.machine more.files
  have text₁ := added_append added (Report.preamble w r.reason r.message r.extra)
  have text₂ : before.Added w₂.machine.files w₂.machine.working logName.bytes place
      (Report.preamble w r.reason r.message r.extra).flatten := by
    rw [announced.follows.machine.working]
    simp only [w₂, Report.prepared, Report.run_say, Machine.say]
    exact text₁
  have text₃ := added_runPostmortem around₂ setUp₂ log_short reason_short text₂
  have untold : ((Report.session program logName ran).run w₄).2 = w₄ := by
    rw [Report.session]
    split
    · rw [Session.run_finish, (setUp.kept follows).logging]
      rfl
    · rfl
  rw [Report.run_writeTo_of_ok result, untold, ← flatten_preamble setUp r, ← announced.machine.pid,
    ← announced.follows.machine.working]
  simpa only [w₄, Report.closed, Report.run_say, Machine.say] using text₃

/-- The log file with a number, as a path and within its directory. -/
def logPath (directory : CString) (pid : Int) (k : Nat) : CString :=
  LogFile.candidate directory stem programName pid k

def entryName (pid : Int) (k : Nat) : Bytes := LogFile.fileName stem programName pid k

/-- The process is ready for so many reports. -/
structure Ready (mode : Mode) (directory : CString) (place : Place) (n : Nat) (w : World) : Prop where
  free : w.context.reportLock = .free
  setUp : SetUp mode directory w
  around : Surroundings w.machine directory place
  room : LogFile.Room directory stem programName w.machine.pid w.machine.files place n

theorem Ready.returns (h : Ready mode directory place n w) (r : Report) (me : ThreadId) :
    r.Returns me w :=
  Report.returns_of_bounded h.free h.setUp.bounded r me

theorem Ready.allReturn (h : Ready mode directory place n w) (calls : List (ThreadId × Report)) :
    Report.AllReturn calls w :=
  Report.allReturn_of_bounded h.free h.setUp.bounded

/-- The report will find a name in the directory. -/
theorem Ready.search (h : Ready mode directory place (n + 1) w) :
    ∃ k, (logPath directory w.machine.pid k).bytes.length < LogFile.nameCapacity ∧
      w.search.1 = .ok (logPath directory w.machine.pid k) ∧
      w.machine.files.Added w.search.2.files w.machine.working
        (logPath directory w.machine.pid k).bytes (place ++ [entryName w.machine.pid k]) [] := by
  have plain : Bytes.slash ∉ stem.bytes ∧ Bytes.slash ∉ programName.bytes := by decide
  obtain ⟨k, ⟨log_short, -⟩, found, created⟩ :=
    LogFile.create_inDirectory plain.1 plain.2 h.around.located h.room
  have search : w.search = (LogFile.create directory stem programName w.machine.pid).run w.machine := by
    rw [World.search, h.setUp.names]
    rfl
  rw [← search] at found created
  exact ⟨k, log_short, found, created⟩

/-- The shell is all that the report will start. -/
theorem Ready.tries (h : Ready mode directory place n w) (r : Report) (me : ThreadId)
    (here : w.logFile? = some logName) :
    w.Tries [(.text shellPath, echoArguments logName r.reason w.machine.pid)] ((r.log me).run w).2 := by
  have tries := Report.tries_log h.free (h.returns r me) h.setUp.settled h.around.fork here
  have postmortem : (r.postmortem? logName w).toList =
      [(.text shellPath, echoArguments logName r.reason w.machine.pid)] := by
    rw [← Report.attempted?_postmortem, h.setUp.command, h.around.override, attempted_echo]
    rfl
  have session : r.session? logName w = none := by
    rw [Report.session?, if_neg]
    rw [h.setUp.logging]
    simp
  rw [postmortem, session] at tries
  exact tries

/-- A report adds its log file and is ready for the next one. -/
theorem Ready.log (h : Ready mode directory place (n + 1) w) (r : Report) (me : ThreadId)
    (reason_short : r.reason.bytes.length < Machine.maxArgument) :
    ∃ k, w.logFile? = some (logPath directory w.machine.pid k) ∧
      w.machine.files.Added ((r.log me).run w).2.machine.files w.machine.working
        (logPath directory w.machine.pid k).bytes (place ++ [entryName w.machine.pid k])
        (written mode r w.machine.pid) ∧
      (∃ arguments, w.Tries [(.text shellPath, arguments)] ((r.log me).run w).2) ∧
      Ready mode directory place n ((r.log me).run w).2 := by
  obtain ⟨k, log_short, found, created⟩ := h.search
  have here : w.logFile? = some (logPath directory w.machine.pid k) := by
    rw [World.logFile?, h.setUp.bounded.untrapped, found]
    rfl
  let u := r.searched me w
  have untried : w.machine.Tries [] u.machine := Report.tries_search w
  have working : u.machine.working = w.machine.working := w.follows_search.working
  have around : Surroundings u.machine directory place :=
    h.around.kept w.follows_search untried (FileTree.extends_of_entries created.entries)
  have added := added_writeTo (r := r) around (h.setUp.searched r me) w.context.reportNames.programName
    log_short reason_short (working ▸ created)
  rw [untried.pid, working] at added
  have ended := Report.machine_after_log r me h.free
  rw [Report.made_of_logFile r me here] at ended
  rw [← ended] at added
  have tries := h.tries r me here
  have returns := h.returns r me
  have follows := Report.follows_log h.free returns
  refine ⟨k, here, added, ⟨_, tries⟩, Report.free_after_log h.free returns, h.setUp.kept follows, ?_, ?_⟩
  · exact h.around.kept follows.machine tries.machine (FileTree.extends_of_entries added.entries)
  · rw [tries.machine.pid]
    exact h.room.of_added added

/-! ## Any number of reports -/

/-- So many reports of one kind have been made, each with a log file of its own. -/
structure Reported (mode : Mode) (directory : CString) (place : Place) (r : Report) (w v : World)
    (numbers : List Nat) : Prop where
  nodup : numbers.Nodup
  new : ∀ k ∈ numbers, w.machine.files.entry? (place ++ [entryName w.machine.pid k]) = none
  entries : v.machine.files.entries = w.machine.files.entries ++ numbers.map fun k =>
    (place ++ [entryName w.machine.pid k], .file (written mode r w.machine.pid) .forbidden)
  located : ∀ k ∈ numbers, v.machine.files.locate w.machine.working
    (logPath directory w.machine.pid k).bytes =
      .ok (place ++ [entryName w.machine.pid k], .file (written mode r w.machine.pid) .forbidden)
  shells : ∃ tried, w.Tries tried v ∧ ∀ program ∈ tried, program.1 = .text shellPath

variable {calls : List (ThreadId × Report)}

theorem Ready.afterAll (h : Ready mode directory place calls.length w)
    (alike : ∀ call ∈ calls, call.2 = r) (reason_short : r.reason.bytes.length < Machine.maxArgument) :
    ∃ numbers, numbers.length = calls.length ∧
      Report.logFiles calls w = numbers.map (logPath directory w.machine.pid) ∧
      Reported mode directory place r w (Report.afterAll calls w) numbers := by
  induction calls generalizing w with
  | nil =>
      refine ⟨[], rfl, rfl, List.nodup_nil, by simp, by simp [Report.afterAll_nil], by simp, [], ?_, by simp⟩
      exact ⟨.refl w.machine, .refl w⟩
  | cons call rest ih =>
      obtain ⟨me, r'⟩ := call
      obtain rfl : r' = r := alike _ List.mem_cons_self
      obtain ⟨k, here, added, ⟨arguments, tries⟩, ready⟩ := h.log r' me reason_short
      obtain ⟨numbers, count, files, reported⟩ :=
        ih ready fun call member => alike call (List.mem_cons_of_mem _ member)
      have pid := tries.machine.pid
      have working := tries.follows.machine.working
      obtain ⟨nodup, new, entries, located, tried, others, shells⟩ := reported
      rw [pid] at files new entries located
      rw [working] at located
      have first := FileTree.locate_of_entries entries added.located
      obtain ⟨-, -, -, there, -⟩ := FileTree.locate_iff.mp added.located
      refine ⟨k :: numbers, by rw [List.length_cons, List.length_cons, count], ?_, ?_⟩
      · rw [Report.logFiles, here, files]
        rfl
      rw [Report.afterAll_cons (h.returns r' me)]
      refine ⟨List.nodup_cons.mpr ⟨?_, nodup⟩, ?_, ?_, ?_, _ :: tried, tries.trans others, ?_⟩
      · intro again
        rw [new k again] at there
        cases there
      · intro i member
        obtain rfl | later := List.mem_cons.mp member
        · exact added.none
        · by_contra found
          obtain ⟨entry, was⟩ := Option.ne_none_iff_exists'.mp found
          have still := FileTree.entry?_of_entries added.entries was
          rw [new i later] at still
          cases still
      · rw [entries, added.entries, List.append_assoc]
        rfl
      · intro i member
        obtain rfl | later := List.mem_cons.mp member
        · exact first
        · exact located i later
      · intro program member
        obtain rfl | later := List.mem_cons.mp member
        · rfl
        · exact shells program later

/-! ## How they are read -/

theorem Ready.presentable (h : Ready mode directory place n w) (line : Bytes.newline ∉ directory.bytes) :
    w.Presentable where
  program := by
    rw [h.setUp.names]
    show Bytes.newline ∉ programName.bytes
    decide
  directory := by rw [h.setUp.names]; exact line
  stem := by
    rw [h.setUp.names]
    show Bytes.newline ∉ stem.bytes
    decide
  host_line := h.around.host_line
  host_colon := h.around.host_colon
  host_end := h.around.host_end
  info := by rw [h.setUp.info]; cases mode <;> decide +kernel
  extra := by rw [h.setUp.extra]; cases mode <;> decide +kernel

theorem nameEnd_logPath (absent : Bytes.occursIn Check.Line.nameEnd directory.bytes = false)
    (pid : Int) (k : Nat) : Bytes.occursIn Check.Line.nameEnd (logPath directory pid k).bytes = false := by
  have clean : (93 : UInt8) ∉ (LogFile.candidate (.text "") stem programName pid k).bytes :=
    LogFile.notMem_candidate (by decide) (by decide) (by decide) (by decide) (by decide) (by decide) k
  have mark : Check.Line.nameEnd = [32, 93] := by decide
  rw [LogFile.candidate_eq] at clean
  rw [mark] at absent ⊢
  rw [logPath, LogFile.candidate_eq]
  refine Check.not_occursIn_append (by decide) (by decide) absent ?_
  rw [Check.not_occursIn_iff]
  intro found
  exact clean (by simp [found.subset (show (93 : UInt8) ∈ [32, 93] by decide)])

/-- Whoever reads the error stream finds the log files. -/
theorem Ready.announced (h : Ready mode directory place n w) (line : Bytes.newline ∉ directory.bytes)
    (mark : Bytes.occursIn Check.Line.nameEnd directory.bytes = false) (texts : r.Presentable)
    (alike : ∀ call ∈ calls, call.2 = r) {numbers : List Nat}
    (files : Report.logFiles calls w = numbers.map (logPath directory w.machine.pid))
    (reported : Reported mode directory place r w (Report.afterAll calls w) numbers) :
    ∃ said, (Report.afterAll calls w).machine.stderr = w.machine.stderr ++ said ∧
      Check.announcements said programName.bytes =
        .ok (numbers.map fun k => (logPath directory w.machine.pid k).bytes) := by
  obtain ⟨tried, tries, shells⟩ := reported.shells
  have returning := h.allReturn calls
  refine ⟨_, Report.stderr_afterAll h.free returning, ?_⟩
  have all : ∀ call ∈ calls, call.2.Presentable := fun call member => alike call member ▸ texts
  have reads := Report.reads_saidBy h.free returning (h.presentable line) all ?_ ?_
  · rw [h.setUp.names, files, List.map_map] at reads
    exact reads.announcements
  · intro name member
    rw [files] at member
    obtain ⟨k, -, rfl⟩ := List.mem_map.mp member
    exact nameEnd_logPath mark _ k
  · intro launch member
    have here : (launch.path, launch.arguments) ∈ tried := by
      rw [← tries.machine.launched]
      exact List.mem_map.mpr ⟨launch, member, rfl⟩
    have shell : launch.path = .text shellPath := shells _ here
    rw [shell]
    decide

/-! ## What the files hold -/

theorem valid_echoed (texts : r.Textual) (pid : Int) : Utf8.Valid (echoed r.reason pid) := by
  have digits : Utf8.Valid (numberText pid).bytes := by
    apply Utf8.valid_ascii
    intro b member
    obtain rfl | digit := numeric_numberText pid b member
    · decide
    · rw [Bytes.isDigit, Bool.and_eq_true, decide_eq_true_eq, decide_eq_true_eq,
        UInt8.le_iff_toNat_le, UInt8.le_iff_toNat_le] at digit
      exact Nat.lt_of_le_of_lt digit.2 (by decide)
  have opening := ((Utf8.valid_utf8 "postmortem ran for pid").append (Utf8.valid_utf8 " ")).append digits
  exact ((opening.append (Utf8.valid_utf8 ": ")).append texts.reason).append Utf8.valid_newline

theorem valid_written (mode : Mode) (texts : r.Textual) (pid : Int) :
    Utf8.Valid (written mode r pid) := by
  have reason : Utf8.Valid (Report.reasonLine r.reason).flatten := by
    have whole := (Utf8.valid_utf8 "This stack trace was requested because: ").append
      (texts.reason.append Utf8.valid_newline)
    simpa [Report.reasonLine, Report.line] using whole
  have message := reason.append (Report.valid_optionalLine texts.message)
  have lines := message.append (Utf8.valid_newline.append
    (Utf8.valid_utf8 ("crashing_test_app:\nrunning " ++ mode.name ++ "\n")))
  have extra := lines.append (Report.valid_optionalLine texts.extra)
  have whole := (extra.append (Utf8.valid_utf8 "\nPostmortem Stack Trace\n")).append
    (valid_echoed texts pid)
  rw [written, List.flatten_append]
  exact whole

/-- The check accepts a report of a rehearsal, which shows the extra lines. -/
theorem accepted (tree : FileTree) (working place : Place) (path : CString) (texts : r.Textual)
    (single : Bytes.newline ∉ r.reason.bytes) (noReturn : r.reason.bytes.getLast? ≠ some 13)
    (located : tree.locate working path.bytes =
      .ok (place, .file (written mode r pid) .forbidden)) :
    Check.report tree working path.bytes r.reason.bytes true = .ok (written mode r pid) := by
  let tail := (Report.optionalLine r.message).flatten ++ Bytes.newline :: running mode
    ++ (Report.optionalLine r.extra).flatten
  have begins : written mode r pid = Check.firstLineFor r.reason.bytes ++ Bytes.newline ::
      (tail ++ Check.sectionMark ++ echoed r.reason pid) := by
    simp [written, tail, Report.reasonLine, Report.line, Check.firstLineFor]
  have section_ : Check.sectionMark <:+: written mode r pid :=
    ⟨(Report.reasonLine r.reason ++ Report.optionalLine r.message).flatten ++
      Bytes.newline :: running mode ++ (Report.optionalLine r.extra).flatten, echoed r.reason pid, rfl⟩
  have marked : Bytes.occursIn Check.postmortemMark (written mode r pid) = true := by
    rw [Check.occursIn_iff]
    have line : Check.postmortemMark <+: echoed r.reason pid := by
      simp [echoed, List.append_assoc]
    exact line.isInfix.trans (List.suffix_append _ _).isInfix
  have read : tree.read working path.bytes = .ok (written mode r pid) := by
    rw [FileTree.read, located]
  rw [Check.report_of_begins path.nul_notMem read (valid_written mode texts pid) single noReturn
    begins section_ true, marked, if_pos rfl]

theorem running_written (mode : Mode) (r : Report) (pid : Int) :
    running mode <:+: written mode r pid :=
  ⟨(Report.reasonLine r.reason ++ Report.optionalLine r.message).flatten ++ [Bytes.newline],
    (Report.optionalLine r.extra).flatten ++ Check.sectionMark ++ echoed r.reason pid, by
      simp [written]⟩

end Rehearsal

end Postmortem

import Postmortem.Proofs.Crashing
import Postmortem.Proofs.RehearsalSetup
import Postmortem.Proofs.Threads

/-! # What a rehearsal leaves behind

A rehearsal in one of the modes whose postmortem command appends to the reports leaves as many
reports as its mode promises, each where its announcement says, and nothing else. What is in the
directory before it does not matter, nor does the order in which the steps of two threads come.
-/

namespace Postmortem.Rehearsal

variable {m later : Machine} {w v : World} {mode : Mode} {directory : CString} {place : Place}
  {n : Nat} {arguments : Bytes}

/-! ## The courses of a rehearsal -/

/-- The reason that the reports of a mode give. -/
def Mode.reason : Mode → CString
  | .segfault => .spelled "received SIGSEGV"
  | .fatal => .spelled "fatal test"
  | .concurrentFatal => .spelled "concurrent test"
  | .nonfatal => .spelled "nonfatal test"
  | .postmortemTimeout => .spelled "timeout test"
  | .logStack => .spelled "log_stack requested"

/-- The reports of a mode. -/
def Mode.report (mode : Mode) : Report :=
  match mode with
  | .segfault => ⟨true, mode.reason, none, none⟩
  | .nonfatal => ⟨false, mode.reason, none, none⟩
  | _ => ⟨true, mode.reason, some (.spelled "reported by crashing_test_app"), none⟩

/-- Two threads that make the same report once each. -/
def twoCalls (r : Report) : List (ThreadId × List Report) := [(thread 1, [r]), (thread 2, [r])]

/-- The two threads of a rehearsal get there from the start, their steps coming in any order. -/
def AtOnce (mode : Mode) (directory : Bytes) (w : World) (s : Threads) : Prop :=
  ∃ config prepared, configuration mode directory = .ok config ∧ prepare mode config w = .ok prepared ∧
    (Threads.start prepared (twoCalls mode.report)).Reaches s

/-- A rehearsal can end like this. In the mode with two threads the end of the program follows that
    of both of them. -/
inductive Ends (mode : Mode) (directory : Bytes) (w : World) : World → Prop where
  | inTurn : Ends mode directory w ((run [utf8 mode.name, directory]).run w).2
  | atOnce (s : Threads) (concurrent : mode = .concurrentFatal) (reached : AtOnce mode directory w s)
      (finished : s.Finished) : Ends mode directory w ((conclude (.ok mode)).run s.world).2

/-- A name in the directory as a path. -/
def pathOf (directory : CString) (name : Bytes) : Bytes := directory.bytes ++ Bytes.slash :: name

/-- What a rehearsal leaves behind: new files with these names and this content. -/
structure Leaves (mode : Mode) (directory : CString) (place : Place) (m later : Machine)
    (names : List Bytes) (content : Bytes) : Prop where
  count : names.length = mode.expectedReports
  nodup : names.Nodup
  new : ∀ name ∈ names, m.files.entry? (place ++ [name]) = none
  entries : later.files.entries =
    m.files.entries ++ names.map fun name => (place ++ [name], .file content .forbidden)
  begins : ∀ name ∈ names, utf8 "st_" <+: name
  located : ∀ name ∈ names, later.files.locate later.working (pathOf directory name) =
    .ok (place ++ [name], .file content .forbidden)
  accepted : ∀ name ∈ names, Check.report later.files later.working (pathOf directory name)
    mode.reason.bytes true = .ok content
  shown : utf8 ("crashing_test_app:\nrunning " ++ mode.name ++ "\n") <:+: content
  announced : ∃ said, later.stderr = m.stderr ++ said ∧
    Check.announcements said heading = .ok (names.map (pathOf directory))

/-! ## What the reports come to -/

/-- The same is found in the files and on the error stream. -/
structure Same (m later : Machine) : Prop where
  files : later.files = m.files
  working : later.working = m.working
  stderr : later.stderr = m.stderr

theorem Same.refl (m : Machine) : Same m m := ⟨rfl, rfl, rfl⟩

theorem Same.trans {o : Machine} (h : Same m later) (h' : Same later o) : Same m o :=
  ⟨h'.files.trans h.files, h'.working.trans h.working, h'.stderr.trans h.stderr⟩

theorem Leaves.of_same {first last : Machine} {names : List Bytes} {content : Bytes}
    (h : Leaves mode directory place m later names content) (before : Same first m)
    (after : Same later last) : Leaves mode directory place first last names content := by
  obtain ⟨count, nodup, new, entries, begins, located, accepted, shown, said, stderr, announced⟩ := h
  rw [before.files] at new entries
  rw [← after.files] at entries located accepted
  rw [← after.working] at located accepted
  rw [← after.stderr, before.stderr] at stderr
  exact ⟨count, nodup, new, entries, begins, located, accepted, shown, said, stderr, announced⟩

theorem reason_report (mode : Mode) : mode.report.reason = mode.reason := by
  cases mode <;> rfl

theorem valid_spelled {text : String} (plain : (0 : UInt8) ∉ utf8 text) :
    Utf8.Valid (CString.spelled text).bytes := by
  rw [← CString.text_eq_spelled text plain]
  exact Utf8.valid_utf8 text

theorem textual_report (mode : Mode) : mode.report.Textual where
  reason := by cases mode <;> exact valid_spelled (by decide)
  message text present := by cases mode <;> cases present <;> exact valid_spelled (by decide)
  extra text present := by cases mode <;> cases present

theorem presentable_report (mode : Mode) : mode.report.Presentable where
  reason := by cases mode <;> decide +kernel
  message text present := by cases mode <;> cases present <;> decide +kernel

theorem Ready.leaves {calls : List (ThreadId × Report)} (h : Ready mode directory place calls.length w)
    (count : calls.length = mode.expectedReports) (alike : ∀ call ∈ calls, call.2 = mode.report)
    (line : Bytes.newline ∉ directory.bytes)
    (mark : Bytes.occursIn Check.Line.nameEnd directory.bytes = false) :
    ∃ names content, Leaves mode directory place w.machine (Report.afterAll calls w).machine names
      content := by
  have short : mode.report.reason.bytes.length < Machine.maxArgument := by cases mode <;> decide
  have single : Bytes.newline ∉ mode.report.reason.bytes := by cases mode <;> decide
  have noReturn : mode.report.reason.bytes.getLast? ≠ some 13 := by cases mode <;> decide
  obtain ⟨numbers, total, files, reported⟩ := h.afterAll alike short
  have path (k : Nat) : pathOf directory (entryName w.machine.pid k) =
      (logPath directory w.machine.pid k).bytes := (LogFile.candidate_eq _ _ _ _ k).symm
  have named {P : Bytes → Prop} (all : ∀ k ∈ numbers, P (entryName w.machine.pid k)) :
      ∀ name ∈ numbers.map (entryName w.machine.pid), P name := by
    simpa using all
  obtain ⟨tried, tries, -⟩ := reported.shells
  have working : (Report.afterAll calls w).machine.working = w.machine.working :=
    tries.follows.machine.working
  refine ⟨numbers.map (entryName w.machine.pid), written mode mode.report w.machine.pid, ?_, ?_,
    named reported.new, ?_, named fun k _ => ?_, named fun k member => ?_, named fun k member => ?_,
    running_written mode mode.report w.machine.pid, ?_⟩
  · rw [List.length_map, total, count]
  · exact reported.nodup.map LogFile.fileName_injective
  · rw [reported.entries, List.map_map]
    rfl
  · have front : utf8 "st_" = stem.bytes ++ utf8 "_" := by decide
    rw [front, entryName, LogFile.fileName, List.append_assoc, List.append_assoc]
    exact (List.prefix_append_right_inj stem.bytes).mpr (List.prefix_append _ _)
  · rw [path, working]
    exact reported.located k member
  · rw [path, working, ← reason_report]
    exact accepted _ _ _ _ (textual_report mode) single noReturn (reported.located k member)
  · obtain ⟨said, stderr, announced⟩ :=
      h.announced line mark (presentable_report mode) alike files reported
    refine ⟨said, stderr, ?_⟩
    rw [List.map_map]
    simp only [Function.comp_def, path]
    exact announced

/-! ## The runs -/

theorem same_finish (m : Machine) (ending : Ending) : Same m (m.finish ending) := by
  rw [Machine.finish]
  split <;> exact ⟨rfl, rfl, rfl⟩

theorem same_signalEffect (m : Machine) (n : Int) (c : Circumstances) (d : Disposition) :
    Same m (m.signalEffect n c d) := by
  cases d with
  | standard =>
      rw [Machine.signalEffect, Machine.defaultEffect]
      split
      · exact .refl m
      · split
        · exact same_finish m _
        · exact .refl m
        · exact ⟨rfl, rfl, rfl⟩
  | handler | infoHandler => exact ⟨rfl, rfl, rfl⟩
  | ignored | crashReport | wakeUp => exact .refl m

/-- Nothing is said where it is known what a signal had before. -/
theorem same_forward {k : Int} (c : Circumstances)
    (known : (w.handlers.previous? k.toNat).isSome) :
    Same w.machine (World.forward k c w).machine := by
  rw [World.forward]
  split
  · next unknown =>
    rw [unknown] at known
    cases known
  · exact (show Same w.machine (w.machine.setDisposition _ .standard) from ⟨rfl, rfl, rfl⟩).trans
      (same_signalEffect _ k c .standard)
  · exact same_signalEffect _ k c _

theorem same_conclude (quiet : w.context.loggedAtExit = false) :
    Same w.machine ((conclude (.ok mode)).run w).2.machine := by
  show Same w.machine ((if w.machine.fate = .running then _ else _ : Steps World Unit).run w).2.machine
  split
  · simp only [announce, World.machineStep, Session.atExit, Steps.run_bind, Steps.run_change,
      Steps.run_look, quiet, Bool.false_eq_true, if_false, Steps.run_pure]
    exact (show Same w.machine (w.machine.print _) from ⟨rfl, rfl, rfl⟩).trans (same_finish _ _)
  · exact .refl w.machine

/-- A process that is ready for the reports of its mode, and has no crash handlers yet. -/
structure Prepared (mode : Mode) (directory : CString) (place : Place) (w : World) : Prop where
  ready : Ready mode directory place mode.expectedReports w
  fresh : w.handlers = .none
  calm : w.context.crashing = false
  quiet : w.context.loggedAtExit = false

/-- What a mode does comes to its reports, made one at a time. -/
structure Performs (mode : Mode) (directory : CString) (place : Place) (w : World)
    (result : Except Halt (Except RunError Unit) × World) : Prop where
  done : result.1 = .ok (.ok ())
  quiet : result.2.context.loggedAtExit = false
  reports : ∃ calls u, calls.length = mode.expectedReports ∧
    (∀ call ∈ calls, call.2 = mode.report) ∧ Ready mode directory place calls.length u ∧
    Same w.machine u.machine ∧ Same (Report.afterAll calls u).machine result.2.machine

theorem Ready.quiet {calls : List (ThreadId × Report)} (h : Ready mode directory place n w)
    (quiet : w.context.loggedAtExit = false) :
    (Report.afterAll calls w).context.loggedAtExit = false := by
  rw [(Report.follows_afterAll h.free (h.allReturn calls)).context]
  exact quiet

/-- A mode that only makes its reports. -/
theorem Prepared.reports (h : Prepared mode directory place w) (calls : List (ThreadId × Report))
    (count : calls.length = mode.expectedReports) (alike : ∀ call ∈ calls, call.2 = mode.report) :
    Performs mode directory place w (.ok (.ok ()), Report.afterAll calls w) where
  done := rfl
  quiet := h.ready.quiet h.quiet
  reports := ⟨calls, w, count, alike, count ▸ h.ready, .refl _, .refl _⟩

theorem run_fatalReport {me : ThreadId} {reason : CString}
    (returns : Report.Returns ⟨true, reason, some (.text "reported by crashing_test_app"), none⟩ me w) :
    (fatalReport me reason).run w = (.ok (),
      ((Report.log ⟨true, reason, some (.text "reported by crashing_test_app"), none⟩ me).run w).2) := by
  obtain ⟨attempt, returned⟩ := returns
  rw [fatalReport, Steps.run_andThen_of_ok returned]
  rfl

theorem run_deliver {me : ThreadId} {k : Int} (c : Circumstances)
    (handled : w.machine.disposition k.toNat = .crashReport)
    (returns : Report.Returns ⟨true, Signal.reasonOfNumber k, none, none⟩ me w) :
    (Handler.deliver me k c).run w = (.ok (),
      World.forward k c (Report.afterAll [(me, ⟨true, Signal.reasonOfNumber k, none, none⟩)] w)) := by
  rw [Report.afterAll_cons returns, Report.afterAll_nil]
  obtain ⟨attempt, returned⟩ := returns
  simp only [Handler.deliver, Steps.run_bind, Steps.run_look, handled, Handler.onCrash, returned,
    Steps.run_change, Steps.run_pure]

/-- Nothing is said or written, and no program is started, by a change of dispositions and a line on
    the output stream. -/
theorem Ready.of_installs {signals : List Int} {handlers : CrashHandlers}
    (h : Ready mode directory place n w)
    (installs : Handler.Installs signals { w with handlers } v) (line : Bytes) :
    let u := { v with machine := v.machine.print line }
    Ready mode directory place n u ∧ Same w.machine u.machine := by
  obtain ⟨dispositions, machine⟩ := installs.machine
  have tries : w.machine.Tries [] (v.machine.print line) := by
    rw [machine]
    exact .nothing rfl rfl rfl rfl rfl rfl
  have same : Same w.machine (v.machine.print line) := by
    rw [machine]
    exact ⟨rfl, rfl, rfl⟩
  have follows : w.Follows { v with machine := v.machine.print line } := by
    refine ⟨?_, ?_, installs.lines⟩
    · rw [machine]
      exact ⟨rfl, rfl, rfl, .refl _, List.prefix_rfl, List.prefix_rfl⟩
    · show v.context = _
      rw [installs.context]
  refine ⟨⟨follows.reportLock.trans h.free, h.setUp.kept follows, ?_, ?_⟩, same⟩
  · exact h.around.kept follows.machine tries (same.files ▸ .refl w.machine.files)
  · rw [tries.pid, same.files]
    exact h.room

/-- The handler of the signal makes the report, and then the signal has its earlier effect. -/
theorem Prepared.performs_segfault (h : Prepared .segfault directory place w) :
    Performs .segfault directory place w
      ((perform .segfault (echoConfig directory.bytes)).run w) := by
  obtain ⟨v, registered, installs⟩ := register_echo directory h.fresh
  let u := { v with machine := v.machine.print (utf8 ("crashing" ++ "=" ++ Mode.segfault.name ++ "\n")) }
  obtain ⟨ready, same⟩ : Ready .segfault directory place 1 u ∧ Same w.machine u.machine :=
    h.ready.of_installs installs _
  have handled : u.machine.disposition (Signal.segmentation.number : Int).toNat = .crashReport :=
    (installs.disposition 11).trans (if_pos (by decide))
  let after := Report.afterAll [(thread 0, Mode.segfault.report)] u
  let c := u.machine.circumstances Signal.segmentation.number
  have returns : Mode.segfault.report.Returns (thread 0) u := ready.returns _ _
  have crashed : (crash.run u) = (.ok (), World.forward Signal.segmentation.number c after) := by
    rw [crash, Steps.run_bind, Steps.run_look, run_deliver c handled returns]
    rfl
  have course : (perform .segfault (echoConfig directory.bytes)).run w =
      (.ok (.ok ()), World.forward Signal.segmentation.number c after) := by
    simp only [perform, Steps.run_bind, Steps.run_act, registered, announce, World.machineStep,
      Steps.run_change]
    refine (Steps.run_andThen_of_ok (congrArg Prod.fst crashed) _).trans ?_
    rw [crashed]
    rfl
  have recorded : (after.handlers.previous? (Signal.segmentation.number : Int).toNat).isSome := by
    have handlers : after.handlers = v.handlers := by
      show (Report.afterAll [_] u).handlers = _
      rw [Report.afterAll_cons returns, Report.afterAll_nil]
      exact (Mode.segfault.report.marked_after_log (thread 0) u).2.2
    have segfault : ((11 : Nat) : Int) ∈ Signal.defaults := by decide
    have previous := installs.previous 11
    rw [if_pos segfault] at previous
    rw [handlers]
    exact Option.isSome_of_eq_some previous
  rw [course]
  refine ⟨rfl, ?_, [(thread 0, Mode.segfault.report)], u, rfl, by simp, ready, same,
    same_forward c recorded⟩
  rw [(World.outward_forward _ _ _).context]
  refine ready.quiet ?_
  show v.context.loggedAtExit = false
  rw [installs.context, h.quiet]

theorem Prepared.performs (h : Prepared mode directory place w) (appends : mode.expectsPostmortem = true) :
    Performs mode directory place w ((perform mode (echoConfig directory.bytes)).run w) := by
  cases mode with
  | postmortemTimeout | logStack => cases appends
  | fatal =>
      have returns : Mode.fatal.report.Returns (thread 0) w := h.ready.returns _ _
      have course : (perform .fatal (echoConfig directory.bytes)).run w =
          (.ok (.ok ()), Report.afterAll [(thread 0, Mode.fatal.report)] w) := by
        have made := run_fatalReport returns
        rw [Report.afterAll_cons returns, Report.afterAll_nil]
        refine (Steps.run_andThen_of_ok (congrArg Prod.fst made) _).trans ?_
        exact congrArg (Prod.mk _) (congrArg Prod.snd made)
      rw [course]
      exact h.reports _ rfl (by simp)
  | concurrentFatal =>
      let r := Mode.concurrentFatal.report
      have course : (perform .concurrentFatal (echoConfig directory.bytes)).run w =
          (.ok (.ok ()), Report.afterAll [(thread 1, r), (thread 2, r)] w) := by
        obtain ⟨first, rest⟩ := Report.allReturn_cons.mp (h.ready.allReturn [(thread 1, r), (thread 2, r)])
        obtain ⟨second, -⟩ := Report.allReturn_cons.mp rest
        have made := run_fatalReport first
        have made' := run_fatalReport second
        rw [Report.afterAll_cons first, Report.afterAll_cons second, Report.afterAll_nil]
        refine (Steps.run_andThen_of_ok (congrArg Prod.fst made) _).trans ?_
        rw [made]
        refine (Steps.run_andThen_of_ok (congrArg Prod.fst made') _).trans ?_
        exact congrArg (Prod.mk _) (congrArg Prod.snd made')
      rw [course]
      exact h.reports _ rfl (by simp [r])
  | nonfatal =>
      have returns : Mode.nonfatal.report.Returns (thread 0) w := h.ready.returns _ _
      have kept := (Mode.nonfatal.report.marked_after_log (thread 0) w).1
      have course : (perform .nonfatal (echoConfig directory.bytes)).run w =
          (.ok (.ok ()), Report.afterAll [(thread 0, Mode.nonfatal.report)] w) := by
        rw [Report.afterAll_cons returns, Report.afterAll_nil]
        obtain ⟨attempt, returned⟩ := returns
        refine (Steps.run_andThen_of_ok returned _).trans ?_
        have calm : ((Mode.nonfatal.report.log (thread 0)).run w).2.context.crashing = false := by
          rw [kept, h.calm]
          rfl
        have fine : checkFlag.run ((Mode.nonfatal.report.log (thread 0)).run w).2 =
            (.ok (), ((Mode.nonfatal.report.log (thread 0)).run w).2) := by
          simp only [checkFlag, Steps.run_bind, Steps.run_look, calm, Bool.false_eq_true, if_false,
            Steps.run_pure]
        rw [Steps.run_bind, fine]
        rfl
      rw [course]
      exact h.reports _ rfl (by simp)
  | segfault => exact h.performs_segfault

theorem Performs.leaves {result : Except Halt (Except RunError Unit) × World}
    (h : Performs mode directory place w result) (line : Bytes.newline ∉ directory.bytes)
    (mark : Bytes.occursIn Check.Line.nameEnd directory.bytes = false) :
    ∃ names content, Leaves mode directory place w.machine result.2.machine names content := by
  obtain ⟨-, -, calls, u, count, alike, ready, before, after⟩ := h
  obtain ⟨names, content, leaves⟩ := ready.leaves count alike line mark
  exact ⟨names, content, leaves.of_same before after⟩

theorem ofName?_name (mode : Mode) : Mode.ofName? (utf8 mode.name) = some mode := by
  cases mode <;> decide

theorem run_prepared {config : Config} {directory : Bytes}
    (configured : configuration mode directory = .ok config)
    (prepared : prepare mode config w = .ok v) (done : ((perform mode config).run v).1 = .ok (.ok ())) :
    (run [utf8 mode.name, directory]).run w =
      (conclude (.ok mode)).run ((perform mode config).run v).2 := by
  have parsed : parseArguments [utf8 mode.name, directory] = .ok (mode, directory) := by
    rw [parseArguments, ofName?_name]
  simp only [run, attempt, parsed, configured, Rehearsal.setUp, Steps.run_bind, Steps.run_act,
    prepared, Steps.run_andThen_of_ok done, Steps.run_pure]
  rfl

/-! ## Two threads -/

theorem distinct_twoCalls (r : Report) : ((twoCalls r).map (·.1)).Nodup :=
  show [thread 1, thread 2].Nodup by decide

/-- Once both threads are done, their reports have been made one after the other. -/
theorem order_twoCalls {s : Threads} {r : Report} (free : w.context.reportLock = .free)
    (reached : (Threads.start w (twoCalls r)).Reaches s) (finished : s.Finished) :
    s.world = Report.afterAll s.order w ∧ s.order.length = 2 ∧ ∀ call ∈ s.order, call.2 = r := by
  have inv : Threads.Inv w (twoCalls r) s :=
    ((Threads.Inv.start w _ free).reaches (distinct_twoCalls r) reached).resolve_right
      fun stopped => stopped.not_finished finished
  obtain ⟨run, own⟩ := inv.finished (distinct_twoCalls r) finished
  have first := (own (thread 1, [r]) (by simp [twoCalls])).1
  have second := (own (thread 2, [r]) (by simp [twoCalls])).1
  have known (call) (member : call ∈ s.order) : call.1 = thread 1 ∨ call.1 = thread 2 := by
    simpa [twoCalls] using inv.known call member
  refine ⟨(congrArg Prod.snd run).symm, ?_, fun call member => ?_⟩
  · have rest : s.order.filter (fun call => !decide (call.1 = thread 1)) =
        s.order.filter (·.1 = thread 2) := by
      refine List.filter_congr fun call member => ?_
      obtain one | two := known call member
      · rw [one]
        decide
      · rw [two]
        decide
    rw [List.length_eq_length_filter_add (·.1 = thread 1), rest]
    have one := congrArg List.length first
    have two := congrArg List.length second
    rw [List.length_map] at one two
    exact congrArg₂ (· + ·) one two
  · have mine (id : ThreadId) (whose : call.1 = id)
        (all : (s.order.filter (·.1 = id)).map (·.2) = [r]) : call.2 = r := by
      have found : call.2 ∈ (s.order.filter (·.1 = id)).map (·.2) :=
        List.mem_map_of_mem (List.mem_filter.mpr ⟨member, decide_eq_true whose⟩)
      rw [all] at found
      exact List.mem_singleton.mp found
    obtain one | two := known call member
    · exact mine _ one first
    · exact mine _ two second

/-! ## Whatever is there -/

/-- The machine suits a rehearsal: the program has its name, and the directory is named by a text, as
    arguments are, that can be read in an announcement and leaves room for the names of the reports. -/
structure Suitable (mode : Mode) (directory : CString) (place : Place) (m : Machine) : Prop where
  around : Surroundings m directory place
  text : Utf8.Valid directory.bytes
  line : Bytes.newline ∉ directory.bytes
  mark : Bytes.occursIn Check.Line.nameEnd directory.bytes = false
  program : ∃ path, m.executable = some path ∧ Bytes.baseName (Utf8.repair path) = heading
  room : LogFile.Room directory stem programName m.pid m.files place mode.expectedReports

theorem Suitable.prepared (h : Suitable mode directory place m)
    (appends : mode.expectsPostmortem = true) :
    configuration mode directory.bytes = .ok (echoConfig directory.bytes) ∧
      ∃ w, prepare mode (echoConfig directory.bytes) (.start m) = .ok w ∧ w.machine = m ∧
        Prepared mode directory place w := by
  obtain ⟨path, known, named⟩ := h.program
  have ne : directory.bytes ≠ [] := (FileTree.locate_iff.mp h.around.located).1
  obtain ⟨w, prepared, machine, fresh, free, calm, quiet, setUp⟩ :=
    prepare_echo mode h.text known named
  refine ⟨configuration_echo appends h.text ne, w, prepared, machine, ⟨free, setUp, ?_, ?_⟩, fresh,
    calm, quiet⟩
  · rw [machine]
    exact h.around
  · rw [machine]
    exact h.room

/-- In the modes whose postmortem command appends to the reports, a rehearsal leaves what its mode
    promises and nothing else, whatever is in the directory before and however the steps of two
    threads come. These never get stuck. -/
theorem leaves_reports (appends : mode.expectsPostmortem = true)
    (suitable : Suitable mode directory place m) :
    (∀ v, Ends mode directory.bytes (.start m) v →
      ∃ names content, Leaves mode directory place m v.machine names content) ∧
    ∀ s, AtOnce mode directory.bytes (.start m) s → ∃ s', s.Reaches s' ∧ s'.Finished := by
  obtain ⟨configured, w, prepared, machine, h⟩ := suitable.prepared appends
  have begun {s : Threads} (course : AtOnce mode directory.bytes (.start m) s) :
      (Threads.start w (twoCalls mode.report)).Reaches s := by
    obtain ⟨config, prepared', configured', prepares, reached⟩ := course
    rw [configured] at configured'
    cases configured'
    rw [prepared] at prepares
    cases prepares
    exact reached
  constructor
  · intro v ends
    cases ends with
    | inTurn =>
        have performs := h.performs appends
        obtain ⟨names, content, leaves⟩ := performs.leaves suitable.line suitable.mark
        rw [run_prepared configured prepared performs.done]
        rw [machine] at leaves
        exact ⟨names, content, leaves.of_same (.refl m) (same_conclude performs.quiet)⟩
    | atOnce s concurrent course finished =>
        -- whoever got the lock first, the same report was made twice
        obtain ⟨world, count, alike⟩ := order_twoCalls h.ready.free (begun course) finished
        have count' : s.order.length = mode.expectedReports := by
          rw [count, concurrent]
          rfl
        obtain ⟨names, content, leaves⟩ :=
          (count' ▸ h.ready : Ready mode directory place s.order.length w).leaves count' alike
            suitable.line suitable.mark
        rw [machine, ← world] at leaves
        refine ⟨names, content, leaves.of_same (.refl m) (same_conclude ?_)⟩
        rw [world]
        exact h.ready.quiet h.quiet
  · intro s course
    have distinct := distinct_twoCalls mode.report
    have returning (order : List (ThreadId × Report)) : Report.AllReturn order w :=
      h.ready.allReturn order
    have inv : Threads.Inv w (twoCalls mode.report) s :=
      ((Threads.Inv.start w _ h.ready.free).reaches distinct (begun course)).resolve_right
        fun stopped => stopped.not_returning returning
    exact inv.can_finish distinct returning

/-- A machine with a report of a process that had the same id. -/
def reusedMachine : Machine :=
  { Machine.bare with
    files := ⟨[([utf8 "bin"], .directory), ([utf8 "bin", utf8 "sh"], .file [] (.program shell)),
      ([utf8 "out"], .directory), ([utf8 "out", utf8 "st_crashing_test_app.42"], .file [] .forbidden)]⟩
    executable := some heading }

theorem reports_on_reusedMachine :
    Mode.concurrentFatal.expectsPostmortem = true ∧
    Suitable .concurrentFatal (.text "out") [utf8 "out"] reusedMachine ∧
    ∃ s, AtOnce .concurrentFatal (utf8 "out") (.start reusedMachine) s ∧ s.Finished ∧
      ∃ names content, Leaves .concurrentFatal (.text "out") [utf8 "out"] reusedMachine
        ((conclude (.ok .concurrentFatal)).run s.world).2.machine names content := by
  have around : Surroundings reusedMachine (.text "out") [utf8 "out"] := by
    refine ⟨?_, ?_, ?_, ?_, ?_, ?_, ?_⟩ <;> decide +kernel
  have room : LogFile.Room (.text "out") stem programName reusedMachine.pid reusedMachine.files
      [utf8 "out"] 2 := by
    intro k few
    have enough : 2 ≤ Nat.count (LogFile.Unused stem programName reusedMachine.pid
        reusedMachine.files [utf8 "out"]) 3 := by decide +kernel
    have near : k < 3 := by
      by_contra far
      exact absurd (enough.trans (Nat.count_monotone _ (Nat.le_of_not_lt far))) (Nat.not_le_of_lt few)
    interval_cases k <;> exact ⟨by decide +kernel, by decide +kernel⟩
  have suitable : Suitable .concurrentFatal (.text "out") [utf8 "out"] reusedMachine :=
    ⟨around, Utf8.valid_utf8 "out", by decide, by decide, ⟨heading, rfl, by decide +kernel⟩, room⟩
  obtain ⟨leaves, never_stuck⟩ := leaves_reports rfl suitable
  obtain ⟨configured, w, prepared, -⟩ := suitable.prepared rfl
  obtain ⟨s, reached, finished⟩ := never_stuck _ ⟨_, w, configured, prepared, .refl⟩
  have course : AtOnce .concurrentFatal (utf8 "out") (.start reusedMachine) s :=
    ⟨_, w, configured, prepared, reached⟩
  exact ⟨rfl, suitable, s, course, finished, leaves _ (.atOnce s rfl course finished)⟩

end Postmortem.Rehearsal

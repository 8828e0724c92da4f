import Postmortem.Proofs.ExtraLines
import Postmortem.Proofs.Remarks
import Postmortem.Proofs.Sequence

/-! # Reports are announced as they can be read

What a report writes to the error stream is an announcement, read from header to footer, or a line
that is passed over if there is no log file. So whoever reads the error stream after any number of
reports finds their log files.
-/

namespace Postmortem

open Bytes (newline)
open Check (Unobtrusive Plain Remarks Reads Legible Foreign)

/-- The texts of reports that a reader could mistake for parts of an announcement are not such. -/
structure World.Presentable (w : World) : Prop where
  program : newline ∉ w.context.reportNames.programName.bytes
  directory : newline ∉ w.context.reportNames.directory.bytes
  stem : newline ∉ w.context.reportNames.stem.bytes
  host_line : newline ∉ w.machine.hostText
  host_colon : (58 : UInt8) ∉ w.machine.hostText
  host_end : Bytes.occursIn Check.Line.nameEnd w.machine.hostText = false
  info : Unobtrusive w.context.programInfoText.flatten
  extra : Unobtrusive (w.context.extraText w.lines none).flatten

structure Report.Presentable (r : Report) : Prop where
  reason : Unobtrusive r.reason.bytes
  message : ∀ text, r.message = some text → Unobtrusive text.bytes

variable {w v : World} {r : Report} {program logName : CString}

/-! ## What stays the same while a report is made -/

theorem Machine.Follows.hostText {m later : Machine} (h : m.Follows later) :
    later.hostText = m.hostText := by
  rw [Machine.hostText, h.host, Machine.hostText]

theorem World.Follows.presentable (h : w.Follows v) (p : w.Presentable) : v.Presentable where
  program := by rw [h.reportNames]; exact p.program
  directory := by rw [h.reportNames]; exact p.directory
  stem := by rw [h.reportNames]; exact p.stem
  host_line := by rw [h.machine.hostText]; exact p.host_line
  host_colon := by rw [h.machine.hostText]; exact p.host_colon
  host_end := by rw [h.machine.hostText]; exact p.host_end
  info := by rw [h.context]; exact p.info
  extra := by rw [h.context, h.lines]; exact p.extra

namespace Report

theorem announcement_of_follows (h : w.Follows v) (banner : Banner) (program reason : CString)
    (message : Option CString) (logName : CString) :
    announcement v banner program reason message logName =
      announcement w banner program reason message logName := by
  rw [announcement, announcement, h.machine.hostText, h.context]
  rfl

theorem closing_of_follows (h : w.Follows v) (banner : Banner) : closing v banner = closing w banner := by
  rw [closing, closing, h.context, h.lines]
  rfl

/-! ## What a report writes -/

theorem run_say (text : Fragments) (w : World) :
    (World.say text).run w = ((), { w with machine := w.machine.say text.flatten }) := by
  induction text generalizing w with
  | nil => simp [World.say, Machine.say]
  | cons fragment rest ih =>
      simp only [World.say, World.machineStep, Steps.run_bind, Steps.run_change, ih, Machine.say,
        List.flatten_cons, List.append_assoc]

theorem run_append (path : Bytes) (text : Fragments) (w : World) :
    ((World.append path text).run w).2.machine.stderr = w.machine.stderr ∧
      ((World.append path text).run w).2.machine.launches = w.machine.launches := by
  induction text generalizing w with
  | nil => exact ⟨rfl, rfl⟩
  | cons fragment rest ih =>
      simp only [World.append, World.machineStep, Steps.run_bind, Steps.run_change]
      obtain ⟨stderr, launches⟩ := ih { w with machine := w.machine.appendTo path fragment }
      rw [stderr, launches, Machine.appendTo]
      split <;> exact ⟨rfl, rfl⟩

/-- The session logger, run if the postmortem command was. -/
def session (program logName : CString) (ran : Bool) : Steps World (Except Halt Unit) :=
  if ran then Session.finish World.childEnded program logName none true else return .ok ()

/-- The state in which the postmortem command is run. -/
def prepared (r : Report) (program logName : CString) (w : World) : World :=
  let preambled := ((World.append logName.bytes (preamble w r.reason r.message r.extra)).run w).2
  ((World.say (announcement preambled (.ofProgram program.bytes) program r.reason r.message
    logName)).run preambled).2

/-- The state in which the announcement has been closed. -/
def closed (program : CString) (w : World) : World :=
  ((World.say (closing w (.ofProgram program.bytes))).run w).2

theorem run_writeTo (r : Report) (program logName : CString) (w : World) :
    (r.writeTo program logName).run w =
      ((r.runPostmortem logName).andThen (concluded (.ofProgram program.bytes) program logName)).run
        (r.prepared program logName w) := by
  simp only [writeTo, Steps.run_bind, Steps.run_look]
  rfl

theorem run_concluded (program logName : CString) (ran : Bool) (w : World) :
    (concluded (.ofProgram program.bytes) program logName ran).run w =
      (session program logName ran).run (closed program w) := by
  simp only [concluded, Steps.run_bind, Steps.run_look]
  rfl

theorem run_writeTo_of_ok {ran : Bool}
    (ends : ((r.runPostmortem logName).run (r.prepared program logName w)).1 = .ok ran) :
    (r.writeTo program logName).run w = (session program logName ran).run
      (closed program ((r.runPostmortem logName).run (r.prepared program logName w)).2) := by
  rw [run_writeTo, Steps.run_andThen]
  simp only [ends]
  exact run_concluded program logName ran _

theorem run_writeTo_of_error {halt : Halt}
    (stops : ((r.runPostmortem logName).run (r.prepared program logName w)).1 = .error halt) :
    (r.writeTo program logName).run w =
      (.error halt, ((r.runPostmortem logName).run (r.prepared program logName w)).2) := by
  rw [run_writeTo, Steps.run_andThen]
  simp only [stops]

theorem follows_preambled (r : Report) (logName : CString) (w : World) :
    w.Follows ((World.append logName.bytes (preamble w r.reason r.message r.extra)).run w).2 :=
  World.follows_run (World.covers_follows.always_append _ _) w

theorem follows_prepared (r : Report) (program logName : CString) (w : World) :
    w.Follows (r.prepared program logName w) :=
  (follows_preambled r logName w).trans (World.follows_run (World.covers_follows.always_say _) _)

theorem follows_closed (program : CString) (w : World) : w.Follows (closed program w) :=
  World.follows_run (World.covers_follows.always_say _) w

theorem follows_session (program logName : CString) (ran : Bool) (w : World) :
    w.Follows ((session program logName ran).run w).2 := by
  rw [session]
  split
  · exact World.follows_run (World.covers_follows.always_finish program logName) w
  · exact .refl w

theorem stderr_prepared (r : Report) (program logName : CString) (w : World) :
    (r.prepared program logName w).machine.stderr = w.machine.stderr ++
      (announcement w (.ofProgram program.bytes) program r.reason r.message logName).flatten := by
  simp only [prepared, run_say, Machine.say, announcement_of_follows (follows_preambled r logName w)]
  rw [(run_append _ _ _).1]

theorem stderr_closed (h : w.Follows v) (program : CString) :
    (closed program v).machine.stderr =
      v.machine.stderr ++ (closing w (.ofProgram program.bytes)).flatten := by
  simp only [closed, run_say, Machine.say, closing_of_follows h]

theorem told_session (program logName : CString) (ran : Bool) (w : World) :
    Told w.machine ((session program logName ran).run w).2.machine := by
  rw [session]
  split
  · exact Session.told_finish program logName w
  · exact .of_eq rfl

theorem told_writeTo (r : Report) (program logName : CString) (w : World)
    (returned : ((r.writeTo program logName).run w).1 = .ok ())
    (paths : ∀ launch ∈ launchesSince w.machine ((r.writeTo program logName).run w).2.machine,
      newline ∉ launch.path.bytes) :
    ∃ work after, Remarks work ∧ Remarks after ∧
      ((r.writeTo program logName).run w).2.machine.stderr = w.machine.stderr ++
        ((announcement w (.ofProgram program.bytes) program r.reason r.message logName).flatten ++
          work ++ (closing w (.ofProgram program.bytes)).flatten ++ after) := by
  let w₁ := r.prepared program logName w
  let w₂ := ((r.runPostmortem logName).run w₁).2
  let w₃ := closed program w₂
  cases result : ((r.runPostmortem logName).run w₁).1 with
  | error halt =>
      rw [run_writeTo_of_error result] at returned
      cases returned
  | ok ran =>
      let w₄ := ((session program logName ran).run w₃).2
      have course : ((r.writeTo program logName).run w).2 = w₄ := by rw [run_writeTo_of_ok result]
      have f₁ : w.Follows w₁ := follows_prepared r program logName w
      have f₂ : w₁.Follows w₂ := World.follows_runCommand _ _ _ _ _ w₁
      have f₃ : w₂.Follows w₃ := follows_closed program w₂
      have f₄ : w₃.Follows w₄ := follows_session _ _ _ w₃
      rw [course] at paths ⊢
      obtain ⟨work, remarks, worked⟩ : ∃ work, Remarks work ∧
          w₂.machine.stderr = w₁.machine.stderr ++ work := by
        refine World.told_runCommand _ _ _ _ spoken_postmortem w₁ fun launch member =>
          paths launch ?_
        have here := launchesSince_left f₂.machine.launched (f₃.trans f₄).machine.launched member
        exact launchesSince_right f₁.machine.launched here
      obtain ⟨after, remarks', ended⟩ : ∃ after, Remarks after ∧
          w₄.machine.stderr = w₃.machine.stderr ++ after := by
        exact told_session _ _ _ w₃ fun launch member =>
          paths launch (launchesSince_right ((f₁.trans f₂).trans f₃).machine.launched member)
      refine ⟨work, after, remarks, remarks', ?_⟩
      rw [ended, stderr_closed (f₁.trans f₂), worked, stderr_prepared]
      simp only [List.append_assoc]

/-! ## How it is read -/

/-- The lines between the header and the log file are passed over. -/
theorem plain_body (p : w.Presentable) (q : r.Presentable) :
    Plain (w.context.programInfoText ++ reasonLine r.reason ++ optionalLine r.message).flatten := by
  let opening := utf8 "his stack trace was requested because: "
  have text : utf8 "This stack trace was requested because: " = 84 :: opening := by decide +kernel
  have single : newline ∉ opening := by decide +kernel
  have reason : Plain (w.context.programInfoText ++ reasonLine r.reason).flatten := by
    have later : ∀ line ∈ (Bytes.pieces newline (opening ++ r.reason.bytes)).tail,
        Check.Ordinary line := by
      intro line member
      rw [Bytes.pieces_append_of_notMem single, List.tail_modifyHead] at member
      exact q.reason line (List.mem_of_mem_tail member)
    have whole := (p.info.append_foreign (b := 84) (by decide +kernel) later).plain
    have flat : (w.context.programInfoText ++ reasonLine r.reason).flatten =
        w.context.programInfoText.flatten ++ 84 :: (opening ++ r.reason.bytes) ++ [newline] := by
      simp only [reasonLine, line, text, List.flatten_append, List.flatten_cons, List.flatten_nil,
        List.append_nil, List.append_assoc, List.cons_append]
    rw [flat]
    exact whole
  have message : Plain (optionalLine r.message).flatten := by
    cases present : r.message with
    | none => exact Check.plain_nil
    | some text =>
        have whole := (q.message text present).plain
        simpa only [optionalLine, line, List.flatten_cons, List.flatten_nil, List.append_nil]
          using whole
  rw [List.flatten_append]
  exact reason.append message

theorem plain_preview (p : w.Presentable) :
    Plain (w.context.extraText w.lines (some previewLines)).flatten := by
  have all := p.extra
  rw [Context.extraText] at all ⊢
  split
  · rename_i registry read
    rw [read] at all
    have preview := ExtraLines.unobtrusive_preview all (some previewLines)
    exact preview.plain_of_whole (ExtraLines.whole_emit _ _ _)
  · exact Check.plain_nil

theorem reads_announcement (p : w.Presentable) (q : r.Presentable)
    (legible : Legible w.machine.hostText logName.bytes) {work after : Bytes} (worked : Remarks work)
    (ended : Remarks after) :
    Reads w.context.reportNames.programName.bytes .idle
      ((announcement w (.ofProgram w.context.reportNames.programName.bytes)
          w.context.reportNames.programName r.reason r.message logName).flatten ++ work ++
        (closing w (.ofProgram w.context.reportNames.programName.bytes)).flatten ++ after)
      .idle [logName.bytes] := by
  let program := w.context.reportNames.programName.bytes
  let banner := Banner.ofProgram program
  let body := w.context.programInfoText ++ reasonLine r.reason ++ optionalLine r.message
  let preview := w.context.extraText w.lines (some previewLines)
  have target : utf8 " ] ..." = Check.Line.nameEnd ++ utf8 " ..." := by decide +kernel
  have announced : (announcement w banner w.context.reportNames.programName r.reason r.message
      logName).flatten = (banner.header program).flatten ++
        (body.flatten ++ Check.logLine w.machine.hostText logName.bytes) := by
    simp only [announcement, body, Check.logLine, Check.target, Check.Line.logMark, target,
      List.flatten_append, List.flatten_cons, List.flatten_nil, List.append_nil, List.append_assoc,
      program]
  have closed : (closing w banner).flatten =
      utf8 " done.\n" ++ (preview.flatten ++ banner.footer.flatten) := by
    simp only [closing, preview, List.flatten_append, List.flatten_cons, List.cons_append]
  have header : Reads program .idle (banner.header program).flatten .headed [] :=
    Check.reads_header p.program
  have inside : Reads program .headed body.flatten .headed [] := (plain_body p q).reads
  have worked : Reads program .headed (Check.logLine w.machine.hostText logName.bytes ++ work ++
      utf8 " done.\n") .finished [logName.bytes] := Check.reads_work legible worked
  have previewed : Reads program .finished preview.flatten .finished [] := (plain_preview p).reads
  have footer : Reads program .finished banner.footer.flatten .idle [] := Check.reads_footer program
  have whole := (((header.append inside).append worked).append previewed).append
    (footer.append ended.plain.reads)
  rw [announced, closed]
  simpa only [List.append_assoc, List.nil_append, List.append_nil] using whole

theorem legible_logFile (p : w.Presentable) (created : w.logFile? = some logName)
    (name_end : Bytes.occursIn Check.Line.nameEnd logName.bytes = false) :
    Legible w.machine.hostText logName.bytes := by
  obtain ⟨k, rfl⟩ := LogFile.candidate_of_create (World.search_of_logFile created)
  exact ⟨p.host_colon, p.host_end, name_end, p.host_line,
    LogFile.notMem_candidate (by decide) (by decide) (by decide) p.directory p.stem p.program k⟩

theorem plain_noLogFile : Plain noLogFile := by
  have text : noLogFile = utf8 "Cannot create a log file" ++ [newline] := by decide +kernel
  have ordinary : Unobtrusive (utf8 "Cannot create a log file") := by
    intro line member
    rw [Bytes.pieces_of_notMem (by decide +kernel), List.mem_singleton] at member
    subst member
    exact ⟨by decide +kernel, by decide +kernel, by decide +kernel⟩
  rw [text]
  exact ordinary.plain

theorem searched_presentable (p : w.Presentable) (r : Report) (me : ThreadId) :
    (r.searched me w).Presentable := by
  have here : (r.entered me w).Presentable := by
    rw [entered]
    split <;> exact { p with }
  have machine : (r.entered me w).machine.Follows w.search.2 := by
    rw [machine_entered]
    exact w.follows_search
  exact (World.follows_machine machine).presentable here

/-- What a call writes is read as the announcement of its log file, if it has one. -/
theorem reads_said (me : ThreadId) (free : w.context.reportLock = .free) (returns : r.Returns me w)
    (p : w.Presentable) (q : r.Presentable)
    (names : ∀ name, w.logFile? = some name →
      Bytes.occursIn Check.Line.nameEnd name.bytes = false)
    (paths : ∀ launch ∈ launchesSince w.machine ((r.log me).run w).2.machine,
      newline ∉ launch.path.bytes) :
    Reads w.context.reportNames.programName.bytes .idle (r.said me w) .idle
      (w.logFile?.toList.map (·.bytes)) := by
  let v := r.searched me w
  have stderr : v.machine.stderr = w.machine.stderr := LogFile.stderr_of_create _ _ _ _ _
  have launches : v.machine.launches = w.machine.launches := LogFile.launches_of_create _ _ _ _ _
  have said {text : Bytes} (h : ((r.log me).run w).2.machine.stderr = w.machine.stderr ++ text) :
      r.said me w = text := by
    rw [Report.said, h, List.drop_left]
  have untrapped := untrapped_of_returns free returns
  have course := made_of_untrapped r me untrapped
  have after := machine_after_log r me free
  have returned := made_of_returns free returns
  rw [course] at after returned
  cases found : w.search.1 with
  | error e =>
      rw [found] at after
      have none : w.logFile? = none := by simp [World.logFile?, untrapped, found, Except.toOption]
      have text : r.said me w = noLogFile := by
        apply said
        rw [after, ← stderr]
        simp only [continued, World.machineStep, Steps.run_bind, Steps.run_change, run_say,
          Machine.say, List.flatten_cons, List.flatten_nil, List.append_nil, Steps.run_pure, v]
      rw [text, none]
      exact plain_noLogFile.reads
  | ok name =>
      rw [found] at after returned
      have created : w.logFile? = some name := by
        simp [World.logFile?, untrapped, found, Except.toOption]
      have presentable : v.Presentable := searched_presentable p r me
      have names_eq : v.context.reportNames = w.context.reportNames := reportNames_entered r me w
      have host : v.machine.hostText = w.machine.hostText := w.follows_search.hostText
      have legible : Legible v.machine.hostText name.bytes := by
        rw [host]
        exact legible_logFile p created (names name created)
      obtain ⟨work, ended, remarks, remarks', text⟩ :=
        told_writeTo r w.context.reportNames.programName name v returned (by
          intro launch member
          refine paths launch ?_
          rw [launchesSince, launches] at member
          rw [launchesSince, after]
          exact member)
      have whole := said ((congrArg Machine.stderr after).trans (stderr ▸ text))
      have reads := reads_announcement presentable q legible remarks remarks'
      rw [names_eq] at reads
      rw [whole, created]
      exact reads

/-! ## Any number of reports -/

variable {calls : List (ThreadId × Report)}

theorem reads_saidBy (free : w.context.reportLock = .free) (all : AllReturn calls w)
    (p : w.Presentable) (texts : ∀ call ∈ calls, call.2.Presentable)
    (names : ∀ name ∈ logFiles calls w, Bytes.occursIn Check.Line.nameEnd name.bytes = false)
    (paths : ∀ launch ∈ launchesSince w.machine (afterAll calls w).machine,
      newline ∉ launch.path.bytes) :
    Reads w.context.reportNames.programName.bytes .idle (saidBy calls w).flatten .idle
      ((logFiles calls w).map (·.bytes)) := by
  induction calls generalizing w with
  | nil => exact Check.plain_nil.reads
  | cons call rest ih =>
      obtain ⟨me, r⟩ := call
      obtain ⟨returns, later⟩ := allReturn_cons.mp all
      have follows := follows_log free returns
      have free' := free_after_log free returns
      have onwards : ((r.log me).run w).2.machine.Follows
          (afterAll rest ((r.log me).run w).2).machine := machine_follows_afterAll free'
      rw [afterAll_cons returns] at paths
      have first := reads_said me free returns p (texts _ List.mem_cons_self)
        (fun name created => names name (by simp [logFiles, created]))
        (fun launch member => paths launch
          (launchesSince_left follows.machine.launched onwards.launched member))
      have others := ih free' later (follows.presentable p)
        (fun call member => texts call (List.mem_cons_of_mem _ member))
        (fun name member => names name (List.mem_append_right _ member))
        (fun launch member => paths launch
          (launchesSince_right follows.machine.launched member))
      rw [follows.reportNames] at others
      rw [saidBy, List.flatten_cons, logFiles, List.map_append]
      exact first.append others

/-- The reader of the error stream finds the log files of all reports, in order, if the calls all
    return. -/
theorem announcements_afterAll (free : w.context.reportLock = .free) (all : AllReturn calls w)
    (silent : w.machine.stderr = []) (p : w.Presentable)
    (texts : ∀ call ∈ calls, call.2.Presentable)
    (names : ∀ name ∈ logFiles calls w, Bytes.occursIn Check.Line.nameEnd name.bytes = false)
    (paths : ∀ launch ∈ launchesSince w.machine (afterAll calls w).machine,
      newline ∉ launch.path.bytes) :
    Check.announcements (afterAll calls w).machine.stderr
        w.context.reportNames.programName.bytes =
      .ok ((logFiles calls w).map (·.bytes)) := by
  rw [stderr_afterAll free all, silent, List.nil_append]
  exact (reads_saidBy free all p texts names paths).announcements

/-- A machine on which the postmortem command is not to be found. -/
def announcedWorld : World :=
  { World.start .bare with
    context := { Context.initial with
      names := .new ⟨some (.text "app"), some (.text "."), none⟩
      commands := .new { Commands.none with
        postmortem := ⟨some (.text "gone"), some [.text "gone"], none⟩ } } }

/-- An ordinary report, for which the postmortem command is tried, and a fatal one. -/
def announcedCalls : List (ThreadId × Report) :=
  [(⟨1, by decide⟩, ⟨false, .text "why", some (.text "because"), none⟩),
    (⟨2, by decide⟩, ⟨true, .text "again", none, none⟩)]

theorem two_reports_announced :
    ((afterAll announcedCalls announcedWorld).machine.launches.map (·.path)) = [.text "gone"] ∧
      Check.announcements (afterAll announcedCalls announcedWorld).machine.stderr (utf8 "app") =
        .ok [utf8 "./st_app.42", utf8 "./st_app.42.1"] := by
  have files : (logFiles announcedCalls announcedWorld).map (·.bytes) =
      [utf8 "./st_app.42", utf8 "./st_app.42.1"] := by decide +kernel
  have launched : (afterAll announcedCalls announcedWorld).machine.launches.map (·.path) =
      [.text "gone"] := by decide +kernel
  have presentable : announcedWorld.Presentable := by
    refine ⟨?_, ?_, ?_, ?_, ?_, ?_, ?_, ?_⟩ <;> decide +kernel
  refine ⟨launched, ?_⟩
  rw [← files]
  have all : AllReturn announcedCalls announcedWorld :=
    ⟨announcedCalls.map fun _ => .acquired, by decide +kernel⟩
  refine announcements_afterAll rfl all rfl presentable ?_ ?_ ?_
  · intro call member
    refine ⟨?_, ?_⟩
    · revert call
      decide +kernel
    · intro text present
      revert call
      simp only [announcedCalls, List.forall_mem_cons, Option.some.injEq]
      refine ⟨?_, ?_, by simp⟩
      · rintro rfl
        decide +kernel
      · intro absent
        cases absent
  · have ends : ∀ name ∈ (logFiles announcedCalls announcedWorld).map (·.bytes),
        Bytes.occursIn Check.Line.nameEnd name = false := by
      rw [files]
      decide +kernel
    intro name member
    exact ends name.bytes (List.mem_map_of_mem member)
  · have paths : ∀ path ∈ (afterAll announcedCalls announcedWorld).machine.launches.map (·.path),
        newline ∉ path.bytes := by
      rw [launched]
      decide +kernel
    intro launch member
    exact paths launch.path (List.mem_map_of_mem (List.mem_of_mem_drop member))

end Report

end Postmortem

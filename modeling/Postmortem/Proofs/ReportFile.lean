import Postmortem.Proofs.Launches
import Postmortem.Proofs.Outward
import Postmortem.Proofs.Utf8
import Postmortem.Check.ReportFile

/-! # Log files are as the check of report files wants them

A log file begins with the preamble of its report, and whatever comes after that is added behind it.
So its first line gives the reason, however many lines the other texts of the report have, and the
line that ends the preamble is found at the beginning of a line.
-/

namespace Postmortem

open Bytes (newline occursIn)
open Utf8 (Valid)

/-! ## Valid texts -/

namespace ExtraLines

variable {key : Bytes} {lines : List Bytes} {entries : List (Bytes × List Bytes)}

theorem valid_line {text : Bytes} (h : Valid text) : Valid (line text).flatten := by
  rw [line]
  split
  · simpa using h
  · simpa using h.append Utf8.valid_newline

theorem valid_emitLines (h : ∀ text ∈ lines, Valid text) (max : Option Nat) (shown : Nat) :
    Valid (emitLines max shown lines).1.flatten := by
  induction lines generalizing shown with
  | nil => exact Utf8.valid_nil
  | cons text rest ih =>
      rw [emitLines]
      split
      · simpa [truncated] using Utf8.valid_utf8 "... see full diagnostics in crash report.\n"
      · rw [List.flatten_append]
        have others := ih (fun t member => h t (List.mem_cons_of_mem _ member)) (shown + 1)
        exact (valid_line (h text List.mem_cons_self)).append others

theorem valid_heading (h : Valid key) : Valid (heading key).flatten := by
  have whole := (Utf8.valid_newline.append h).append (Utf8.valid_utf8 ":\n")
  simpa [heading] using whole

theorem valid_emitEntries (h : ∀ entry ∈ entries, Valid entry.1 ∧ ∀ text ∈ entry.2, Valid text)
    (max : Option Nat) (shown : Nat) : Valid (emitEntries max shown entries).flatten := by
  induction entries generalizing shown with
  | nil => exact Utf8.valid_nil
  | cons entry rest ih =>
      obtain ⟨key, lines⟩ := entry
      obtain ⟨validKey, validLines⟩ := h _ List.mem_cons_self
      have first := valid_emitLines validLines max shown
      rw [emitEntries]
      split
      · next fragments after emitted =>
        rw [emitted] at first
        rw [List.flatten_append, List.flatten_append]
        exact ((valid_heading validKey).append first).append
          (ih (fun e member => h e (List.mem_cons_of_mem _ member)) after)
      · next fragments emitted =>
        rw [emitted] at first
        rw [List.flatten_append]
        exact (valid_heading validKey).append first

end ExtraLines

/-! ## The check -/

namespace Check

variable {line rest text path reason : Bytes} {tree : FileTree} {working : Place}

theorem lines_of_first (single : newline ∉ line) (noReturn : line.getLast? ≠ some 13) :
    (Bytes.lines (line ++ newline :: rest)).head? = some line := by
  rw [Bytes.lines, Bytes.pieces_append_mark single]
  cases cut : Bytes.pieces newline rest with
  | nil => exact absurd cut (Bytes.pieces_ne_nil newline rest)
  | cons piece more =>
      rw [Bytes.ofPieces, List.head?_cons, Bytes.dropReturn, if_neg noReturn]
      exact List.cons_ne_nil piece more

/-- A text that begins with the reason and has the section is refused for the mark alone. -/
theorem contents_of_begins (single : newline ∉ reason) (noReturn : reason.getLast? ≠ some 13)
    (begins : text = firstLineFor reason ++ newline :: rest) (ends : sectionMark <:+: text)
    (path : Bytes) (expected : Bool) :
    contents path reason expected text =
      if occursIn postmortemMark text = expected then .ok ()
      else .error (.postmortem expected text) := by
  have first : (Bytes.lines text).head? = some (firstLineFor reason) := by
    rw [begins]
    apply lines_of_first
    · rw [firstLineFor, List.mem_append, not_or]
      exact ⟨by decide +kernel, single⟩
    · rw [firstLineFor, List.getLast?_append]
      cases last : reason.getLast? with
      | none => decide +kernel
      | some b => simpa [last] using noReturn
  have found : occursIn sectionMark text = true := occursIn_iff.mpr ends
  rw [contents]
  simp only [first, Option.getD_some, ne_eq, not_true_eq_false, if_false, found, Bool.not_true,
    Bool.false_eq_true, ite_not]

/-- What the check says of a file that holds such a text. -/
theorem report_of_begins (noNul : (0 : UInt8) ∉ path) (read : tree.read working path = .ok text)
    (valid : Valid text) (single : newline ∉ reason) (noReturn : reason.getLast? ≠ some 13)
    (begins : text = firstLineFor reason ++ newline :: rest) (ends : sectionMark <:+: text)
    (expected : Bool) :
    report tree working path reason expected =
      if occursIn postmortemMark text = expected then .ok text
      else .error (.postmortem expected text) := by
  rw [report, readText, if_neg noNul, read]
  simp only [valid.decodes, if_true, contents_of_begins single noReturn begins ends]
  split <;> rfl

end Check

/-! ## The log file -/

namespace FileTree

variable {tree : FileTree} {working : Place} {path bytes content : Bytes}

/-- A file that can be read can be appended to. -/
theorem append_of_read (was : tree.read working path = .ok content) (bytes : Bytes) :
    ∃ later, tree.append working path bytes = .ok later ∧
      later.read working path = .ok (content ++ bytes) := by
  obtain ⟨place, run, located⟩ := read_iff.mp was
  obtain ⟨ne_nil, length_le, walk, there, open_end⟩ := locate_iff.mp located
  have ne := ne_nil_of_file there
  have grows := (extends_put ne there (.file content bytes run)).grows
  have now : (tree.put place (.file (content ++ bytes) run)).locate working path =
      .ok (place, .file (content ++ bytes) run) :=
    locate_iff.mpr ⟨ne_nil, length_le, grows.walk walk, by rw [ entry?_put ne, if_pos rfl], open_end⟩
  exact ⟨_, by rw [FileTree.append, located], read_iff.mpr ⟨place, run, now⟩⟩

end FileTree

/-- The content of the file at this path. -/
def World.file (w : World) (path : Bytes) : Except Errno Bytes :=
  w.machine.files.read w.machine.working path

namespace Report

variable {w v : World} {r : Report} {program logName : CString} {path content : Bytes}

theorem file_append (text : Fragments) (was : w.file path = .ok content) :
    ((World.append path text).run w).2.file path = .ok (content ++ text.flatten) := by
  induction text generalizing w content with
  | nil => simpa [World.append] using was
  | cons fragment rest ih =>
      obtain ⟨files, appended, now⟩ := FileTree.append_of_read was fragment
      have step : w.machine.appendTo path fragment = { w.machine with files } := by
        rw [Machine.appendTo, appended]
      simp only [World.append, World.machineStep, Steps.run_bind, Steps.run_change, step]
      rw [List.flatten_cons, ← List.append_assoc]
      exact ih now

/-- What was in a file stays at its beginning. -/
theorem file_of_extends (working : v.machine.working = w.machine.working)
    (h : w.machine.files.Extends v.machine.files) (was : w.file path = .ok content) :
    ∃ more, v.file path = .ok (content ++ more) := by
  rw [World.file, working]
  exact h.read was

theorem preamble_searched (r : Report) (me : ThreadId) (w : World) (reason : CString)
    (message extra : Option CString) :
    preamble (r.searched me w) reason message extra = preamble w reason message extra := by
  rw [preamble, preamble, searched, entered]
  split <;> rfl

/-- The log file of a call holds the preamble, and what came after that. -/
theorem file_after_log (me : ThreadId) (free : w.context.reportLock = .free)
    (created : w.logFile? = some logName) :
    ∃ appended, ((r.log me).run w).2.file logName.bytes =
      .ok ((preamble w r.reason r.message r.extra).flatten ++ appended) := by
  let text := preamble w r.reason r.message r.extra
  let program := w.context.reportNames.programName
  let v := r.searched me w
  let v' := ((World.append logName.bytes text).run v).2
  let v'' := ((r.announced program logName).run v').2
  have machine : ((r.log me).run w).2.machine = v''.machine := by
    rw [machine_after_log r me free, made_of_logFile r me created]
    simp only [writeTo_eq, Steps.run_bind, Steps.run_look, preamble_searched]
    rfl
  have empty : v.file logName.bytes = .ok [] := by
    obtain ⟨_, _, -, -, file⟩ :=
      FileTree.created_of_createExclusive (World.createExclusive_of_logFile created)
    show w.search.2.files.read w.search.2.working logName.bytes = _
    rw [w.follows_search.working]
    exact file.read
  have preambled : v'.file logName.bytes = .ok text.flatten := file_append text empty
  have rest : v'.Outward v'' :=
    World.outward_run (World.covers_outward.always_announced r program logName) v'
  have working : v''.machine.working = v'.machine.working :=
    (World.follows_run (World.covers_follows.always_announced r program logName) v').machine.working
  obtain ⟨more, file⟩ := file_of_extends working rest.files preambled
  refine ⟨more, ?_⟩
  rw [World.file, machine]
  exact file

/-! ## All of it -/

theorem extends_log (r : Report) (me : ThreadId) (free : w.context.reportLock = .free) :
    w.machine.files.Extends ((r.log me).run w).2.machine.files := by
  have made := (outward_unmarked r (r.entered me w)).files
  rw [machine_after_log r me free]
  rwa [machine_entered] at made

theorem extends_afterAll {calls : List (ThreadId × Report)} (free : w.context.reportLock = .free) :
    w.machine.files.Extends (afterAll calls w).machine.files := by
  induction calls generalizing w with
  | nil => exact .refl w.machine.files
  | cons call rest ih =>
      obtain ⟨me, r⟩ := call
      cases called : ((r.log me).run w).1 with
      | error halt =>
          rw [afterAll_cons_error called]
          exact extends_log r me free
      | ok attempt =>
          have returns : r.Returns me w := ⟨attempt, called⟩
          rw [afterAll_cons returns]
          exact (extends_log r me free).trans (ih (free_after_log free returns))

/-- What a call leaves in a file is there after later calls, with more behind it. -/
theorem file_afterAll_cons {me : ThreadId}
    (free : w.context.reportLock = .free) (was : ((r.log me).run w).2.file path = .ok content)
    (calls : List (ThreadId × Report)) :
    ∃ more, (afterAll ((me, r) :: calls) w).file path = .ok (content ++ more) := by
  cases called : ((r.log me).run w).1 with
  | error halt =>
      rw [afterAll_cons_error called]
      exact ⟨[], by rw [was, List.append_nil]⟩
  | ok attempt =>
      have returns : r.Returns me w := ⟨attempt, called⟩
      have free' := free_after_log free returns
      rw [afterAll_cons returns]
      exact file_of_extends (machine_follows_afterAll free').working (extends_afterAll free') was

/-- The preamble has what the check looks for. -/
theorem preamble_begins (w : World) (reason : CString) (message extra : Option CString) :
    ∃ rest, (preamble w reason message extra).flatten =
      Check.firstLineFor reason.bytes ++ newline :: rest ∧
      Check.sectionMark <:+ (preamble w reason message extra).flatten := by
  refine ⟨(optionalLine message ++ w.context.extraText w.lines none ++ optionalLine extra
    ++ [Check.sectionMark]).flatten, ?_, ?_⟩
  · simp [preamble, reasonLine, line, Check.firstLineFor, Check.sectionMark]
  · rw [preamble, List.flatten_append, List.flatten_singleton]
    exact List.suffix_append _ _

/-- The texts of a report are such. -/
structure Textual (r : Report) : Prop where
  reason : Valid r.reason.bytes
  message : ∀ text, r.message = some text → Valid text.bytes
  extra : ∀ text, r.extra = some text → Valid text.bytes

end Report

/-- The headings and lines that reports show are texts. -/
def World.TextualLines (w : World) : Prop :=
  ∀ registry, w.context.extraLines.tryRead = some registry →
    ∀ entry ∈ registry.visible w.lines, Valid entry.1 ∧ ∀ line ∈ entry.2, Valid line

theorem World.TextualLines.valid {w : World} (h : w.TextualLines) (max : Option Nat) :
    Valid (w.context.extraText w.lines max).flatten := by
  rw [Context.extraText]
  split
  · next registry shown => exact ExtraLines.valid_emitEntries (h registry shown) max 0
  · exact Utf8.valid_nil

namespace Report

variable {w : World} {r : Report} {logName : CString}

theorem valid_optionalLine {text : Option CString} (h : ∀ t, text = some t → Valid t.bytes) :
    Valid (optionalLine text).flatten := by
  cases text with
  | none => exact Utf8.valid_nil
  | some t => simpa [optionalLine, line] using (h t rfl).append Utf8.valid_newline

theorem valid_preamble (texts : r.Textual) (lines : w.TextualLines) :
    Valid (preamble w r.reason r.message r.extra).flatten := by
  have opening := (Utf8.valid_utf8 "This stack trace was requested because: ").append
    (texts.reason.append Utf8.valid_newline)
  have whole := (((opening.append (valid_optionalLine texts.message)).append
    (lines.valid none)).append (valid_optionalLine texts.extra)).append
      (Utf8.valid_utf8 "\nPostmortem Stack Trace\n")
  simpa [preamble, reasonLine, line] using whole

/-- The log file of a report holds its preamble and what was added behind it, by the end of the
    report and after any other reports. If all of this is text, the check of report files accepts
    it, whatever the texts are: it returns the contents if the mark of the postmortem command is
    there exactly if it is expected, and otherwise complains about the mark. -/
theorem log_file_checked {me : ThreadId} {later : List (ThreadId × Report)}
    (free : w.context.reportLock = .free) (created : w.logFile? = some logName)
    (texts : r.Textual) (lines : w.TextualLines) (single : newline ∉ r.reason.bytes)
    (noReturn : r.reason.bytes.getLast? ≠ some 13) :
    ∃ appended,
      let contents := (preamble w r.reason r.message r.extra).flatten ++ appended
      let after := afterAll ((me, r) :: later) w
      after.file logName.bytes = .ok contents ∧
      (Valid appended → ∀ expected,
        Check.report after.machine.files after.machine.working logName.bytes r.reason.bytes
            expected =
          if occursIn Check.postmortemMark contents = expected then .ok contents
          else .error (.postmortem expected contents)) := by
  obtain ⟨first, file⟩ := file_after_log (r := r) me free created
  obtain ⟨more, file'⟩ := file_afterAll_cons free file later
  obtain ⟨rest, begins, ends⟩ := preamble_begins w r.reason r.message r.extra
  rw [List.append_assoc] at file'
  have firstLine : (preamble w r.reason r.message r.extra).flatten ++ (first ++ more) =
      Check.firstLineFor r.reason.bytes ++ newline :: (rest ++ (first ++ more)) := by
    rw [begins, List.append_assoc, List.cons_append]
  have marked := ends.isInfix.trans (List.prefix_append _ (first ++ more)).isInfix
  refine ⟨first ++ more, file', fun valid expected => ?_⟩
  exact Check.report_of_begins logName.nul_notMem file' ((valid_preamble texts lines).append valid)
    single noReturn firstLine marked expected

/-- A program that leaves the mark of the postmortem command in the file it is given. -/
def marker : Program where
  appends := [⟨0, [.literal Check.postmortemMark, .literal [newline]]⟩]
  lifetime := some 0
  ending := .exited 0
  recorded := false

/-- A process with that program for its postmortem command, and with a line for its reports. -/
def markedWorld : World :=
  { World.start { Machine.bare with
      files := FileTree.empty.makeFile [utf8 "bin", utf8 "mark"] [] (.program marker) } with
    context := { Context.initial with
      names := .new ⟨some (.spelled "app"), some (.spelled "."), none⟩
      commands := .new { Commands.none with
        postmortem := ⟨some (.spelled "/bin/mark"), some [.spelled "$cmd", .spelled "$log"], none⟩ }
      extraLines := .new (ExtraLines.empty.set (utf8 "lines") (some ⟨0, utf8 "own", [[newline]], false⟩)) }
    lines := LineStore.empty.put (utf8 "own") [utf8 "first\r\n", utf8 "second"] }

/-- What is there after a report of that process. -/
def afterMark : World :=
  afterAll [(⟨1, Nat.one_pos⟩, ⟨false, .spelled "why", some (.spelled "because"), none⟩)] markedWorld

theorem marked_log_file_checked :
    let logName : CString := .spelled "./st_app.42"
    let reason : CString := .spelled "why"
    ∃ contents, afterMark.file logName.bytes = .ok contents ∧
      Check.report afterMark.machine.files afterMark.machine.working logName.bytes reason.bytes true =
        .ok contents := by
  intro logName reason
  let r : Report := ⟨false, reason, some (.spelled "because"), none⟩
  have created : markedWorld.logFile? = some logName := by decide +kernel
  have texts : r.Textual := by
    refine ⟨Utf8.valid_utf8 "why", ?_, ?_⟩
    · rintro text ⟨⟩
      exact Utf8.valid_utf8 "because"
    · rintro text ⟨⟩
  have lines : markedWorld.TextualLines := by
    rintro registry ⟨⟩ entry member
    have shown : (markedWorld.context.extraLines.value.visible markedWorld.lines) =
        [(utf8 "lines", [utf8 "first\r\n", utf8 "second"])] := by decide +kernel
    obtain rfl := List.mem_singleton.mp (shown ▸ member)
    refine ⟨Utf8.valid_utf8 "lines", fun line member => ?_⟩
    obtain rfl | rfl : line = utf8 "first\r\n" ∨ line = utf8 "second" := by simpa using member
    · exact Utf8.valid_utf8 "first\r\n"
    · exact Utf8.valid_utf8 "second"
  obtain ⟨appended, file, checked⟩ := @log_file_checked markedWorld r logName ⟨1, Nat.one_pos⟩ [] rfl
    created texts lines (by decide) (by decide)
  have same : afterAll [(⟨1, Nat.one_pos⟩, r)] markedWorld = afterMark := rfl
  rw [same] at file checked
  have marked : afterMark.file logName.bytes = .ok ((preamble markedWorld r.reason r.message
      r.extra).flatten ++ utf8 "postmortem ran for pid\n") := by decide +kernel
  obtain rfl : appended = utf8 "postmortem ran for pid\n" :=
    List.append_cancel_left (Except.ok.inj (file.symm.trans marked))
  have mark : occursIn Check.postmortemMark ((preamble markedWorld r.reason r.message
      r.extra).flatten ++ utf8 "postmortem ran for pid\n") = true := by decide +kernel
  have accepted := checked (Utf8.valid_utf8 _) true
  rw [mark, if_pos rfl] at accepted
  exact ⟨_, file, accepted⟩

end Report

end Postmortem

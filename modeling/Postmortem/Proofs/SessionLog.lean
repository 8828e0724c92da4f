import Postmortem.Proofs.ReportFile

/-! # Session logs in stack traces

A stack trace is completed by the session log of the process, unless it is about to crash. A log
that can be read is added as a whole behind a header, and one that cannot be opened adds nothing.
There is something in between: a directory can be opened, and so can files of which the reading fails
sooner or later. Then the header is written, and what was read up to the failure.
-/

namespace Postmortem

namespace FileTree

variable {tree : FileTree} {working place : Place} {path content bytes : Bytes} {run : Executable}

/-- A file that is there can be opened and appended to. -/
theorem openToAppend_iff : tree.openToAppend working path = .ok place ↔
    ∃ content run, tree.locate working path = .ok (place, .file content run) := by
  constructor
  · intro opened
    rw [openToAppend] at opened
    split at opened
    · cases opened
    · cases opened
    · cases opened
    · next located =>
      cases opened
      exact ⟨_, _, located⟩
  · rintro ⟨content, run, located⟩
    rw [openToAppend, located]

theorem exists_locate_of_openToRead (opened : tree.openToRead working path = .ok place) :
    ∃ entry, tree.locate working path = .ok (place, entry) := by
  rw [openToRead] at opened
  split at opened
  · cases opened
  · cases opened
  · next entry _ located =>
    cases opened
    exact ⟨entry, located⟩

theorem openToRead_of_file (located : tree.locate working path = .ok (place, .file content run)) :
    tree.openToRead working path = .ok place := by
  rw [openToRead, located]

/-- What an addition to an open file leaves. -/
theorem appendAt_of_locate (located : tree.locate working path = .ok (place, .file content run))
    (bytes : Bytes) :
    ∃ later, tree.appendAt place bytes = .ok later ∧
      later.locate working path = .ok (place, .file (content ++ bytes) run) ∧
      ∀ other ≠ place, later.entry? other = tree.entry? other := by
  obtain ⟨ne_nil, length_le, walk, there, open_end⟩ := locate_iff.mp located
  have ne := ne_nil_of_file there
  have grows := (extends_put ne there (.file content bytes run)).grows
  have now : FileTree.entry? (tree.put place (.file (content ++ bytes) run)) place =
      some (.file (content ++ bytes) run) := by
    rw [ entry?_put ne, if_pos rfl]
  refine ⟨_, by rw [appendAt, there], ?_, ?_⟩
  · exact locate_iff.mpr ⟨ne_nil, length_le, grows.walk walk, now, open_end⟩
  · intro other elsewhere
    rw [ entry?_put ne, if_neg elsewhere]

end FileTree

namespace World

/-- Two paths lead to the same place. -/
def SamePlace (w : World) (path path' : Bytes) : Prop :=
  ∃ place entry entry', w.machine.files.locate w.machine.working path = .ok (place, entry) ∧
    w.machine.files.locate w.machine.working path' = .ok (place, entry')

/-- What is at this path can be opened, and reading it fails after these bytes. -/
def BreaksOff (w : World) (path front : Bytes) : Prop :=
  ∃ place e, w.machine.files.openToRead w.machine.working path = .ok place ∧
    w.machine.files.contentAt place = (front, some e)

/-- A file that held `old` has got more at its end, and nothing else has changed. -/
structure Adds (w later : World) (path : Bytes) (place : Place) (old more : Bytes) : Prop where
  located : ∃ run,
    w.machine.files.locate w.machine.working path = .ok (place, .file old run) ∧
      later.machine.files.locate w.machine.working path = .ok (place, .file (old ++ more) run)
  others : ∀ other ≠ place, later.machine.files.entry? other = w.machine.files.entry? other
  rest : later = { w with machine := { w.machine with files := later.machine.files } }

variable {w v u : World} {path old more content : Bytes} {place : Place} {run : Executable}

theorem Adds.working (h : w.Adds v path place old more) :
    v.machine.working = w.machine.working := by
  rw [h.rest]

theorem Adds.file (h : w.Adds v path place old more) : v.file path = .ok (old ++ more) := by
  obtain ⟨run, -, now⟩ := h.located
  rw [World.file, h.working]
  exact FileTree.read_iff.mpr ⟨place, run, now⟩

theorem Adds.trans {first second : Bytes} (h : w.Adds v path place old first)
    (h' : v.Adds u path place (old ++ first) second) :
    w.Adds u path place old (first ++ second) := by
  obtain ⟨run, was, middle⟩ := h.located
  obtain ⟨run', middle', now⟩ := h'.located
  rw [h.working] at middle' now
  cases middle.symm.trans middle'
  rw [List.append_assoc] at now
  refine ⟨⟨run, was, now⟩, ?_, ?_⟩
  · intro other elsewhere
    rw [h'.others other elsewhere, h.others other elsewhere]
  · rw [h'.rest, h.rest]

theorem adds_nothing (located : w.machine.files.locate w.machine.working path =
    .ok (place, .file old run)) : w.Adds w path place old [] := by
  refine ⟨⟨run, located, ?_⟩, fun _ _ => rfl, rfl⟩
  rw [List.append_nil]
  exact located

end World

namespace Session

variable {childEnded : Steps World (Except Halt Unit)} {program stackFile : CString}
  {log : Option Bytes} {crashingHard : Bool} {w : World} {path old more stack : Bytes}
  {place logPlace : Place} {run : Executable}

/-- Writing to an open file adds to it. -/
theorem adds_writeTo (located : w.machine.files.locate w.machine.working path =
    .ok (place, .file old run)) (more : Bytes) :
    ∃ v, (writeTo place more).run w = (.ok (), v) ∧ w.Adds v path place old more := by
  obtain ⟨files, appended, now, others⟩ := FileTree.appendAt_of_locate located more
  refine ⟨{ w with machine := { w.machine with files } }, ?_, ⟨run, located, now⟩, others, rfl⟩
  simp only [writeTo, Steps.run_act, appended]

/-- What is done after the session log has been added. -/
def loggerTold (childEnded : Steps World (Except Halt Unit)) (program stackFile : CString) :
    Steps World (Except Halt Unit) := do
  if ← Steps.look (·.context.fatalStackLogging) then
    (invoke childEnded program (some stackFile)).andThen fun _ => return .ok ()
  else
    return .ok ()

theorem finish_eq (childEnded : Steps World (Except Halt Unit)) (program stackFile : CString)
    (log : Option Bytes) (crashingHard : Bool) :
    finish childEnded program stackFile log crashingHard =
      addLog stackFile log crashingHard >>= fun _ => loggerTold childEnded program stackFile :=
  rfl

/-! ## Adding a log -/

/-- A stack trace that cannot be opened stays as it is. -/
theorem run_appendLog_of_unwritable {e : Errno}
    (refused : w.machine.files.openToAppend w.machine.working stack = .error e) (path : Bytes) :
    (appendLog stack path).run w = (.error e, w) := by
  simp only [appendLog, openWith, Steps.run_andThen, Steps.run_look, refused]

theorem run_appendLog_of_unopened {e : Errno}
    (opened : w.machine.files.openToAppend w.machine.working stack = .ok place)
    (refused : w.machine.files.openToRead w.machine.working path = .error e) :
    (appendLog stack path).run w = (.error e, w) := by
  simp only [appendLog, openWith, Steps.run_andThen, Steps.run_look, opened, refused]

/-- Once both files are open, the header is added and what can be read of the log. -/
theorem adds_appendLog (located : w.machine.files.locate w.machine.working stack =
      .ok (place, .file old run))
    (opened : w.machine.files.openToRead w.machine.working path = .ok logPlace)
    (elsewhere : logPlace ≠ place) :
    w.Adds ((appendLog stack path).run w).2 stack place old
      (header ++ (w.machine.files.contentAt logPlace).1) := by
  have opens : w.machine.files.openToAppend w.machine.working stack = .ok place :=
    FileTree.openToAppend_iff.mpr ⟨old, run, located⟩
  obtain ⟨v, headed, adds⟩ := adds_writeTo located header
  obtain ⟨run', -, located'⟩ := adds.located
  rw [← adds.working] at located'
  have content : v.machine.files.contentAt logPlace = w.machine.files.contentAt logPlace := by
    rw [FileTree.contentAt, adds.others logPlace elsewhere, FileTree.contentAt]
  obtain ⟨u, copied, adds'⟩ := adds_writeTo located' (w.machine.files.contentAt logPlace).1
  have course : ((appendLog stack path).run w).2 = u := by
    simp only [appendLog, openWith, copy, Steps.run_andThen, Steps.run_bind, Steps.run_look, opens,
      opened, headed, content, copied]
    split
    · rfl
    · rfl
  rw [course]
  exact adds.trans adds'

/-- What a session log adds to a stack trace. -/
inductive Addition (w : World) : (log : Option Bytes) → (crashingHard : Bool) → Bytes → Prop where
  | crashing (log : Option Bytes) : Addition w log true []
  | noLog : Addition w none false []
  | unopened {path : Bytes} {e : Errno}
      (refused : w.machine.files.openToRead w.machine.working path = .error e) :
      Addition w (some path) false []
  | broken {path front : Bytes} (breaks : w.BreaksOff path front) :
      Addition w (some path) false (header ++ front)
  | whole {path content : Bytes} (read : w.file path = .ok content) :
      Addition w (some path) false (header ++ content)

/-- A log that can be opened is read as a whole, or up to a failure. -/
theorem addition_of_opened
    (opened : w.machine.files.openToRead w.machine.working path = .ok logPlace) :
    Addition w (some path) false (header ++ (w.machine.files.contentAt logPlace).1) := by
  cases content : w.machine.files.contentAt logPlace with
  | mk front failure =>
      cases failure with
      | some e => exact .broken ⟨logPlace, e, opened, content⟩
      | none =>
          apply Addition.whole
          -- Nothing but a file can be read to its end.
          obtain ⟨entry, located⟩ := FileTree.exists_locate_of_openToRead opened
          obtain ⟨-, -, -, there, -⟩ := FileTree.locate_iff.mp located
          rw [FileTree.contentAt, there] at content
          cases entry with
          | directory => cases content
          | foreign readable => cases readable <;> cases content
          | file _ run =>
              cases content
              exact FileTree.read_iff.mpr ⟨logPlace, run, located⟩

theorem exists_addition
    (located : w.machine.files.locate w.machine.working stackFile.bytes =
      .ok (place, .file old run)) (crashingHard : Bool)
    (other : ∀ path ∈ log, ¬ w.SamePlace path stackFile.bytes) :
    ∃ more, Addition w log crashingHard more ∧
      w.Adds ((addLog stackFile log crashingHard).run w).2 stackFile.bytes place old more := by
  have nothing := World.adds_nothing located
  cases crashingHard with
  | true => cases log <;> exact ⟨[], .crashing _, nothing⟩
  | false =>
      cases log with
      | none => exact ⟨[], .noLog, nothing⟩
      | some path =>
          have opens : w.machine.files.openToAppend w.machine.working stackFile.bytes = .ok place :=
            FileTree.openToAppend_iff.mpr ⟨old, run, located⟩
          cases opened : w.machine.files.openToRead w.machine.working path with
          | error e =>
              have course := run_appendLog_of_unopened opens opened
              refine ⟨[], .unopened opened, ?_⟩
              simp only [addLog, Steps.run_bind, course]
              exact nothing
          | ok logPlace =>
              have elsewhere : logPlace ≠ place := by
                rintro rfl
                obtain ⟨entry, there⟩ := FileTree.exists_locate_of_openToRead opened
                exact other path rfl ⟨_, entry, _, there, located⟩
              have adds := adds_appendLog located opened elsewhere
              refine ⟨_, addition_of_opened opened, ?_⟩
              simp only [addLog, Steps.run_bind, Steps.run_pure]
              exact adds

/-- Nothing is read from a path that cannot be opened. -/
theorem unread {e : Errno}
    (refused : w.machine.files.openToRead w.machine.working path = .error e) (content : Bytes) :
    w.file path ≠ .ok content := by
  intro read
  obtain ⟨place, run, located⟩ := FileTree.read_iff.mp read
  cases refused.symm.trans (FileTree.openToRead_of_file located)

/-- What breaks off is not read as a whole. -/
theorem unread_of_breaksOff {front : Bytes} (breaks : w.BreaksOff path front) (content : Bytes) :
    w.file path ≠ .ok content := by
  intro read
  obtain ⟨place, run, located⟩ := FileTree.read_iff.mp read
  obtain ⟨logPlace, e, opened, failed⟩ := breaks
  cases opened.symm.trans (FileTree.openToRead_of_file located)
  obtain ⟨-, -, -, there, -⟩ := FileTree.locate_iff.mp located
  rw [FileTree.contentAt, there] at failed
  cases failed

theorem Addition.whole_or_nothing (h : Addition w log crashingHard more)
    (sound : ∀ path ∈ log, ∀ front, ¬ w.BreaksOff path front) :
    (∃ path content, crashingHard = false ∧ log = some path ∧ w.file path = .ok content ∧
      more = header ++ content) ∨
    ((crashingHard = true ∨ ∀ path ∈ log, ∀ content, w.file path ≠ .ok content) ∧ more = []) := by
  cases h with
  | crashing => exact .inr ⟨.inl rfl, rfl⟩
  | noLog => exact .inr ⟨.inr nofun, rfl⟩
  | unopened refused =>
      refine .inr ⟨.inr ?_, rfl⟩
      rintro path ⟨⟩
      exact unread refused
  | broken breaks => exact absurd breaks (sound _ rfl _)
  | whole read => exact .inl ⟨_, _, rfl, rfl, read, rfl⟩

theorem Addition.of_breaksOff {front : Bytes} (h : Addition w (some path) crashingHard more)
    (breaks : w.BreaksOff path front) : more = if crashingHard then [] else header ++ front := by
  cases h with
  | crashing => rfl
  | unopened refused =>
      obtain ⟨place, e, opened, -⟩ := breaks
      cases refused.symm.trans opened
  | broken breaks' =>
      obtain ⟨place, e, opened, read⟩ := breaks
      obtain ⟨place', e', opened', read'⟩ := breaks'
      cases opened.symm.trans opened'
      cases read.symm.trans read'
      rfl
  | whole read => exact absurd read (unread_of_breaksOff breaks _)

theorem addLog_of_unwritable (unwritable : ∀ old, w.file stackFile.bytes ≠ .ok old)
    (log : Option Bytes) (crashingHard : Bool) :
    ((addLog stackFile log crashingHard).run w).2 = w := by
  cases crashingHard with
  | true => cases log <;> rfl
  | false =>
      cases log with
      | none => rfl
      | some path =>
          cases opened : w.machine.files.openToAppend w.machine.working stackFile.bytes with
          | error e =>
              simp only [addLog, Steps.run_bind, run_appendLog_of_unwritable opened]
              rfl
          | ok place =>
              obtain ⟨content, run, located⟩ := FileTree.openToAppend_iff.mp opened
              exact absurd (FileTree.read_iff.mpr ⟨place, run, located⟩) (unwritable content)

/-- Before the session logger is told, the stack trace holds what it held, followed by the header
    and all of the session log if the process is not about to crash and the log can be read, and by
    nothing otherwise; nothing else has changed. Only if the log can be opened and reading it fails,
    the header follows with what was read until then. A stack trace that cannot be written stays as
    it is. -/
theorem session_log_appended (childEnded : Steps World (Except Halt Unit)) (program : CString)
    (log : Option Bytes) (crashingHard : Bool)
    (other : ∀ path ∈ log, ¬ w.SamePlace path stackFile.bytes) :
    ∃ s ∈ (finish childEnded program stackFile log crashingHard).states w,
      (finish childEnded program stackFile log crashingHard).run w =
        (loggerTold childEnded program stackFile).run s ∧
      ((∀ old, w.file stackFile.bytes ≠ .ok old) → s = w) ∧
      ∀ old, w.file stackFile.bytes = .ok old → ∃ place more,
        w.Adds s stackFile.bytes place old more ∧
        ((∀ path ∈ log, ∀ front, ¬ w.BreaksOff path front) →
          (∃ path content, crashingHard = false ∧ log = some path ∧ w.file path = .ok content ∧
            more = header ++ content) ∨
          ((crashingHard = true ∨ ∀ path ∈ log, ∀ content, w.file path ≠ .ok content) ∧
            more = [])) ∧
        ∀ path ∈ log, ∀ front, w.BreaksOff path front →
          more = if crashingHard then [] else header ++ front := by
  refine ⟨((addLog stackFile log crashingHard).run w).2, ?_, ?_, ?_, ?_⟩
  · rw [finish_eq]
    apply Steps.mem_states_bind_right
    exact Steps.mem_states_start _ _
  · rw [finish_eq, Steps.run_bind]
  · exact fun unwritable => addLog_of_unwritable unwritable log crashingHard
  · intro old was
    obtain ⟨place, run, located⟩ := FileTree.read_iff.mp was
    obtain ⟨more, addition, adds⟩ := exists_addition located crashingHard other
    refine ⟨place, more, adds, addition.whole_or_nothing, ?_⟩
    rintro path ⟨⟩ front breaks
    exact addition.of_breaksOff breaks

/-- A process with a stack trace, a session log, a file whose reading fails half-way, one that
    belongs to others and a directory. -/
def tracedWorld : World :=
  let files := (FileTree.empty.makeFile [utf8 "stack"] (utf8 "frames\n") .forbidden).makeFile
    [utf8 "log"] (utf8 "line\n") .forbidden
  World.start { Machine.bare with
    files := ((files.put [utf8 "logs"] .directory).put [utf8 "half"]
      (.foreign (some (utf8 "li")))).put [utf8 "secret"] (.foreign none) }

theorem line_appended :
    ∃ s ∈ (finish World.childEnded (.spelled "app") (.spelled "/stack") (some (utf8 "/log"))
        false).states tracedWorld,
      s.file (utf8 "/stack") = .ok (utf8 "frames\n" ++ (header ++ utf8 "line\n")) := by
  have stack : tracedWorld.machine.files.locate tracedWorld.machine.working (utf8 "/stack") =
      .ok ([utf8 "stack"], .file (utf8 "frames\n") .forbidden) := by decide +kernel
  have line : tracedWorld.machine.files.locate tracedWorld.machine.working (utf8 "/log") =
      .ok ([utf8 "log"], .file (utf8 "line\n") .forbidden) := by decide +kernel
  have other : ∀ path ∈ some (utf8 "/log"),
      ¬ tracedWorld.SamePlace path (CString.spelled "/stack").bytes := by
    rintro path ⟨⟩ ⟨place, entry, entry', here, there⟩
    cases line.symm.trans here
    cases stack.symm.trans there
  have read : tracedWorld.file (utf8 "/log") = .ok (utf8 "line\n") :=
    FileTree.read_iff.mpr ⟨_, _, line⟩
  obtain ⟨s, within, -, -, added⟩ :=
    session_log_appended World.childEnded (.spelled "app") (some (utf8 "/log")) false other
  obtain ⟨place, more, adds, whole, -⟩ := added _ (FileTree.read_iff.mpr ⟨_, _, stack⟩)
  have sound : ∀ path ∈ some (utf8 "/log"), ∀ front, ¬ tracedWorld.BreaksOff path front := by
    rintro path ⟨⟩ front breaks
    exact unread_of_breaksOff breaks _ read
  obtain ⟨path, content, -, given, file, rfl⟩ | ⟨either, -⟩ := whole sound
  · cases given
    cases read.symm.trans file
    exact ⟨s, within, adds.file⟩
  · obtain hard | unread := either
    · cases hard
    · exact absurd read (unread _ rfl _)

/-- What a file holds after a session log was added to it. -/
def stackAfter (log : Bytes) : Except Errno Bytes :=
  ((finish World.childEnded (.spelled "app") (.spelled "/stack") (some log) false).run
    tracedWorld).2.file (utf8 "/stack")

/-- Not everything that can be opened can be read. The header of a directory stays alone, and of a
    file whose reading fails there is a part; but what cannot be opened adds nothing. -/
theorem header_alone :
    tracedWorld.file (utf8 "/stack") = .ok (utf8 "frames\n") ∧
      tracedWorld.file (utf8 "/logs") = .error .isDirectory ∧
      stackAfter (utf8 "/logs") = .ok (utf8 "frames\n" ++ header) ∧
      stackAfter (utf8 "/half") = .ok (utf8 "frames\n" ++ header ++ utf8 "li") ∧
      stackAfter (utf8 "/secret") = .ok (utf8 "frames\n") := by
  decide +kernel

end Session

end Postmortem

import Postmortem.Proofs.ReportFile
import Postmortem.StackLog

/-! # One stack trace, two places

A stack trace is logged to a new file, or to the error stream if there can be no file. The two are
put together in different places. The frames and all that goes with them are the same in both; the
registered lines of the process are in the file only if the trace is fatal, and on the error stream
in any case.
-/

namespace Postmortem

/-! ## Temporary files -/

namespace Machine

variable {m : Machine} {stem path bytes : Bytes} {n : Nat}

/-- The search for a name does not look at the error stream. -/
theorem createTemp_say (stem : Bytes) (n : Nat) (m : Machine) (bytes : Bytes) :
    createTemp stem n (m.say bytes) =
      ((createTemp stem n m).1, (createTemp stem n m).2.say bytes) := by
  induction n generalizing m with
  | zero => rfl
  | succ n ih =>
      simp only [createTemp, say]
      cases m.files.createExclusive m.working (stem ++ m.tails m.tailsUsed) with
      | ok files => rfl
      | error e =>
          dsimp only
          split
          · exact ih { m with tailsUsed := m.tailsUsed + 1 }
          · rfl

/-- What a search for a name leaves behind. -/
theorem createTemp_leaves (stem : Bytes) (n : Nat) (m : Machine) :
    ∃ files used, (createTemp stem n m).2 = { m with files := files, tailsUsed := used } ∧
      ∀ path, (createTemp stem n m).1 = .ok path →
        m.files.createExclusive m.working path = .ok files := by
  induction n generalizing m with
  | zero => exact ⟨m.files, m.tailsUsed, rfl, nofun⟩
  | succ n ih =>
      rw [createTemp]
      dsimp only
      cases tried : m.files.createExclusive m.working (stem ++ m.tails m.tailsUsed) with
      | ok files =>
          refine ⟨files, m.tailsUsed + 1, rfl, ?_⟩
          rintro path ⟨⟩
          exact tried
      | error e =>
          dsimp only
          split
          · exact ih { m with tailsUsed := m.tailsUsed + 1 }
          · exact ⟨m.files, m.tailsUsed + 1, rfl, nofun⟩

end Machine

namespace StackLog

variable {w : World} {me : ThreadId} {reason path : Bytes} {fatal : Bool}
  {sessionLog : Option Bytes} {e : Errno}

/-- The name of the program in a stack trace. -/
def program (w : World) : Bytes := Utf8.repair w.context.names.value.programName.bytes

/-- The file that a stack trace gets, or why there is none. -/
def file? (w : World) : Except Errno Bytes :=
  (Machine.createTemp (fileStem w w.context.names.value) Machine.tempAttempts w.machine).1

/-- What is still to be done when the trace is in its file. -/
def completed (me : ThreadId) (program path : Bytes) (fatal : Bool) (sessionLog : Option Bytes) :
    Steps World (Except Halt Unit) :=
  (if fatal then
      Session.finish (Handler.childEnded me) (.untilNul program) (.untilNul path) sessionLog false
    else return .ok ()).andThen fun _ => closed

/-- What is done once it is known whether there is a file. -/
def placed (me : ThreadId) (program reason : Bytes) (fatal : Bool) (sessionLog : Option Bytes) :
    Except Errno Bytes → Steps World (Except Halt Unit)
  | .ok path =>
    Steps.look (whereabouts · path) >>= World.say >>= fun _ =>
      Steps.look (fileText · program reason fatal) >>= World.append path >>= fun _ =>
        completed me program path fatal sessionLog
  | .error _ =>
    Steps.look (fallbackText · program reason) >>= World.say >>= fun _ => closed

/-- The notice, and then the attempt to create a file. -/
def sought (names : Names) (reason : Bytes) : Steps World (Except Errno Bytes) :=
  Steps.look (notice · (Utf8.repair names.programName.bytes) reason) >>= fun text =>
    World.say text >>= fun _ => createFile names

theorem log_eq (me : ThreadId) (reason : Bytes) (fatal : Bool) (sessionLog : Option Bytes) :
    log me reason fatal sessionLog = Steps.look (·.context.names.value) >>= fun names =>
      sought names reason >>=
        placed me (Utf8.repair names.programName.bytes) reason fatal sessionLog := by
  simp only [sought, Steps.bind_assoc]
  rfl

theorem run_createFile (names : Names) (w : World) :
    (createFile names).run w =
      ((Machine.createTemp (fileStem w names) Machine.tempAttempts w.machine).1,
        { w with
          machine := (Machine.createTemp (fileStem w names) Machine.tempAttempts w.machine).2 }) := by
  rw [createFile, Steps.run_act]

/-- What there is after that. -/
def noticed (w : World) (reason : Bytes) (files : FileTree) (used : Nat) : World :=
  { w with machine := { w.machine with
      files := files, tailsUsed := used
      stderr := w.machine.stderr ++ (notice w (program w) reason).flatten } }

@[simp] theorem stderr_noticed (w : World) (reason : Bytes) (files : FileTree) (used : Nat) :
    (noticed w reason files used).machine.stderr =
      w.machine.stderr ++ (notice w (program w) reason).flatten :=
  rfl

@[simp] theorem fallbackText_noticed (w : World) (reason : Bytes) (files : FileTree) (used : Nat)
    (program : Bytes) :
    fallbackText (noticed w reason files used) program reason = fallbackText w program reason :=
  rfl

theorem run_sought (reason : Bytes) (w : World) :
    ∃ files used,
      (sought w.context.names.value reason).run w = (file? w, noticed w reason files used) ∧
      ∀ path, file? w = .ok path →
        w.machine.files.createExclusive w.machine.working path = .ok files := by
  let names := w.context.names.value
  obtain ⟨files, used, left, created⟩ :=
    Machine.createTemp_leaves (fileStem w names) Machine.tempAttempts w.machine
  have stem (bytes : Bytes) : fileStem { w with machine := w.machine.say bytes } names =
      fileStem w names :=
    rfl
  refine ⟨files, used, ?_, created⟩
  rw [sought, Steps.run_bind, Steps.run_look, Steps.run_bind, Report.run_say, run_createFile]
  dsimp only
  rw [stem, Machine.createTemp_say, left]
  rfl

/-- After the notice there is a file, or there is none; nothing else has changed. -/
theorem log_placed (me : ThreadId) (reason : Bytes) (fatal : Bool) (sessionLog : Option Bytes)
    (w : World) :
    ∃ files used,
      let v := noticed w reason files used
      let rest := placed me (program w) reason fatal sessionLog (file? w)
      (log me reason fatal sessionLog).run w = rest.run v ∧
        (∀ s ∈ rest.states v, s ∈ (log me reason fatal sessionLog).states w) ∧
        ∀ path, file? w = .ok path →
          w.machine.files.createExclusive w.machine.working path = .ok files := by
  obtain ⟨files, used, ran, created⟩ := run_sought reason w
  refine ⟨files, used, ?_, ?_, created⟩
  · rw [log_eq, Steps.run_bind, Steps.run_look, Steps.run_bind, ran]
    rfl
  · intro s member
    rw [log_eq]
    apply Steps.mem_states_bind_right
    apply Steps.mem_states_bind_right
    rw [Steps.run_look, ran]
    exact member

/-- Without a file, the trace is shown behind a rule of its own, and always with the lines. -/
theorem stderr_of_refused (refused : file? w = .error e) :
    ((log me reason fatal sessionLog).run w).2.machine.stderr =
      w.machine.stderr ++ (notice w (program w) reason).flatten ++ line noticeRule ++
        ((trace w (program w) reason).flatten ++ (w.context.extraText w.lines none).flatten) ++
        line noticeRule := by
  obtain ⟨files, used, ran, -⟩ := log_placed me reason fatal sessionLog w
  rw [ran, refused]
  simp only [placed, closed, Steps.run_bind, Steps.run_look, Steps.run_pure, Report.run_say,
    Machine.say, stderr_noticed, fallbackText_noticed]
  simp [fallbackText]

/-- With a file, there is a moment when it holds the trace and nothing else, and all that is still to
    be done is to complete it. -/
theorem file_of_created (created : file? w = .ok path) :
    ∃ s ∈ (log me reason fatal sessionLog).states w,
      s.file path = .ok (fileText w (program w) reason fatal).flatten ∧
        (log me reason fatal sessionLog).run w =
          (completed me (program w) path fatal sessionLog).run s := by
  obtain ⟨files, used, ran, within, exclusive⟩ := log_placed me reason fatal sessionLog w
  obtain ⟨_, _, -, -, file⟩ := FileTree.created_of_createExclusive (exclusive path created)
  rw [created] at ran within
  let v := noticed w reason files used
  let u := ((World.say (whereabouts v path)).run v).2
  have same : fileText u (program w) reason fatal = fileText w (program w) reason fatal := by
    simp only [u, Report.run_say]
    rfl
  have empty : u.file path = .ok [] := by
    simp only [u, Report.run_say]
    exact file.read
  refine ⟨((World.append path (fileText u (program w) reason fatal)).run u).2, ?_, ?_, ?_⟩
  · apply within
    apply Steps.mem_states_bind_right
    apply Steps.mem_states_bind_right
    exact Steps.mem_states_start _ _
  · rw [← same]
    exact Report.file_append _ empty
  · rw [ran]
    simp only [placed, Steps.run_bind, Steps.run_look]
    rfl

/-- If a process gets no file for a stack trace, and would get one if its files were others, then the
    text that it shows between the rules is the one that the file would hold before it is completed:
    the frames, and the registered lines if the trace is fatal. If it is not, the lines follow on the
    error stream all the same. -/
theorem log_either_way (me : ThreadId) (reason : Bytes) (fatal : Bool) (sessionLog : Option Bytes)
    (w : World) (files : FileTree) (refused : file? w = .error e)
    (usable : file? { w with machine := { w.machine with files } } = .ok path) :
    let call := log me reason fatal sessionLog
    let v := { w with machine := { w.machine with files } }
    let extra := (w.context.extraText w.lines none).flatten
    let text := (trace w (program w) reason).flatten ++ if fatal then extra else []
    (call.run w).2.machine.stderr =
        w.machine.stderr ++ (notice w (program w) reason).flatten ++ line noticeRule ++
          (text ++ if fatal then [] else extra) ++ line noticeRule ∧
      ∃ s ∈ call.states v, s.file path = .ok text ∧
        call.run v = (completed me (program w) path fatal sessionLog).run s := by
  intro call v extra text
  have whole : (fileText w (program w) reason fatal).flatten = text := by
    cases fatal <;> simp [fileText, text, extra]
  constructor
  · rw [stderr_of_refused refused]
    cases fatal <;> simp [text, extra]
  · rw [← whole]
    exact file_of_created usable

/-- A process with a line for its reports, whose directory for temporary files is not there. -/
def undirected : World :=
  { World.start Machine.bare with
    context := { Context.initial with
      names := .new ⟨none, some (.spelled "dir"), none⟩
      extraLines := .new (ExtraLines.empty.set (utf8 "k")
        (some ⟨0, utf8 "own", [[Bytes.newline]], false⟩)) }
    lines := LineStore.empty.put (utf8 "own") [utf8 "x"] }

/-- The files of that process, if the directory is there. -/
def dirFiles : FileTree := FileTree.empty.put [utf8 "dir"] .directory

/-- That process with its directory. -/
def directed : World := { undirected with machine := { undirected.machine with files := dirFiles } }

theorem file?_undirected : file? undirected = .error .notFound := by decide +kernel

theorem file?_directed : file? directed = .ok (utf8 "/dir/st_libArch") := by decide +kernel

/-- A fatal trace is the same in both places. -/
theorem fatal_either_way :
    let call := log ⟨1, Nat.one_pos⟩ (utf8 "why") true none
    ∃ text, (∃ s ∈ call.states directed, s.file (utf8 "/dir/st_libArch") = .ok text) ∧
      (call.run undirected).2.machine.stderr =
        (notice undirected (program undirected) (utf8 "why")).flatten ++ line noticeRule ++
          (text ++ []) ++ line noticeRule := by
  intro call
  obtain ⟨shown, s, within, file, -⟩ := log_either_way ⟨1, Nat.one_pos⟩
    (utf8 "why") true none undirected dirFiles file?_undirected file?_directed
  exact ⟨_, ⟨s, within, file⟩, shown⟩

/-- One that is not fatal has the line on the error stream, but not in the file. -/
theorem lines_on_stream_only :
    let call := log ⟨1, Nat.one_pos⟩ (utf8 "why") false none
    let rule := line noticeRule
    ∃ text shown,
      (call.run directed).2.file (utf8 "/dir/st_libArch") = .ok text ∧
      (call.run undirected).2.machine.stderr =
        (notice undirected (program undirected) (utf8 "why")).flatten ++ rule ++ shown ++ rule ∧
      shown = text ++ utf8 "\nk:\nx\n" ∧ shown ≠ text := by
  intro call rule
  let text := (trace undirected (program undirected) (utf8 "why")).flatten
  refine ⟨text, text ++ utf8 "\nk:\nx\n", ?_, ?_, rfl, ?_⟩
  · decide +kernel
  · rw [stderr_of_refused file?_undirected]
    have extra : (undirected.context.extraText undirected.lines none).flatten = utf8 "\nk:\nx\n" := by
      decide +kernel
    rw [extra]
    rfl
  · intro same
    have empty := List.append_right_eq_self.mp same
    exact absurd empty (by decide)

end StackLog

end Postmortem

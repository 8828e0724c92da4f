import Postmortem.Proofs.Config
import Postmortem.Proofs.Settings
import Postmortem.Proofs.LogFilePlaces
import Postmortem.Proofs.ReportFile

/-! # Log files stay in their directory

The path of a log file is put together from the directory, the beginning of log names and the name
of the program. No configuration has a beginning with a separator, and of the path of a program only
the last part is kept. So what follows the directory is a single name, and the file is an entry of
the directory. The exception is the path of a program that ends in a separator: it has no last part
and is kept whole.
-/

namespace Postmortem

open Bytes (slash)

/-- What is kept of the path of a program: a name without a separator, or a path that ends in one. -/
def Bytes.IsBaseName (name : Bytes) : Prop := slash ∈ name → name.getLast? = some slash

theorem Bytes.isBaseName_baseName (path : Bytes) : (baseName path).IsBaseName := by
  intro member
  unfold baseName at member ⊢
  dsimp only at member ⊢
  split at member
  · next bare =>
    rw [if_pos bare]
    -- The last part is empty, so the path is, or a separator ends it.
    have none_left := (List.rtakeWhile_eq_nil_iff (p := (· ≠ slash))).mp (List.isEmpty_iff.mp bare)
    have ne_nil : path ≠ [] := List.ne_nil_of_mem member
    rw [List.getLast?_eq_some_getLast ne_nil]
    simpa using none_left ne_nil
  · have apart := List.mem_rtakeWhile_imp (p := (· ≠ slash)) member
    simp at apart

theorem slash_notMem_utf8 {text : String} (plain : '/' ∉ text.toList) : slash ∉ utf8 text := by
  intro member
  obtain ⟨c, inText, encoded⟩ := List.mem_flatMap.mp member
  apply plain
  rwa [show '/' = c by rw [← Char.ofNat_toNat c, Utf8.toNat_of_mem_encoded (by decide) encoded]; rfl]

/-! ## Names -/

/-- What the path of a log file is made of, after the directory. -/
structure Names.Plain (n : Names) : Prop where
  program : n.programName.bytes.IsBaseName
  stem : slash ∉ n.stem.bytes

namespace Context

/-- What names are given. -/
structure Given.Plain (g : Given) : Prop where
  program : ∀ name ∈ g.program, Bytes.IsBaseName name
  stem : ∀ name ∈ g.stem, slash ∉ name

/-- Configurations come into being valid. -/
def Call.Accepted : Call → Prop
  | configure config => config.Valid
  | _ => True

variable {c : Context} {g : Given} {call : Call} {calls : List Call}

theorem isBaseName_of_mem {path : Option Bytes} :
    ∀ name ∈ path.map Bytes.baseName, Bytes.IsBaseName name := by
  intro name given
  obtain ⟨path, -, rfl⟩ := Option.mem_map.mp given
  exact Bytes.isBaseName_baseName path

theorem Given.Plain.gives (h : g.Plain) (accepted : call.Accepted) : (call.gives g).Plain := by
  cases call with
  | init m path =>
      refine ⟨?_, h.stem⟩
      intro name given
      rcases Option.or_eq_some_iff.mp given with found | ⟨-, old⟩
      · exact isBaseName_of_mem name found
      · exact h.program name old
  | configure config =>
      refine ⟨h.program, ?_⟩
      rintro name ⟨⟩
      exact slash_notMem_utf8 accepted.plain
  | setProgramName path => exact ⟨isBaseName_of_mem, h.stem⟩
  | setPostmortem | setSessionLogger | setFatalStackLogging => exact ⟨h.program, h.stem⟩

theorem Given.Plain.after (h : c.given.Plain) (accepted : call.Accepted) :
    (call.after c).given.Plain := by
  have begun : (call.begun c).given.Plain := by
    cases call <;> exact ⟨h.program, h.stem⟩
  obtain ⟨-, -, given⟩ | ⟨e, -, -, left⟩ := call.step c
  · rw [given]
    exact begun.gives accepted
  · rw [left]
    exact begun

theorem Given.Plain.afterAll (h : c.given.Plain) (accepted : ∀ call ∈ calls, call.Accepted) :
    (afterAll calls c).given.Plain := by
  induction calls generalizing c with
  | nil => exact h
  | cons call rest ih =>
      obtain ⟨first, others⟩ := List.forall_mem_cons.mp accepted
      exact ih (h.after first) others

theorem Given.Plain.names (h : c.given.Plain) : c.names.value.Plain := by
  have program := congrArg Settings.program (settings_eq c)
  have stem := congrArg Settings.stem (settings_eq c)
  dsimp only [settings] at program stem
  constructor
  · rw [program]
    cases given : c.given.program with
    | none => exact fun member => absurd member (by decide)
    | some name => exact h.program name given
  · rw [stem]
    cases given : c.given.stem with
    | none => decide
    | some name => exact h.stem name given

/-- The names that reports use, while they are being changed too. -/
theorem plain_reportNames (accepted : ∀ call ∈ calls, call.Accepted)
    (same : c.names.value = (afterAll calls .initial).names.value) : c.reportNames.Plain := by
  have start : Context.initial.given.Plain := ⟨nofun, nofun⟩
  unfold reportNames Guarded.tryRead
  split
  · exact ⟨fun member => absurd member (by decide), by decide⟩
  · rw [Option.getD_some, same]
    exact (start.afterAll accepted).names

end Context

/-! ## Paths -/

theorem LogFile.slash_mem_fileName_iff {stem : CString} (plain : slash ∉ stem.bytes)
    (program : CString) (pid : Int) (k : Nat) :
    slash ∈ fileName stem program pid k ↔ slash ∈ program.bytes := by
  constructor
  · intro member
    by_contra clean
    exact slash_notMem_fileName plain clean k member
  · intro member
    simp [fileName, member]

namespace FileTree

variable {tree : FileTree} {working place target : Place} {dir name content : Bytes}

/-- A step to an entry is one from a directory. -/
theorem directory_of_walk (ne_here : name ≠ here) (ne_above : name ≠ above)
    (walked : tree.walk place [name] = .ok target) :
    tree.entry? place = some .directory ∧ target = place ++ [name] := by
  rw [walk] at walked
  split at walked
  · cases walked
  · cases walked
  · cases walked
  · next directory =>
    rw [if_neg ne_here, if_neg ne_above] at walked
    split at walked
    · cases walked
    · split at walked
      · cases walked
      · cases walked
        exact ⟨directory, rfl⟩

/-- A file that can be read under the name of a directory and a name in it is an entry there. -/
theorem entry_of_read (dir_ne : dir ≠ []) (ne : name ≠ []) (plain : slash ∉ name)
    (ne_here : name ≠ here) (ne_above : name ≠ above)
    (read : tree.read working (dir ++ slash :: name) = .ok content) :
    ∃ place run, tree.locate working dir = .ok (place, .directory) ∧
      tree.entry? (place ++ [name]) = some (.file content run) := by
  obtain ⟨target, run, located⟩ := read_iff.mp read
  obtain ⟨-, length_le, walked, there, -⟩ := locate_iff.mp located
  rw [components_entry ne plain, start_append dir_ne, walk_append] at walked
  cases front : tree.walk (start working dir) (components dir) with
  | error e =>
      rw [front] at walked
      cases walked
  | ok place =>
      rw [front] at walked
      obtain ⟨directory, rfl⟩ := directory_of_walk ne_here ne_above walked
      have shorter : dir.length ≤ maxPath := by
        rw [List.length_append] at length_le
        omega
      exact ⟨place, run, locate_iff.mpr ⟨dir_ne, shorter, front, directory, .inl rfl⟩, there⟩

end FileTree

namespace Report

variable {calls : List Context.Call} {w : World} {r : Report} {me : ThreadId} {logName : CString}

/-- Whatever calls set up the context, the path of a report's log file is the directory, a
    separator and one more name. That name has a separator in it only if the program name ends in
    one. If it has none, the file is found as an entry of the directory after the report. -/
theorem log_file_in_directory (accepted : ∀ call ∈ calls, call.Accepted)
    (set : w.context.names.value = (Context.afterAll calls .initial).names.value)
    (created : w.logFile? = some logName) :
    let names := w.context.reportNames
    ∃ name, logName.bytes = names.directory.bytes ++ slash :: name ∧ name ≠ [] ∧
      (slash ∈ name ↔ names.programName.bytes.getLast? = some slash) ∧
      (slash ∉ name → names.directory.bytes ≠ [] → w.context.reportLock = .free →
        let after := ((r.log me).run w).2.machine
        ∃ place content run,
          after.files.locate after.working names.directory.bytes = .ok (place, .directory) ∧
          after.files.entry? (place ++ [name]) = some (.file content run)) := by
  intro names
  have plain : names.Plain := Context.plain_reportNames accepted set
  obtain ⟨k, rfl⟩ := LogFile.candidate_of_create (World.search_of_logFile created)
  have inName := LogFile.slash_mem_fileName_iff plain.stem names.programName w.machine.pid k
  refine ⟨_, LogFile.candidate_eq .., ?_, ?_, ?_⟩
  · simp [LogFile.fileName, utf8]
  · rw [inName]
    exact ⟨plain.program, List.mem_of_getLast?⟩
  · intro single dir_ne free after
    obtain ⟨appended, file⟩ := file_after_log (r := r) me free created
    obtain ⟨ne, ne_here, ne_above⟩ :=
      LogFile.fileName_ne plain.stem (mt inName.mpr single) w.machine.pid k
    rw [World.file, LogFile.candidate_eq] at file
    obtain ⟨place, run, located, there⟩ :=
      FileTree.entry_of_read dir_ne ne single ne_here ne_above file
    exact ⟨place, _, run, located, there⟩

/-- The calls of a process that has its log files where it is and gives its program a name. -/
def named (path : String) : List Context.Call :=
  [.configure { Config.standard with tempDirectory := some "." }, .setProgramName (some (utf8 path))]

theorem accepted_named (path : String) : ∀ call ∈ named path, call.Accepted := by
  have valid : Config.Valid { Config.standard with tempDirectory := some "." } :=
    { Config.valid_standard with placed := by decide }
  simp [named, Context.Call.Accepted, valid]

/-- That process, where there is another directory. -/
def namedWorld (path : String) : World :=
  { World.start { Machine.bare with files := FileTree.empty.put [utf8 "st_a"] .directory } with
    context := Context.afterAll (named path) .initial }

theorem log_file_here :
    ∃ name place content run,
      utf8 "./st_a.42" = utf8 "." ++ slash :: name ∧ slash ∉ name ∧
        (((⟨false, .spelled "why", none, none⟩ : Report).log ⟨1, Nat.one_pos⟩).run
          (namedWorld "bin/a")).2.machine.files.entry? (place ++ [name]) =
            some (.file content run) := by
  have created : (namedWorld "bin/a").logFile? = some (.spelled "./st_a.42") := by decide +kernel
  obtain ⟨name, path, -, single, found⟩ := log_file_in_directory (accepted_named "bin/a") rfl created
  have plain : slash ∉ name := fun member => absurd (single.mp member) (by decide +kernel)
  obtain ⟨place, content, run, -, there⟩ := found plain (by decide +kernel) rfl
  exact ⟨name, place, content, run, path, plain, there⟩

/-- A program name that ends in a separator leads the log file into the other directory. -/
theorem log_file_elsewhere :
    (∀ call ∈ named "a/", call.Accepted) ∧
      (namedWorld "a/").context.reportNames.directory.bytes = utf8 "." ∧
      ∃ path, (namedWorld "a/").logFile? = some path ∧
        ¬ ∃ name, path.bytes = utf8 "." ++ slash :: name ∧ slash ∉ name := by
  have created : (namedWorld "a/").logFile? = some (.spelled "./st_a/.42") := by decide +kernel
  refine ⟨accepted_named "a/", by decide +kernel, _, created, ?_⟩
  rintro ⟨name, path, plain⟩
  have same : utf8 "." ++ slash :: name = utf8 "." ++ slash :: utf8 "st_a/.42" := path.symm
  rw [List.cons.inj (List.append_cancel_left same) |>.2] at plain
  exact plain (by decide)

end Report

end Postmortem

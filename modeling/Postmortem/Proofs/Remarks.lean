import Postmortem.Proofs.AnnouncementParts
import Postmortem.Proofs.Buffer
import Postmortem.Proofs.World

/-! # What is said about programs

While a report has a program run, all that is added to the error stream are remarks, whatever
becomes of the program. The only free text in them is the path of the program.
-/

namespace Postmortem

open Bytes (newline dash)
open Check (Remark Remarks Foreign Ordinary)

variable {m n o : Machine} {text : Bytes}

/-! ## Numbers -/

/-- The bytes of a decimal number. -/
def Numeric (text : Bytes) : Prop := ∀ b ∈ text, b = dash ∨ Bytes.isDigit b

theorem utf8_append (s t : String) : utf8 (s ++ t) = utf8 s ++ utf8 t := by
  simp [utf8]

private theorem isDigit_of_mem_encode {c : Char} {b : UInt8} (digit : c.isDigit)
    (member : b ∈ String.utf8EncodeChar c) : Bytes.isDigit b := by
  rw [Char.isDigit, Bool.and_eq_true, decide_eq_true_eq, decide_eq_true_eq] at digit
  have low : 48 ≤ c.val.toNat := digit.1
  have high : c.val.toNat ≤ 57 := digit.2
  have short : c.val.toNat ≤ 127 := by omega
  have single : String.utf8EncodeChar c = [UInt8.ofNat c.val.toNat] := by
    rw [String.utf8EncodeChar]
    exact if_pos short
  rw [single, List.mem_singleton] at member
  have value : b.toNat = c.val.toNat := by
    rw [member, UInt8.toNat_ofNat']
    omega
  rw [Bytes.isDigit, Bool.and_eq_true, decide_eq_true_eq, decide_eq_true_eq,
    UInt8.le_iff_toNat_le, UInt8.le_iff_toNat_le, value]
  exact ⟨low, high⟩

theorem numeric_nil : Numeric [] := by
  intro b member
  cases member

theorem numeric_nat (n : Nat) : Numeric (utf8 (toString n)) := by
  intro b member
  obtain ⟨c, inText, member⟩ := List.mem_flatMap.mp member
  rw [Nat.toString_eq_ofList_toDigits, String.toList_ofList] at inText
  have digit := Nat.isDigit_of_mem_toDigits (by decide) (by decide) inText
  exact .inr (isDigit_of_mem_encode digit member)

theorem numeric_int (x : Int) : Numeric (utf8 (toString x)) := by
  cases x with
  | ofNat n => exact numeric_nat n
  | negSucc n =>
      have text : utf8 (toString (Int.negSucc n)) = [dash] ++ utf8 (toString (n + 1)) := by
        show utf8 ("-" ++ toString (n + 1)) = _
        rw [utf8_append]
        rfl
      intro b member
      rw [text, List.mem_append] at member
      obtain member | member := member
      · exact .inl (List.mem_singleton.mp member)
      · exact numeric_nat (n + 1) b member

theorem numeric_numberText (x : Int) : Numeric (numberText x).bytes := by
  rw [bytes_numberText]
  split
  · exact fun b member => Decimal.mem_ofInt member
  · exact numeric_nil

/-! ## Remarks -/

/-- A line that begins as no part of an announcement does, and ends in a number or a letter. -/
theorem remarks_of_numeric {first last : UInt8} {front tail : Bytes}
    (begins : front.head? = some first) (foreign : Foreign first) (ends : front.getLast? = some last)
    (notDot : last ≠ 46) (notReturn : last ≠ 13) (one : newline ∉ front) (number : Numeric tail) :
    Remarks (front ++ tail ++ [newline]) := by
  have single : newline ∉ front ++ tail := by
    intro member
    obtain member | member := List.mem_append.mp member
    · exact one member
    · obtain bad | bad := number newline member
      · exact absurd bad (by decide)
      · exact absurd bad (by decide)
  have ordinary : Ordinary (front ++ tail) := by
    obtain ⟨rest, rfl⟩ := List.head?_eq_some_iff.mp begins
    exact Check.ordinary_nil.append_foreign foreign
  refine Check.Remark.remarks ⟨ordinary, ?_⟩ single
  cases tail using List.reverseRecOn with
  | nil => exact ⟨last, by rw [List.append_nil, ends], notDot, notReturn⟩
  | append_singleton tail b _ =>
      refine ⟨b, by rw [← List.append_assoc, List.getLast?_concat], ?_, ?_⟩
      · rintro rfl
        obtain bad | bad := number 46 List.mem_concat_self
        · exact absurd bad (by decide)
        · exact absurd bad (by decide)
      · rintro rfl
        obtain bad | bad := number 13 List.mem_concat_self
        · exact absurd bad (by decide)
        · exact absurd bad (by decide)

/-- A fixed text. -/
theorem remarks_of_fixed {first last : UInt8} {line : Bytes} (begins : line.head? = some first)
    (foreign : Foreign first) (ends : line.getLast? = some last) (notDot : last ≠ 46)
    (notReturn : last ≠ 13) (one : newline ∉ line) : Remarks (line ++ [newline]) := by
  have whole := remarks_of_numeric begins foreign ends notDot notReturn one numeric_nil
  rwa [List.append_nil] at whole

theorem remarks_execFailure {path : CString} (one : newline ∉ path.bytes) (e : Errno) :
    Remarks (Machine.execFailure path e) := by
  have ends : (utf8 "FAIL: Unable to exec crash handler " ++ path.bytes ++ utf8 ": errno=").getLast?
      = some 61 := by
    rw [List.getLast?_append]
    rfl
  have single : newline ∉ utf8 "FAIL: Unable to exec crash handler " ++ path.bytes ++
      utf8 ": errno=" := by
    simp only [List.mem_append, not_or]
    exact ⟨⟨by decide +kernel, one⟩, by decide +kernel⟩
  have begins : (utf8 "FAIL: Unable to exec crash handler " ++ path.bytes ++ utf8 ": errno=").head? =
      some 70 := rfl
  exact remarks_of_numeric begins (by decide) ends (by decide) (by decide) single
    (numeric_numberText e.number)

/-- The wording of a failure fits its line or is left out. -/
theorem report_eq (e : SpawnError) :
    e.report = if (utf8 "FAIL: " ++ utf8 e.message).length < 128 then
      utf8 "FAIL: " ++ utf8 e.message ++ [newline] else utf8 "FAIL: " ++ [newline] := by
  have first := (FixedBuffer.empty_holds (show 0 < 128 by decide)).push (utf8 "FAIL: ")
  rw [FixedBuffer.Builds, if_pos (by decide), List.nil_append] at first
  obtain ⟨b, pushed, holds⟩ := first
  have second := holds.push (utf8 e.message)
  rw [FixedBuffer.Builds] at second
  split at second
  · next fits =>
    obtain ⟨b', pushed', holds'⟩ := second
    simp only [SpawnError.report, FixedBuffer.write, pushed, pushed', holds'.content, if_pos fits]
  · next overlong =>
    simp only [SpawnError.report, FixedBuffer.write, pushed, second, holds.content, if_neg overlong]

/-- A failure that is told with a number. -/
private theorem remarks_failure {text number : String} (begins : (utf8 ("FAIL: " ++ text)).head? = some 70)
    (ends : (utf8 ("FAIL: " ++ text)).getLast? = some 61) (one : newline ∉ utf8 ("FAIL: " ++ text))
    (numeric : Numeric (utf8 number)) :
    Remarks (utf8 "FAIL: " ++ utf8 (text ++ number) ++ [newline]) := by
  rw [utf8_append text number, ← List.append_assoc, ← utf8_append]
  exact remarks_of_numeric begins (by decide) ends (by decide) (by decide) one numeric

/-- A failure that is told in words. -/
private theorem remarks_words {text : String} {last : UInt8}
    (begins : (utf8 ("FAIL: " ++ text)).head? = some 70)
    (ends : (utf8 ("FAIL: " ++ text)).getLast? = some last) (notDot : last ≠ 46)
    (notReturn : last ≠ 13) (one : newline ∉ utf8 ("FAIL: " ++ text)) :
    Remarks (utf8 "FAIL: " ++ utf8 text ++ [newline]) := by
  rw [← utf8_append]
  exact remarks_of_fixed begins (by decide) ends notDot notReturn one

theorem remarks_report (e : SpawnError) : Remarks e.report := by
  rw [report_eq]
  split
  case isFalse =>
    have begins : (utf8 "FAIL: ").head? = some 70 := rfl
    have ends : (utf8 "FAIL: ").getLast? = some 32 := rfl
    exact remarks_of_fixed begins (by decide) ends (by decide) (by decide) (by decide)
  case isTrue =>
    cases e with
    | forkFailed e =>
        exact remarks_failure rfl (by decide +kernel) (by decide +kernel) (numeric_nat e.number)
    | execFailed =>
        have ends : (utf8 ("FAIL: " ++ SpawnError.execFailed.message)).getLast? = some 99 := by
          decide +kernel
        exact remarks_words rfl ends (by decide) (by decide) (by decide +kernel)
    | signaled signal =>
        exact remarks_failure rfl (by decide +kernel) (by decide +kernel) (numeric_int signal)
    | waitFailed e =>
        exact remarks_failure rfl (by decide +kernel) (by decide +kernel) (numeric_nat e.number)
    | timedOut =>
        have ends : (utf8 ("FAIL: " ++ SpawnError.timedOut.message)).getLast? = some 116 := by
          decide +kernel
        exact remarks_words rfl ends (by decide) (by decide) (by decide +kernel)

theorem remarks_nothingRecorded : Remarks World.nothingRecorded := by
  let line := utf8 "No previous handler recorded for the crash signal, exiting"
  have text : World.nothingRecorded = line ++ [newline] := by decide +kernel
  have begins : line.head? = some 78 := rfl
  have ends : line.getLast? = some 103 := by decide +kernel
  rw [text]
  exact remarks_of_fixed begins (by decide) ends (by decide) (by decide) (by decide +kernel)

/-- How a command is called in messages. -/
def Spoken (what : String) : Prop := Remarks (CommandTemplate.tooManyLine what)

theorem spoken_of_notMem {what : String} (one : newline ∉ utf8 what) : Spoken what := by
  let line := utf8 "Too many arguments to " ++ utf8 what ++ utf8 " command"
  have tail : utf8 " command\n" = utf8 " command" ++ [newline] := by decide +kernel
  have text : CommandTemplate.tooManyLine what = line ++ [newline] := by
    rw [CommandTemplate.tooManyLine, utf8_append, utf8_append, tail, ← List.append_assoc]
  have begins : line.head? = some 84 := rfl
  have ends : line.getLast? = some 100 := by
    rw [List.getLast?_append]
    rfl
  have single : newline ∉ line := by
    simp only [line, List.mem_append, not_or]
    exact ⟨⟨by decide +kernel, one⟩, by decide +kernel⟩
  rw [Spoken, text]
  exact remarks_of_fixed begins (by decide) ends (by decide) (by decide) single

theorem spoken_postmortem : Spoken "postmortem" := spoken_of_notMem (by decide +kernel)

theorem spoken_session : Spoken "log session" := spoken_of_notMem (by decide +kernel)

/-! ## What a command leads to -/

/-- Launches since an earlier state. -/
def launchesSince (m later : Machine) : List Launch := later.launches.drop m.launches.length

/-- As long as no program with a line feed in its path is started, only remarks are added to the
    error stream. -/
def Told (m later : Machine) : Prop :=
  (∀ launch ∈ launchesSince m later, newline ∉ launch.path.bytes) →
    ∃ text, Remarks text ∧ later.stderr = m.stderr ++ text

theorem Told.of_eq (same : n.stderr = m.stderr) : Told m n :=
  fun _ => ⟨[], Check.remarks_nil, by rw [same, List.append_nil]⟩

theorem Told.of_remarks (h : Remarks text) (said : n.stderr = m.stderr ++ text) : Told m n :=
  fun _ => ⟨text, h, said⟩

theorem launchesSince_left (h : m.launches <+: n.launches) (h' : n.launches <+: o.launches) :
    launchesSince m n ⊆ launchesSince m o := by
  obtain ⟨new, hn⟩ := h
  obtain ⟨more, ho⟩ := h'
  intro launch member
  rw [launchesSince, ← hn, List.drop_left] at member
  rw [launchesSince, ← ho, ← hn, List.append_assoc, List.drop_left]
  exact List.mem_append_left more member

theorem launchesSince_right (h : m.launches <+: n.launches) :
    launchesSince n o ⊆ launchesSince m o :=
  List.drop_subset_drop_left o.launches h.length_le

theorem Told.trans (h : Told m n) (h' : Told n o) (follows : m.Follows n)
    (follows' : n.Follows o) : Told m o := by
  intro paths
  obtain ⟨first, remarks, said⟩ := h fun launch member =>
    paths launch (launchesSince_left follows.launched follows'.launched member)
  obtain ⟨second, remarks', said'⟩ := h' fun launch member =>
    paths launch (launchesSince_right follows.launched member)
  exact ⟨first ++ second, remarks.append remarks', by rw [said', said, List.append_assoc]⟩

namespace Machine

theorem told_becomeProgram (m : Machine) (path : CString) (argv : Argv) :
    Told m (m.becomeProgram path argv).2 := by
  intro paths
  let found := m.findProgram path argv.toList
  have recorded : launchesSince m { m with launches := m.launches ++ [⟨path, argv.toList, found⟩] } =
      [⟨path, argv.toList, found⟩] := List.drop_left
  rw [becomeProgram] at paths ⊢
  split at paths
  · next p started =>
    simp only [started]
    exact ⟨[], Check.remarks_nil, (List.append_nil _).symm⟩
  · next e failed =>
    simp only [failed]
    have one : newline ∉ path.bytes := by
      refine paths ⟨path, argv.toList, found⟩ ?_
      show _ ∈ launchesSince m { m with launches := m.launches ++ [⟨path, argv.toList, found⟩] }
      rw [recorded]
      exact List.mem_singleton_self _
    exact ⟨execFailure path e, remarks_execFailure one e, rfl⟩

theorem told_spawnAndWait (m : Machine) (path : CString) (argv : Argv)
    (timeout : Option Duration) : Told m (m.spawnAndWait path argv timeout).2 := by
  have started := told_becomeProgram m path argv
  rw [spawnAndWait]
  split
  · exact .of_eq rfl
  · exact started

theorem told_start (m : Machine) (t : CommandTemplate) (override : CString) (fatal : Bool)
    (table : Substitutions) (timeout : Duration) {what : String} (spoken : Spoken what) :
    Told m (t.start override fatal table timeout what m).2 := by
  rw [CommandTemplate.start]
  split
  · exact .of_eq rfl
  · exact .of_remarks spoken rfl
  · exact told_spawnAndWait _ _ _ _

theorem told_reportFailure (m : Machine) (spawned : Spawned) : Told m (m.reportFailure spawned) := by
  rw [reportFailure]
  split
  · next e _ => exact .of_remarks (remarks_report e) rfl
  · exact .of_eq rfl

theorem stderr_finish (m : Machine) (ending : Ending) : (m.finish ending).stderr = m.stderr := by
  rw [finish]
  split <;> rfl

theorem stderr_signalEffect (m : Machine) (k : Int) (c : Circumstances) (d : Disposition) :
    (m.signalEffect k c d).stderr = m.stderr := by
  cases d with
  | standard =>
      rw [signalEffect, defaultEffect]
      split
      · rfl
      · split
        · exact stderr_finish m _
        · rfl
        · rfl
  | _ => rfl

end Machine

namespace World

theorem told_interrupt (k : Int) (c : Circumstances) (w : World) :
    Told w.machine (interrupt k c w).machine := by
  rw [interrupt]
  split
  · rw [forward]
    split
    · refine .of_remarks remarks_nothingRecorded ?_
      rw [Machine.stderr_finish]
      rfl
    · refine .of_eq ?_
      exact Machine.stderr_signalEffect _ k c .standard
    · exact .of_eq (Machine.stderr_signalEffect _ _ _ _)
  · exact .of_eq (Machine.stderr_signalEffect _ _ _ _)

theorem told_waited (spawned : Spawned) (w : World) : Told w.machine (w.waited spawned).machine := by
  rw [waited]
  split
  · exact (told_interrupt _ _ w).trans (Machine.told_reportFailure _ spawned)
      (follows_interrupt _ _ w).machine (Machine.follows_reportFailure _ spawned)
  · exact Machine.told_reportFailure _ spawned

/-- All that a command adds to the error stream are remarks. -/
theorem told_runCommand (select : Commands → CommandTemplate × Duration) (override : CString)
    (fatal : Bool) (table : World → Substitutions) {what : String} (spoken : Spoken what)
    (w : World) :
    Told w.machine ((runCommand childEnded select override fatal table what).run w).2.machine := by
  simp only [runCommand, Steps.run_bind]
  have follows : w.Follows ((startCommand select override fatal table what).run w).2 :=
    follows_run (covers_follows.always_startCommand _ _ _ _ _) w
  have told : Told w.machine ((startCommand select override fatal table what).run w).2.machine := by
    simp only [startCommand, Steps.run_act]
    split
    · exact .of_eq rfl
    · exact w.machine.told_start _ _ _ _ _ spoken
  generalize (startCommand select override fatal table what).run w = started at follows told ⊢
  obtain ⟨_ | spawned, v⟩ := started
  · exact told
  · cases result : spawned.result with
    | error halt =>
        rw [afterWait_error result]
        exact told
    | ok answer =>
        rw [run_afterWait_ok result]
        exact told.trans (told_waited spawned v) follows.machine (follows_waited spawned v).machine

end World

theorem Session.told_finish (program stackFile : CString) (w : World) :
    Told w.machine ((finish World.childEnded program stackFile none true).run w).2.machine := by
  rw [run_finish]
  split
  · exact World.told_runCommand _ _ _ _ spoken_session w
  · exact .of_eq rfl

end Postmortem

import Postmortem.Proofs.Pieces
import Postmortem.Check.Announcement

/-! # Reading announcements

The stream is read line by line, so what is made of a text that ends all its lines does not depend on
what stands before it or after it but for how far the announcement has got. A text put together from
such texts is read by reading one after the other.
-/

namespace Postmortem.Check

open Bytes (newline dash pieces ended unended dropReturn occursIn upTo splitOnce)

variable {program line text s t host name : Bytes} {p q r : Progress} {logs more : List Bytes}

/-! ## Lines that are passed over -/

/-- A line that begins like no part of an announcement. -/
structure Ordinary (line : Bytes) : Prop where
  not_dash : line.head? ≠ some dash
  not_done : ¬ Line.doneMark <+: line
  not_log : ¬ Line.logMark <+: line

instance (line : Bytes) : Decidable (Ordinary line) :=
  decidable_of_iff (line.head? ≠ some dash ∧ ¬ Line.doneMark <+: line ∧ ¬ Line.logMark <+: line)
    ⟨fun ⟨dash, done, log⟩ => ⟨dash, done, log⟩, fun ⟨dash, done, log⟩ => ⟨dash, done, log⟩⟩

/-- A text all of whose lines are passed over. -/
def Unobtrusive (text : Bytes) : Prop := ∀ line ∈ pieces newline text, Ordinary line

instance (text : Bytes) : Decidable (Unobtrusive text) :=
  inferInstanceAs (Decidable (∀ line ∈ pieces newline text, Ordinary line))

/-- All lines are passed over, and all are ended. -/
structure Plain (text : Bytes) : Prop where
  whole : unended newline text = []
  ordinary : ∀ line ∈ ended newline text, Ordinary line

theorem dropReturn_begins (line : Bytes) : dropReturn line <+: line := by
  rw [dropReturn]
  split
  · exact List.dropLast_prefix line
  · exact List.prefix_rfl

theorem dropReturn_of_last {last : UInt8} (h : line.getLast? = some last) (ne : last ≠ 13) :
    dropReturn line = line := by
  rw [dropReturn, h, if_neg]
  simpa using ne

theorem Ordinary.of_begins {front : Bytes} (h : Ordinary line) (begins : front <+: line) :
    Ordinary front := by
  refine ⟨?_, fun done => h.not_done (done.trans begins), fun log => h.not_log (log.trans begins)⟩
  obtain ⟨rest, rfl⟩ := begins
  cases front with
  | nil => simp
  | cons b front => exact h.not_dash

theorem classify_of_ordinary (h : Ordinary line) : Line.classify program line = .other := by
  have noLog : Line.logMark.isPrefixOf? line = none := by
    rw [Option.eq_none_iff_forall_ne_some]
    intro rest found
    rw [List.isPrefixOf?_eq_some_iff_append_eq] at found
    exact h.not_log ⟨rest, found⟩
  have noDone : line ≠ Line.doneMark := by
    rintro rfl
    exact h.not_done List.prefix_rfl
  have noFooter : Line.isFooter line = false := by
    cases line with
    | nil => rfl
    | cons b rest =>
        have ne : b ≠ dash := fun same => h.not_dash (congrArg some same)
        simp [Line.isFooter, ne]
  simp only [Line.classify, h.not_dash, decide_false, Bool.false_and, Bool.false_eq_true, if_false,
    noLog, if_neg noDone, noFooter]

/-- A byte with which no part of an announcement goes on. -/
def Foreign (b : UInt8) : Prop :=
  b ≠ newline ∧ b ≠ dash ∧ b ∉ Line.doneMark ∧ b ∉ Line.logMark

instance (b : UInt8) : Decidable (Foreign b) := inferInstanceAs (Decidable (_ ∧ _ ∧ _ ∧ _))

private theorem prefix_of_foreign {mark : Bytes} {b : UInt8} (h : mark <+: s ++ b :: t)
    (foreign : b ∉ mark) : mark <+: s := by
  obtain ⟨rest, whole⟩ := h
  obtain ⟨middle, rfl, -⟩ | ⟨middle, rfl, same⟩ := List.append_eq_append_iff.mp whole
  · exact ⟨middle, rfl⟩
  · cases middle with
    | nil => exact ⟨[], by simp⟩
    | cons c middle =>
        rw [List.cons_append, List.cons.injEq] at same
        exact absurd (by simp [same.1]) foreign

theorem Ordinary.append_foreign {b : UInt8} (h : Ordinary s) (foreign : Foreign b) :
    Ordinary (s ++ b :: t) := by
  obtain ⟨-, notDash, notDone, notLog⟩ := foreign
  refine ⟨?_, fun done => h.not_done (prefix_of_foreign done notDone),
    fun log => h.not_log (prefix_of_foreign log notLog)⟩
  cases s with
  | nil => simpa using notDash
  | cons c s => exact h.not_dash

theorem ordinary_nil : Ordinary [] :=
  ⟨by simp, by decide, by decide⟩

/-- A text continued by a foreign byte is as unobtrusive as the lines that come after that. -/
theorem Unobtrusive.append_foreign {b : UInt8} (h : Unobtrusive s) (foreign : Foreign b)
    (rest : ∀ line ∈ (pieces newline t).tail, Ordinary line) : Unobtrusive (s ++ b :: t) := by
  intro line member
  rw [Bytes.pieces_append, List.mem_append] at member
  obtain member | member := member
  · refine h line ?_
    rw [Bytes.pieces_eq]
    exact List.mem_append_left _ member
  · have last : Ordinary (unended newline s) := by
      refine h _ ?_
      rw [Bytes.pieces_eq]
      exact List.mem_concat_self
    rw [Bytes.pieces_append_of_notMem Bytes.notMem_unended,
      Bytes.pieces_cons_of_ne foreign.1] at member
    cases cut : pieces newline t with
    | nil => exact absurd cut (Bytes.pieces_ne_nil _ _)
    | cons first others =>
        rw [cut] at member rest
        obtain rfl | member := List.mem_cons.mp member
        · exact last.append_foreign foreign
        · exact rest line member

/-! ## Texts that are passed over -/

theorem plain_nil : Plain [] := ⟨rfl, by simp⟩

theorem plain_empty_line : Plain ([] ++ [newline]) := by
  refine ⟨rfl, fun line member => ?_⟩
  obtain rfl : line = [] := by simpa using member
  exact ordinary_nil

theorem Plain.append (hs : Plain s) (ht : Plain t) : Plain (s ++ t) := by
  refine ⟨?_, ?_⟩
  · rw [Bytes.unended_append, hs.whole]
    exact ht.whole
  · intro line member
    rw [Bytes.ended_append, hs.whole, List.nil_append, List.mem_append] at member
    obtain member | member := member
    · exact hs.ordinary line member
    · exact ht.ordinary line member

/-- An unobtrusive text can be made into lines. -/
theorem Unobtrusive.plain (h : Unobtrusive s) : Plain (s ++ [newline]) := by
  refine ⟨Bytes.unended_concat s, ?_⟩
  rw [Bytes.ended_concat]
  exact h

theorem Unobtrusive.plain_of_whole (h : Unobtrusive s) (whole : unended newline s = []) :
    Plain s := by
  refine ⟨whole, fun line member => h line ?_⟩
  rw [Bytes.pieces_eq]
  exact List.mem_append_left _ member

/-! ## Reading -/

/-- Reading the lines of a text leads from one state to another and finds these log files. -/
structure Reads (program : Bytes) (p : Progress) (text : Bytes) (q : Progress) (logs : List Bytes) :
    Prop where
  whole : unended newline text = []
  reads : ∀ rest, readLines program p ((ended newline text).map dropReturn ++ rest) =
    (readLines program q rest).map (logs ++ ·)

theorem Reads.append (h : Reads program p s q logs) (h' : Reads program q t r more) :
    Reads program p (s ++ t) r (logs ++ more) := by
  refine ⟨?_, ?_⟩
  · rw [Bytes.unended_append, h.whole]
    exact h'.whole
  · intro rest
    rw [Bytes.ended_append, h.whole, List.nil_append, List.map_append, List.append_assoc, h.reads,
      h'.reads]
    cases readLines program r rest with
    | error e => rfl
    | ok found => simp [Except.map]

theorem readLines_cons {rest : List Bytes}
    (step : advance p line (Line.classify program line) = .ok (q, logs)) :
    readLines program p (line :: rest) = (readLines program q rest).map (logs ++ ·) := by
  rw [readLines, step]
  simp only [bind, Except.bind]
  cases readLines program q rest with
  | error e => rfl
  | ok found => rfl

theorem map_nil_append {ε : Type} (found : Except ε (List Bytes)) :
    found.map (([] : List Bytes) ++ ·) = found := by
  cases found with
  | error e => rfl
  | ok found => rfl

/-- A text that consists of a single line. -/
theorem reads_line (single : newline ∉ line)
    (step : advance p (dropReturn line) (Line.classify program (dropReturn line)) = .ok (q, logs)) :
    Reads program p (line ++ [newline]) q logs := by
  refine ⟨Bytes.unended_concat line, ?_⟩
  intro rest
  rw [Bytes.ended_concat, Bytes.pieces_of_notMem single, List.map_singleton, List.singleton_append]
  exact readLines_cons step

theorem Plain.reads (h : Plain text) : Reads program p text p [] := by
  refine ⟨h.whole, fun rest => ?_⟩
  rw [map_nil_append]
  have ordinary := h.ordinary
  generalize ended newline text = lines at ordinary
  induction lines with
  | nil => rfl
  | cons line lines ih =>
      have first := (ordinary line List.mem_cons_self).of_begins (dropReturn_begins line)
      have step : advance p (dropReturn line) (Line.classify program (dropReturn line)) =
          .ok (p, []) := by
        rw [classify_of_ordinary first]
        rfl
      rw [List.map_cons, List.cons_append, readLines_cons step, map_nil_append]
      exact ih fun line member => ordinary line (List.mem_cons_of_mem _ member)

/-- If reading a stream leads from no announcement to none, the log files found are the result. -/
theorem Reads.announcements (h : Reads program .idle text .idle logs) :
    announcements text program = .ok logs := by
  have lines : Bytes.lines text = (ended newline text).map dropReturn ++ [] := by
    rw [Bytes.lines, Bytes.pieces_eq, h.whole, List.append_nil]
    induction ended newline text with
    | nil => rfl
    | cons line more ih =>
        cases more with
        | nil => rfl
        | cons next more =>
            rw [List.map_cons, ← ih]
            rfl
  rw [Check.announcements, lines, h.reads]
  simp [readLines, Except.map]

end Postmortem.Check

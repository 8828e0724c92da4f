import Postmortem.Proofs.AnnouncementLines
import Postmortem.Proofs.Banner

/-! # The parts of an announcement

Each part that a report writes is read as what it is meant to be: the header, the line with the name
of the log file, the end of the work on it and the footer. What is said about the programs that work
on the file interrupts the line with its name, which is then ended by a line of its own.
-/

namespace Postmortem.Check

open Bytes (newline dash pieces ended unended dropReturn occursIn upTo splitOnce)

variable {program line text s t host name : Bytes} {p q r : Progress} {logs more : List Bytes}

/-! ## The banner -/

/-- The line with the name of the program. -/
def headerLine (program : Bytes) : Bytes :=
  List.replicate (Banner.ofProgram program).leading dash ++ Line.headerLabel program ++
    List.replicate (Banner.ofProgram program).trailing dash

theorem flatten_header (program : Bytes) :
    ((Banner.ofProgram program).header program).flatten =
      ([] ++ [newline]) ++ (headerLine program ++ [newline]) := by
  simp only [Banner.header, List.flatten_append, Banner.flatten_dashes, headerLine,
    Line.headerLabel, List.flatten_cons, List.flatten_nil, List.append_nil, List.append_assoc,
    List.nil_append]

theorem reads_header (single : newline ∉ program) :
    Reads program .idle ((Banner.ofProgram program).header program).flatten .headed [] := by
  have fits := Banner.ofProgram_fits program
  have leading : 1 ≤ (Banner.ofProgram program).leading := Nat.le_of_succ_le fits.two_le
  have trailing : 1 ≤ (Banner.ofProgram program).trailing := leading.trans fits.le_trailing
  obtain ⟨n, hn⟩ := Nat.exists_eq_add_of_le' leading
  obtain ⟨m, hm⟩ := Nat.exists_eq_add_of_le' trailing
  have first : (headerLine program).head? = some dash := by
    rw [headerLine, hn, List.replicate_succ]
    rfl
  have last : (headerLine program).getLast? = some dash := by
    rw [headerLine, hm, List.replicate_succ', ← List.append_assoc, List.getLast?_concat]
  have one : newline ∉ headerLine program := by
    have noDash (n : Nat) : newline ∉ List.replicate n dash :=
      fun member => absurd (List.eq_of_mem_replicate member) (by decide)
    simp only [headerLine, Line.headerLabel, List.mem_append, not_or]
    exact ⟨⟨noDash _, ⟨⟨by decide, single⟩, by decide⟩, by decide⟩, noDash _⟩
  have isHeader : IsHeader program (headerLine program) := by
    refine ⟨first, ?_⟩
    rw [← headerLabel_eq]
    exact ⟨_, _, rfl⟩
  rw [flatten_header]
  refine Reads.append (plain_empty_line.reads) (reads_line one ?_)
  rw [dropReturn_of_last last (by decide), classify_of_header isHeader]
  rfl

theorem reads_footer (program : Bytes) :
    Reads program .finished (Banner.ofProgram program).footer.flatten .idle [] := by
  let width := (Banner.ofProgram program).width
  have wide : Banner.minWidth ≤ width := by
    simp only [width, (Banner.ofProgram_fits program).width]
    exact Nat.le_max_left _ _
  obtain ⟨n, hn⟩ : ∃ n, width = n + 1 :=
    Nat.exists_eq_succ_of_ne_zero (Nat.ne_of_gt (Nat.lt_of_lt_of_le (by decide) wide))
  have text : (Banner.ofProgram program).footer.flatten = List.replicate width dash ++ [newline] :=
    Banner.flatten_footer (Banner.ofProgram program)
  have one : newline ∉ List.replicate width dash :=
    fun member => absurd (List.eq_of_mem_replicate member) (by decide)
  have last : (List.replicate width dash).getLast? = some dash := by
    rw [hn, List.replicate_succ', List.getLast?_concat]
  rw [text]
  refine reads_line one ?_
  rw [dropReturn_of_last last (by decide), classify_of_footer (isFooter_replicate wide)]
  rfl

/-! ## The log file -/

/-- The part of the line that names the log file up to the end of the name. -/
def target (host name : Bytes) : Bytes := host ++ utf8 ":" ++ name ++ Line.nameEnd

/-- What a report writes before it starts the postmortem command. -/
def logLine (host name : Bytes) : Bytes := Line.logMark ++ (target host name ++ utf8 " ...")

/-- A host and a log file that can be told apart when they are read. -/
structure Legible (host name : Bytes) : Prop where
  colon : (58 : UInt8) ∉ host
  host_end : occursIn Line.nameEnd host = false
  name_end : occursIn Line.nameEnd name = false
  host_line : newline ∉ host
  name_line : newline ∉ name

/-- The line that names a log file, whatever stands behind the name. -/
theorem classify_log (h : Legible host name) (rest : Bytes) :
    Line.classify program (Line.logMark ++ (target host name ++ rest)) =
      .log (some name) (Bytes.endsWith (Line.logMark ++ (target host name ++ rest)) Line.doneMark) := by
  have apart : occursIn [32, 93] (host ++ 58 :: name) = false :=
    not_occursIn_append (by decide) (by decide) h.host_end h.name_end
  have named : host ++ utf8 ":" ++ name = host ++ 58 :: name := List.append_assoc ..
  refine classify_of_names ⟨host, Line.nameEnd ++ rest, ?_, h.colon, ?_, .inr (List.prefix_append ..)⟩
  · rw [target, List.append_assoc _ Line.nameEnd]
    rfl
  · rw [named]
    exact not_occursIn_iff.mp apart

/-- The work on the log file ends without a word. -/
theorem reads_log_done (h : Legible host name) :
    Reads program .headed (logLine host name ++ utf8 " done." ++ [newline]) .finished [name] := by
  have text : logLine host name ++ utf8 " done." =
      Line.logMark ++ (target host name ++ (utf8 " ..." ++ utf8 " done.")) := by
    simp only [logLine, List.append_assoc]
  have one : newline ∉ logLine host name ++ utf8 " done." := by
    simp only [logLine, target, List.mem_append, not_or]
    exact ⟨⟨by decide, ⟨⟨⟨h.host_line, by decide⟩, h.name_line⟩, by decide⟩, by decide⟩, by decide⟩
  have last : (logLine host name ++ utf8 " done.").getLast? = some 46 := by
    rw [List.getLast?_append]
    rfl
  have finished : Bytes.endsWith (logLine host name ++ utf8 " done.") Line.doneMark = true := by
    rw [Bytes.endsWith, List.isSuffixOf_iff_suffix]
    exact List.suffix_append _ _
  refine reads_line one ?_
  rw [dropReturn_of_last last (by decide), text, classify_log h, ← text, finished]
  rfl

/-- What is said about a program that works on the log file. The last byte matters, since the line
    continues the one with the name of the log file. -/
structure Remark (line : Bytes) : Prop extends Ordinary line where
  last : ∃ b, line.getLast? = some b ∧ b ≠ 46 ∧ b ≠ 13

/-- Remarks, a line each. -/
structure Remarks (text : Bytes) : Prop where
  whole : unended newline text = []
  remark : ∀ line ∈ ended newline text, Remark line

theorem Remarks.plain (h : Remarks text) : Plain text :=
  ⟨h.whole, fun line member => (h.remark line member).toOrdinary⟩

theorem remarks_nil : Remarks [] := ⟨rfl, by simp⟩

theorem Remarks.append (hs : Remarks s) (ht : Remarks t) : Remarks (s ++ t) := by
  refine ⟨?_, ?_⟩
  · rw [Bytes.unended_append, hs.whole]
    exact ht.whole
  · intro line member
    rw [Bytes.ended_append, hs.whole, List.nil_append, List.mem_append] at member
    obtain member | member := member
    · exact hs.remark line member
    · exact ht.remark line member

theorem Remark.remarks (h : Remark line) (one : newline ∉ line) : Remarks (line ++ [newline]) := by
  refine ⟨Bytes.unended_concat line, fun other member => ?_⟩
  rw [Bytes.ended_concat, Bytes.pieces_of_notMem one, List.mem_singleton] at member
  rw [member]
  exact h

/-- The first remark ends the line with the name of the log file. -/
theorem reads_log_interrupted (h : Legible host name) (remark : Remark line)
    (single : newline ∉ line) :
    Reads program .headed (logLine host name ++ line ++ [newline]) .writing [name] := by
  have text : logLine host name ++ line =
      Line.logMark ++ (target host name ++ (utf8 " ..." ++ line)) := by
    simp only [logLine, List.append_assoc]
  have one : newline ∉ logLine host name ++ line := by
    simp only [logLine, target, List.mem_append, not_or]
    exact ⟨⟨by decide, ⟨⟨⟨h.host_line, by decide⟩, h.name_line⟩, by decide⟩, by decide⟩, single⟩
  obtain ⟨b, last, notDot, notReturn⟩ := remark.last
  have last : (logLine host name ++ line).getLast? = some b := by
    rw [List.getLast?_append, last, Option.some_or]
  have unfinished : Bytes.endsWith (logLine host name ++ line) Line.doneMark = false := by
    by_contra ends
    have suffix := List.isSuffixOf_iff_suffix.mp (Bool.of_not_eq_false ends)
    obtain ⟨front, whole⟩ := suffix
    rw [← whole, List.getLast?_append] at last
    exact notDot (Option.some.inj last).symm
  refine reads_line one ?_
  rw [dropReturn_of_last last notReturn, text, classify_log h, ← text, unfinished]
  rfl

theorem reads_done : Reads program .writing (utf8 " done." ++ [newline]) .finished [] := by
  refine reads_line (by decide) ?_
  have here : dropReturn (utf8 " done.") = utf8 " done." := by decide
  rw [here]
  rfl

/-- The work on the log file, whatever is said about it. -/
theorem reads_work (h : Legible host name) (remarks : Remarks text) :
    Reads program .headed (logLine host name ++ text ++ utf8 " done.\n") .finished [name] := by
  have done : utf8 " done.\n" = utf8 " done." ++ [newline] := by decide
  rw [done]
  by_cases some : newline ∈ text
  · obtain ⟨line, others, rfl, single⟩ := List.eq_append_cons_of_mem some
    have first : Remark line := by
      refine remarks.remark line ?_
      rw [Bytes.ended_append_mark single]
      exact List.mem_cons_self
    have rest : Plain others := by
      refine ⟨?_, fun other member => ?_⟩
      · rw [← Bytes.unended_append_mark single]
        exact remarks.whole
      · refine (remarks.remark other ?_).toOrdinary
        rw [Bytes.ended_append_mark single]
        exact List.mem_cons_of_mem line member
    have interrupted : Reads program .headed (logLine host name ++ line ++ [newline]) .writing [name] :=
      reads_log_interrupted h first single
    have whole := (interrupted.append rest.reads).append reads_done
    simpa only [List.append_assoc, List.singleton_append, List.append_nil] using whole
  · have none : text = [] := by
      rw [← Bytes.unended_of_notMem some]
      exact remarks.whole
    rw [none, List.append_nil, ← List.append_assoc]
    exact reads_log_done h

end Postmortem.Check

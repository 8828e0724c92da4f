import Postmortem.Proofs.Pieces
import Postmortem.Tracer

/-! # The status file read through a small buffer

What comes of a status file does not depend on how the file is handed over: it is what the first
line says that is shorter than the buffer and has the form sought. The loop is taken apart at the
points where it reads. What it has read by then counts only through the line it is in the middle
of, and `answer` is what the rest of the file makes of that line; no round of the loop changes it.
-/

namespace Postmortem.Tracer

open Bytes (newline pieces ended unended)

variable {ε : Type}

namespace Deliveries

/-- The bytes that a source yields before a read yields nothing or fails. -/
def delivered : Deliveries ε → Bytes
  | [] => []
  | .error _ :: _ => []
  | .ok bytes :: rest => if bytes = [] then [] else bytes ++ delivered rest

/-- The failure of a source, unless a read yields nothing before it. -/
def failure? : Deliveries ε → Option ε
  | [] => none
  | .error e :: _ => some e
  | .ok bytes :: rest => if bytes = [] then none else failure? rest

variable {room : Nat} {source : Deliveries ε} {bytes : Bytes}

/-- A read of something takes it from the front of what the source yields. -/
theorem read_some (h : (source.read room).1 = .ok bytes) (ne : bytes ≠ []) :
    bytes.length ≤ room ∧ source.delivered = bytes ++ (source.read room).2.delivered ∧
      source.failure? = (source.read room).2.failure? := by
  match source with
  | [] => simp_all [read]
  | .error e :: rest => simp [read] at h
  | .ok all :: rest =>
      simp only [read] at h ⊢
      split at h
      · next fits =>
        cases h
        simp only [if_pos fits, delivered, failure?, if_neg ne, and_true]
        exact fits
      · next fits =>
        cases h
        have whole : all ≠ [] := by rintro rfl; simp at fits
        have tail : all.drop room ≠ [] := by
          rw [ne_eq, List.drop_eq_nil_iff]
          exact fits
        simp only [if_neg fits, delivered, failure?, if_neg whole, if_neg tail,
          ← List.append_assoc, List.take_append_drop, and_true]
        exact List.length_take_le _ _

/-- A read of nothing, with room for something, is the end of the source. -/
theorem read_nothing (h : (source.read room).1 = .ok []) (pos : 0 < room) :
    source.delivered = [] ∧ source.failure? = none := by
  match source with
  | [] => exact ⟨rfl, rfl⟩
  | .error e :: rest => simp [read] at h
  | .ok all :: rest =>
      simp only [read] at h
      split at h
      · cases h
        simp [delivered, failure?]
      · next fits =>
        have none : all.take room = [] := by simpa using h
        have : room = 0 ∨ all = [] := List.take_eq_nil_iff.mp none
        obtain rfl | rfl := this
        · omega
        · simp at fits

theorem read_failed {e} (h : (source.read room).1 = .error e) :
    source.delivered = [] ∧ source.failure? = some e := by
  match source with
  | [] => simp [read] at h
  | .error e :: rest =>
      cases h
      exact ⟨rfl, rfl⟩
  | .ok all :: rest =>
      simp only [read] at h
      split at h <;> simp at h

end Deliveries

/-- What some lines say: the number on the first line that is shorter than the buffer and has one. -/
def firstNumber (lines : List Bytes) : Option Nat :=
  (lines.filter (·.length < bufferSize)).findSome? parseLine

/-- The lines that count; the first does not if it is the rest of one that was dropped. -/
def considered (discarding : Bool) (lines : List Bytes) : List Bytes :=
  if discarding then lines.drop 1 else lines

/-- What comes of a text in which a line is being read, or being dropped: if the text is all there
    is, its last line need not be ended; if a read fails after it, only ended lines count. -/
def answer (failure : Option ε) (discarding : Bool) (text : Bytes) :
    Except ε (Option Nat) :=
  match failure with
  | none => .ok (firstNumber (considered discarding (pieces newline text)))
  | some e =>
    match firstNumber (considered discarding (ended newline text)) with
    | some number => .ok (some number)
    | none => .error e

theorem firstNumber_append (front back : List Bytes) :
    firstNumber (front ++ back) = (firstNumber front).or (firstNumber back) := by
  simp only [firstNumber, List.filter_append, List.findSome?_append]

theorem firstNumber_eq_findSome? {lines : List Bytes}
    (short : ∀ line ∈ lines, line.length < bufferSize) :
    firstNumber lines = lines.findSome? parseLine := by
  rw [firstNumber, List.filter_eq_self.mpr (by simpa using short)]

theorem considered_append (discarding : Bool) (front back : List Bytes) :
    considered discarding (front ++ back) =
      considered discarding front ++ considered (discarding && front.isEmpty) back := by
  cases discarding with
  | false => rfl
  | true => cases front <;> simp [considered]

theorem mem_of_mem_considered {discarding : Bool} {lines : List Bytes} {line : Bytes}
    (h : line ∈ considered discarding lines) : line ∈ lines := by
  simp only [considered] at h
  split at h
  · exact List.mem_of_mem_drop h
  · exact h

/-- A line that fills the buffer counts as little as one that is being dropped. -/
theorem firstNumber_overlong {kept : Bytes} (full : kept.length = bufferSize) (discarding : Bool)
    (lines : List Bytes) :
    firstNumber (considered discarding (lines.modifyHead (kept ++ ·))) =
      firstNumber (considered true lines) := by
  cases lines with
  | nil => cases discarding <;> rfl
  | cons line more =>
      cases discarding with
      | true => rfl
      | false =>
          have long : ¬ (kept ++ line).length < bufferSize := by
            rw [List.length_append, full]
            omega
          simp only [firstNumber, considered, List.modifyHead_cons, List.filter_cons, long,
            decide_false, Bool.false_eq_true, if_false, if_true, List.drop_succ_cons,
            List.drop_zero]

/-- Dropping a line that fills the buffer changes nothing. -/
theorem answer_overlong {kept : Bytes} (oneLine : newline ∉ kept) (full : kept.length = bufferSize)
    (failure : Option ε) (discarding : Bool) (text : Bytes) :
    answer failure discarding (kept ++ text) = answer failure true text := by
  cases failure with
  | none =>
      simp only [answer, Bytes.pieces_append_of_notMem oneLine, firstNumber_overlong full]
  | some e =>
      simp only [answer, Bytes.ended_append_of_notMem oneLine, firstNumber_overlong full]

/-- In a text that fits the buffer all ended lines are short enough. -/
theorem scan_found {discarding : Bool} {text : Bytes} (fits : text.length ≤ bufferSize) :
    (scan discarding text).found = firstNumber (considered discarding (ended newline text)) := by
  rw [firstNumber_eq_findSome?]
  · rfl
  · intro line member
    exact Nat.lt_of_lt_of_le (Bytes.length_lt_of_mem_ended (mem_of_mem_considered member)) fits

/-- A number found in the buffer is the answer, whatever follows. -/
theorem answer_of_found {discarding : Bool} {text : Bytes} {number}
    (fits : text.length ≤ bufferSize) (found : (scan discarding text).found = some number)
    (failure : Option ε) (more : Bytes) :
    answer failure discarding (text ++ more) = .ok (some number) := by
  rw [scan_found fits] at found
  cases failure with
  | none =>
      simp only [answer]
      rw [Bytes.pieces_append, considered_append, firstNumber_append, found, Option.some_or]
  | some e =>
      simp only [answer]
      rw [Bytes.ended_append, considered_append, firstNumber_append, found, Option.some_or]

/-- Ended lines without a number can be forgotten. -/
theorem answer_of_not_found {discarding : Bool} {text : Bytes} (fits : text.length ≤ bufferSize)
    (found : (scan discarding text).found = none) (failure : Option ε) (more : Bytes) :
    answer failure discarding (text ++ more) =
      answer failure (scan discarding text).discarding ((scan discarding text).kept ++ more) := by
  rw [scan_found fits] at found
  cases failure with
  | none =>
      simp only [answer]
      rw [Bytes.pieces_append, considered_append, firstNumber_append, found, Option.none_or]
      rfl
  | some e =>
      simp only [answer]
      rw [Bytes.ended_append, considered_append, firstNumber_append, found, Option.none_or]
      rfl

/-- At the end of a file the last line is looked at, unless it is being dropped. -/
theorem answer_at_end {kept : Bytes} (oneLine : newline ∉ kept) (short : kept.length < bufferSize)
    (discarding : Bool) :
    (answer none discarding kept : Except ε (Option Nat)) =
      .ok (if discarding then none else parseLine kept) := by
  simp only [answer, Bytes.pieces_of_notMem oneLine]
  cases discarding with
  | true => rfl
  | false => simp [firstNumber, considered, short]

/-- A failure is the answer where no line has ended. -/
theorem answer_at_failure {kept : Bytes} (oneLine : newline ∉ kept) (e : ε)
    (discarding : Bool) : answer (some e) discarding kept = .error e := by
  simp only [answer, Bytes.ended_of_notMem oneLine]
  cases discarding <;> rfl

/-- Where the loop comes to a read: what the buffer holds, whether that belongs to a line that is
    being dropped, and what is still to be read. -/
structure ReadPoint (ε : Type) where
  kept : Bytes
  discarding : Bool
  source : Deliveries ε
  deriving Repr, DecidableEq

namespace ReadPoint

/-- The beginning of the loop. -/
def first (source : Deliveries ε) : ReadPoint ε := ⟨[], false, source⟩

/-- How much can be read at once. -/
def room (p : ReadPoint ε) : Nat := bufferSize - p.kept.length

/-- One round of the loop, from a read to the next one or to a result. -/
def round (p : ReadPoint ε) : Except ε (Option Nat) ⊕ ReadPoint ε :=
  match (p.source.read p.room).1 with
  | .error e => .inl (.error e)
  | .ok bytes =>
    let lines := scan p.discarding (p.kept ++ bytes)
    match lines.found with
    | some number => .inl (.ok (some number))
    | none =>
      if bytes = [] then .inl (.ok (if lines.discarding then none else parseLine lines.kept))
      else if lines.kept.length = bufferSize then .inr ⟨[], true, (p.source.read p.room).2⟩
      else .inr ⟨lines.kept, lines.discarding, (p.source.read p.room).2⟩

/-- The loop is one round after another. -/
theorem readFrom_eq_round (p : ReadPoint ε) :
    readFrom p.kept p.discarding p.source =
      match p.round with
      | .inl result => result
      | .inr next => readFrom next.kept next.discarding next.source := by
  rw [readFrom]
  simp only [round, room]
  split <;> rename_i read
  · simp only [read]
  · rename_i bytes
    simp only [read]
    cases (scan p.discarding (p.kept ++ bytes)).found with
    | some number => rfl
    | none =>
        by_cases ended : bytes = []
        · simp only [dif_pos ended, if_pos ended]
        · simp only [dif_neg ended, if_neg ended]
          split <;> rfl

/-- What the buffer holds is a part of one line, and the buffer has room left. -/
structure Partial (p : ReadPoint ε) : Prop where
  unended : newline ∉ p.kept
  room_pos : p.kept.length < bufferSize

/-- What the loop is going to answer. -/
def answer (p : ReadPoint ε) : Except ε (Option Nat) :=
  Tracer.answer p.source.failure? p.discarding (p.kept ++ p.source.delivered)

theorem first_partial (source : Deliveries ε) : (first source).Partial :=
  ⟨by simp [first], by simp [first, bufferSize]⟩

variable {p next : ReadPoint ε}

/-- What is in the buffer after a read still fits it. -/
private theorem Partial.fits (inv : p.Partial) {bytes : Bytes} (le : bytes.length ≤ p.room) :
    (p.kept ++ bytes).length ≤ bufferSize := by
  have room := inv.room_pos
  simp only [ReadPoint.room] at le
  simp only [List.length_append]
  omega

/-- A result that a round comes to is the one expected. -/
theorem eq_answer_of_round {result} (inv : p.Partial) (h : p.round = .inl result) :
    result = p.answer := by
  have pos : 0 < p.room := Nat.sub_pos_of_lt inv.room_pos
  simp only [round] at h
  split at h <;> rename_i read
  · obtain ⟨nothing, failure⟩ := Deliveries.read_failed read
    cases h
    rw [answer, nothing, failure, List.append_nil, answer_at_failure inv.unended]
  · rename_i bytes
    split at h <;> rename_i found
    · cases h
      by_cases ne : bytes = []
      · subst ne
        have fits : (p.kept ++ []).length ≤ bufferSize := inv.fits (Nat.zero_le _)
        obtain ⟨nothing, -⟩ := Deliveries.read_nothing read pos
        rw [answer, nothing, ← answer_of_found fits found p.source.failure? [], List.append_nil]
      · obtain ⟨le, front, -⟩ := Deliveries.read_some read ne
        rw [answer, front, ← List.append_assoc, answer_of_found (inv.fits le) found]
    · split at h
      · rename_i ne
        subst ne
        obtain ⟨nothing, failure⟩ := Deliveries.read_nothing read pos
        have kept : (scan p.discarding p.kept).kept = p.kept := Bytes.unended_of_notMem inv.unended
        have still : (scan p.discarding p.kept).discarding = p.discarding := by
          simp [scan, Bytes.pieces_of_notMem inv.unended]
        cases h
        rw [answer, nothing, failure, List.append_nil, answer_at_end inv.unended inv.room_pos, kept,
          still]
      · split at h <;> simp at h

/-- A round that leads to another read keeps the invariant, changes nothing about what the loop is
    going to answer, and has read something. -/
theorem round_step (inv : p.Partial) (h : p.round = .inr next) :
    next.Partial ∧ next.answer = p.answer ∧ next.source.weight < p.source.weight := by
  simp only [round] at h
  split at h
  · simp at h
  · rename_i bytes read
    split at h <;> rename_i found
    · simp at h
    · split at h
      · simp at h
      · rename_i ne
        obtain ⟨le, front, failure⟩ := Deliveries.read_some read ne
        have fits := inv.fits le
        have less := Deliveries.weight_read read ne
        have kept : newline ∉ (scan p.discarding (p.kept ++ bytes)).kept := Bytes.notMem_unended
        have forget := answer_of_not_found fits found p.source.failure?
          (p.source.read p.room).2.delivered
        rw [List.append_assoc, ← front] at forget
        split at h
        · rename_i full
          cases h
          refine ⟨⟨by simp, by simp [bufferSize]⟩, ?_, less⟩
          rw [answer, answer, forget, ← failure, answer_overlong kept full, List.nil_append]
        · rename_i notFull
          cases h
          have kept_le : (unended newline (p.kept ++ bytes)).length ≤ _ := Bytes.length_unended_le
          refine ⟨⟨kept, Nat.lt_of_le_of_ne (Nat.le_trans kept_le fits) notFull⟩, ?_, less⟩
          rw [answer, answer, forget, ← failure]

/-- The loop gives the answer expected where it comes to a read. -/
theorem readFrom_eq_answer (p : ReadPoint ε) (inv : p.Partial) :
    readFrom p.kept p.discarding p.source = p.answer := by
  rw [readFrom_eq_round]
  cases h : p.round with
  | inl result => exact eq_answer_of_round inv h
  | inr next =>
      obtain ⟨inv', same, less⟩ := round_step inv h
      rw [← same]
      exact readFrom_eq_answer next inv'
termination_by p.source.weight

end ReadPoint

/-- The points where the loop reads while it goes through a source. -/
inductive Reads (source : Deliveries ε) : ReadPoint ε → Prop where
  | first : Reads source (.first source)
  | next {p q} : Reads source p → p.round = .inr q → Reads source q

theorem Reads.partial {source : Deliveries ε} {p} (h : Reads source p) : p.Partial := by
  induction h with
  | first => exact ReadPoint.first_partial source
  | next _ round ih => exact (ReadPoint.round_step ih round).1

/-- However a file is delivered, its tracer is the number on the first line that is shorter than the
    buffer and has one; and if a read fails, the failure counts unless a line that has ended gave
    the number already. Where the loop reads, there is room in the buffer. -/
theorem pid_eq_firstNumber (source : Deliveries ε) :
    (pid source =
      match source.failure? with
      | none => .ok (firstNumber (pieces newline source.delivered))
      | some e =>
        match firstNumber (ended newline source.delivered) with
        | some number => .ok (some number)
        | none => .error e) ∧
    ∀ p, Reads source p → p.kept.length < bufferSize ∧ 0 < p.room := by
  constructor
  · exact ReadPoint.readFrom_eq_answer _ (ReadPoint.first_partial source)
  · intro p reads
    have room := reads.partial.room_pos
    exact ⟨room, Nat.sub_pos_of_lt room⟩

/-- A line that fills the buffer is dropped with its tail, and the line after it is still read. -/
theorem pid_after_overlong_line :
    let source : Source := [.ok (List.replicate 1030 65 ++ newline :: utf8 "TracerPid:\t7")]
    let second : ReadPoint ReadError :=
      ⟨[], true, [.ok (List.replicate 6 65 ++ newline :: utf8 "TracerPid:\t7")]⟩
    Reads source second ∧ pid source = .ok (some 7) ∧
      second.kept.length < bufferSize ∧ 0 < second.room := by
  intro source second
  obtain ⟨result, roomy⟩ := pid_eq_firstNumber source
  have reads : Reads source second := .next .first (by decide +kernel)
  exact ⟨reads, result.trans (by decide +kernel), roomy second reads⟩

end Postmortem.Tracer

import Mathlib.Data.Stream.Init
import Postmortem.Output

/-! # Writing to a descriptor

Every call that writes to a descriptor is offered what the calls before it have left, and after an
answer that ends the writing there is no further call. So whatever the answers are, what is
delivered is a beginning of the string, in order and without gaps; and it is all of the string
unless a call takes nothing or fails for another reason than an interruption. The loop that every
writer has makes the same calls.
-/

namespace Postmortem

namespace WriteAnswer

/-- Nothing more is written after this answer: the call took nothing, or it failed and was not just
    interrupted. -/
def Ends : WriteAnswer → Prop
  | .accepted count => count = 0
  | .failed e => e ≠ .interrupted

instance : DecidablePred Ends
  | .accepted count => inferInstanceAs (Decidable (count = 0))
  | .failed e => inferInstanceAs (Decidable (e ≠ .interrupted))

/-- How writing ends with an answer that ends it. -/
def outcome : WriteAnswer → WriteOutcome
  | .accepted _ => .nothingAccepted
  | .failed e => .failed e

/-- The error number that an answer leaves. -/
def errno (before : Errno) : WriteAnswer → Errno
  | .accepted _ => before
  | .failed e => e

theorem Ends.taken_eq {a : WriteAnswer} (h : a.Ends) : a.taken = 0 := by
  cases a with
  | accepted count => exact h
  | failed e => rfl

theorem outcome_ne_complete (a : WriteAnswer) : a.outcome ≠ .complete := by
  cases a <;> exact WriteOutcome.noConfusion

theorem outcome_ne_pending (a : WriteAnswer) : a.outcome ≠ .pending := by
  cases a <;> exact WriteOutcome.noConfusion

end WriteAnswer

/-! ## One turn of the loop -/

namespace Writer

variable {σ : Type} {writer : Writer σ} {s after : σ} {bytes : Bytes}

theorem writeAll_nil (s : σ) : writer.writeAll s [] = (.complete, s) := by
  rw [writeAll, if_pos rfl]

theorem writeAll_of_none (ne : bytes ≠ []) (call : writer.write s bytes = (none, after)) :
    writer.writeAll s bytes = (.pending, after) := by
  rw [writeAll, if_neg ne]
  split <;> simp_all

theorem writeAll_of_ok {count : Nat} (ne : bytes ≠ [])
    (call : writer.write s bytes = (some (.ok count), after)) :
    writer.writeAll s bytes =
      if count = 0 then (.nothingAccepted, after)
      else writer.writeAll after (bytes.drop count) := by
  rw [writeAll, if_neg ne]
  split <;> simp_all

theorem writeAll_of_error {e : Errno} (ne : bytes ≠ [])
    (call : writer.write s bytes = (some (.error e), after)) :
    writer.writeAll s bytes =
      if e = .interrupted then writer.writeAll after bytes else (.failed e, after) := by
  rw [writeAll, if_neg ne]
  split <;> simp_all

end Writer

namespace FdWriter

variable {w : FdWriter} {answers : List WriteAnswer} {errno : Errno} {calls : List WriteCall}
  {bytes : Bytes}

/-- The descriptor's own loop does what that of every writer does. -/
theorem writer_writeAll (x : Exchange) (bytes : Bytes) :
    w.writer.writeAll x bytes = w.writeAll x bytes := by
  fun_induction w.writeAll x bytes with
  | case1 x => exact Writer.writeAll_nil x
  | case2 x bytes ne after call => exact Writer.writeAll_of_none ne call
  | case3 x bytes ne after call => rw [Writer.writeAll_of_ok ne call, if_pos rfl]
  | case4 x bytes ne count after call some ih =>
      rw [Writer.writeAll_of_ok ne call, if_neg some, ih]
  | case5 x bytes ne after call ih => rw [Writer.writeAll_of_error ne call, if_pos rfl, ih]
  | case6 x bytes ne e after call other =>
      rw [Writer.writeAll_of_error ne call, if_neg other]

theorem writeAll_nil (x : Exchange) : w.writeAll x [] = (.complete, x) := by
  rw [← writer_writeAll, Writer.writeAll_nil]

theorem writeAll_unanswered (ne : bytes ≠ []) :
    w.writeAll ⟨[], errno, calls⟩ bytes =
      (.pending, ⟨[], errno, calls ++ [⟨w.fd, bytes, none⟩]⟩) := by
  rw [← writer_writeAll]
  exact Writer.writeAll_of_none ne rfl

/-- One turn: the answer ends the writing, or it goes on with what the call has left. -/
theorem writeAll_answered (ne : bytes ≠ []) (a : WriteAnswer) :
    w.writeAll ⟨a :: answers, errno, calls⟩ bytes =
      let after : Exchange := ⟨answers, a.errno errno, calls ++ [⟨w.fd, bytes, some a⟩]⟩
      if a.Ends then (a.outcome, after) else w.writeAll after (bytes.drop a.taken) := by
  simp only [← writer_writeAll]
  cases a with
  | accepted count =>
      have call : w.writer.write ⟨.accepted count :: answers, errno, calls⟩ bytes =
          (some (.ok (min count bytes.length)),
            ⟨answers, errno, calls ++ [⟨w.fd, bytes, some (.accepted count)⟩]⟩) := rfl
      have pos : 0 < bytes.length := List.length_pos_iff.mpr ne
      have nothing : min count bytes.length = 0 ↔ count = 0 := by omega
      rw [Writer.writeAll_of_ok ne call, ← List.drop_eq_drop_min]
      simp only [nothing]
      rfl
  | failed e =>
      have call : w.writer.write ⟨.failed e :: answers, errno, calls⟩ bytes =
          (some (.error e), ⟨answers, e, calls ++ [⟨w.fd, bytes, some (.failed e)⟩]⟩) := rfl
      rw [Writer.writeAll_of_error ne call]
      by_cases interrupted : e = .interrupted
      · rw [if_pos interrupted]
        exact (if_neg (not_not_intro interrupted)).symm
      · rw [if_neg interrupted]
        exact (if_pos interrupted).symm

end FdWriter

/-! ## All turns -/

/-- How a string is written, answer by answer: the calls that are made, and how it ends. -/
inductive Transfer (fd : Int) :
    Bytes → List WriteAnswer → List WriteCall → WriteOutcome → Prop where
  /-- Nothing is left, and no further answer is looked at. -/
  | complete {answers : List WriteAnswer} : Transfer fd [] answers [] .complete
  /-- The call does not return. -/
  | unanswered {bytes : Bytes} (ne : bytes ≠ []) :
    Transfer fd bytes [] [⟨fd, bytes, none⟩] .pending
  /-- The answer ends it. -/
  | ended {bytes : Bytes} {a : WriteAnswer} {answers : List WriteAnswer} (ne : bytes ≠ [])
    (ends : a.Ends) : Transfer fd bytes (a :: answers) [⟨fd, bytes, some a⟩] a.outcome
  /-- It goes on with what the call has left. -/
  | goesOn {bytes : Bytes} {a : WriteAnswer} {answers : List WriteAnswer}
    {calls : List WriteCall} {outcome : WriteOutcome} (ne : bytes ≠ []) (on : ¬ a.Ends)
    (rest : Transfer fd (bytes.drop a.taken) answers calls outcome) :
    Transfer fd bytes (a :: answers) (⟨fd, bytes, some a⟩ :: calls) outcome

namespace FdWriter

theorem exists_transfer_nil (w : FdWriter) (x : Exchange) :
    ∃ calls, Transfer w.fd [] x.answers calls (w.writeAll x []).1 ∧
      (w.writeAll x []).2.calls = x.calls ++ calls := by
  rw [writeAll_nil]
  exact ⟨[], .complete, (List.append_nil x.calls).symm⟩

/-- The loop does just that. -/
theorem exists_transfer (w : FdWriter) (bytes : Bytes) (x : Exchange) :
    ∃ calls, Transfer w.fd bytes x.answers calls (w.writeAll x bytes).1 ∧
      (w.writeAll x bytes).2.calls = x.calls ++ calls := by
  obtain ⟨answers, errno, calls⟩ := x
  induction answers generalizing bytes errno calls with
  | nil =>
      by_cases ne : bytes = []
      · exact ne ▸ w.exists_transfer_nil _
      · rw [writeAll_unanswered ne]
        exact ⟨_, .unanswered ne, rfl⟩
  | cons a answers ih =>
      by_cases ne : bytes = []
      · exact ne ▸ w.exists_transfer_nil _
      · rw [writeAll_answered ne a]
        by_cases ends : a.Ends
        · simp only [if_pos ends]
          exact ⟨_, .ended ne ends, rfl⟩
        · simp only [if_neg ends]
          obtain ⟨further, rest, made⟩ := ih (bytes.drop a.taken) (a.errno errno)
            (calls ++ [⟨w.fd, bytes, some a⟩])
          refine ⟨_, .goesOn ne ends rest, ?_⟩
          rw [made, List.append_assoc, List.singleton_append]

example :
    stderr.writeAll
      { answers := [.accepted 2, .failed .interrupted, .failed .brokenPipe, .accepted 1]
        errno := .notFound } (utf8 "abc") =
      (.failed .brokenPipe,
        { answers := [.accepted 1]
          errno := .brokenPipe
          calls := [⟨2, utf8 "abc", some (.accepted 2)⟩, ⟨2, utf8 "c", some (.failed .interrupted)⟩,
            ⟨2, utf8 "c", some (.failed .brokenPipe)⟩] }) := by
  decide +kernel

end FdWriter

namespace Transfer

variable {fd : Int} {bytes : Bytes} {answers : List WriteAnswer} {calls : List WriteCall}
  {outcome : WriteOutcome}

/-- What the first call delivers and what is made of the rest come to the whole. -/
theorem whole_cons {a : WriteAnswer} {rest : Bytes}
    (whole : calls.flatMap WriteCall.delivered ++ rest = bytes.drop a.taken) :
    (⟨fd, bytes, some a⟩ :: calls).flatMap WriteCall.delivered ++ rest = bytes := by
  rw [List.flatMap_cons, List.append_assoc, whole]
  exact List.take_append_drop a.taken bytes

theorem exists_rest (h : Transfer fd bytes answers calls outcome) :
    ∃ rest, calls.flatMap WriteCall.delivered ++ rest = bytes ∧
      (rest = [] ↔ outcome = .complete) := by
  induction h with
  | complete => exact ⟨[], rfl, by simp⟩
  | @unanswered bytes ne => exact ⟨bytes, rfl, by simpa using ne⟩
  | @ended bytes a answers ne ends =>
      refine ⟨bytes, ?_, by simp [ne, a.outcome_ne_complete]⟩
      simp [WriteCall.delivered, ends.taken_eq]
  | @goesOn bytes a answers calls outcome ne on rest ih =>
      obtain ⟨left, whole, complete⟩ := ih
      exact ⟨left, whole_cons whole, complete⟩

/-- What was delivered is a beginning of the string. -/
theorem delivered_isPrefix (h : Transfer fd bytes answers calls outcome) :
    calls.flatMap WriteCall.delivered <+: bytes := by
  obtain ⟨rest, whole, -⟩ := h.exists_rest
  exact ⟨rest, whole⟩

/-- All of the string was delivered exactly if writing is complete. -/
theorem delivered_eq_iff (h : Transfer fd bytes answers calls outcome) :
    calls.flatMap WriteCall.delivered = bytes ↔ outcome = .complete := by
  obtain ⟨rest, whole, complete⟩ := h.exists_rest
  rw [← complete, ← whole]
  exact List.self_eq_append_right

/-- A call is made on the descriptor, gets the answer that is its turn and is offered what the
    calls before it have left; if its answer ends the writing, it is the last. -/
theorem call (h : Transfer fd bytes answers calls outcome) {earlier later : List WriteCall}
    {c : WriteCall} (place : calls = earlier ++ c :: later) :
    c.fd = fd ∧ c.answer = answers[earlier.length]? ∧ c.offered ≠ [] ∧
      earlier.flatMap WriteCall.delivered ++ c.offered = bytes ∧
      ((∃ a ∈ c.answer, a.Ends) → later = []) := by
  induction h generalizing earlier with
  | complete => simp at place
  | unanswered ne | ended ne ends =>
      obtain ⟨rfl, rfl, rfl⟩ : earlier = [] ∧ c = _ ∧ later = [] := by
        simpa [List.singleton_eq_append_iff] using place
      exact ⟨rfl, rfl, ne, rfl, fun _ => rfl⟩
  | @goesOn bytes a answers calls outcome ne on rest ih =>
      cases earlier with
      | nil =>
          obtain ⟨rfl, rfl⟩ := List.cons_eq_cons.mp place
          refine ⟨rfl, rfl, ne, rfl, ?_⟩
          rintro ⟨b, answer, ends⟩
          cases answer
          exact absurd ends on
      | cons first earlier =>
          obtain ⟨rfl, place'⟩ := List.cons_eq_cons.mp place
          obtain ⟨same, answer, offered, whole, last⟩ := ih place'
          exact ⟨same, answer, offered, whole_cons whole, last⟩

/-- If all calls have returned, writing is complete exactly if no answer has ended it. -/
theorem complete_iff (h : Transfer fd bytes answers calls outcome) (returned : outcome ≠ .pending) :
    outcome = .complete ↔ ∀ c ∈ calls, ∀ a ∈ c.answer, ¬ a.Ends := by
  induction h with
  | complete => simp
  | unanswered ne => exact absurd rfl returned
  | @ended bytes a answers ne ends => simp [ends, a.outcome_ne_complete]
  | goesOn ne on rest ih => simp [on, ih returned]

/-- Each answer that is no interruption takes the string a byte further at least, or ends the
    writing. -/
theorem countP_lt (h : Transfer fd bytes answers calls .pending) :
    answers.countP (· ≠ .failed .interrupted) < bytes.length := by
  generalize pending : WriteOutcome.pending = outcome at h
  induction h with
  | complete => cases pending
  | unanswered ne => exact List.length_pos_iff.mpr ne
  | @ended bytes a answers ne ends => exact absurd pending.symm a.outcome_ne_pending
  | @goesOn bytes a answers calls outcome ne on rest ih =>
      have less := ih pending
      rw [List.length_drop] at less
      rw [List.countP_cons]
      cases a with
      | accepted count =>
          have some : count ≠ 0 := on
          simp only [WriteAnswer.taken] at less
          split <;> omega
      | failed e =>
          have interrupted : e = .interrupted := not_not.mp on
          subst interrupted
          simpa [WriteAnswer.taken] using less

end Transfer

/-- If calls are not interrupted for ever, there are as many other answers as may be needed. -/
theorem WriteAnswer.exists_enough {answers : Stream' WriteAnswer}
    (relents : ∀ i, ∃ j ≥ i, answers.get j ≠ .failed .interrupted) (needed : Nat) :
    ∃ n, needed ≤ (answers.take n).countP (· ≠ .failed .interrupted) := by
  induction needed with
  | zero => exact ⟨0, Nat.zero_le _⟩
  | succ needed ih =>
      obtain ⟨n, enough⟩ := ih
      obtain ⟨m, le, other⟩ := relents n
      have more := (Stream'.take_prefix_take_left n m answers le).sublist.countP_le
        (p := (· ≠ .failed .interrupted))
      refine ⟨m + 1, ?_⟩
      rw [Stream'.take_succ', List.countP_append, List.countP_singleton,
        if_pos (decide_eq_true other)]
      omega

/-! ## The whole string -/

namespace FdWriter

/-- Writing quietly makes the calls of the loop. It has a result once the loop ends, and then the
    error number is as before. -/
theorem writeQuietly_eq (w : FdWriter) (x : Exchange) (bytes : Bytes) :
    (w.writeQuietly x bytes).2.calls = (w.writeAll x bytes).2.calls ∧
      ((w.writeQuietly x bytes).1 = some () ↔ (w.writeAll x bytes).1 ≠ .pending) ∧
      ((w.writeQuietly x bytes).1 = some () → (w.writeQuietly x bytes).2.errno = x.errno) := by
  rw [writeQuietly]
  split <;> simp_all

theorem transfer_writeQuietly (w : FdWriter) (bytes : Bytes) (answers : List WriteAnswer)
    (errno : Errno) :
    let run := w.writeQuietly { answers, errno } bytes
    ∃ outcome, Transfer w.fd bytes answers run.2.calls outcome ∧
      (run.1 = some () ↔ outcome ≠ .pending) := by
  obtain ⟨calls, transfer, made⟩ := w.exists_transfer bytes { answers, errno }
  obtain ⟨same, returned, -⟩ := w.writeQuietly_eq { answers, errno } bytes
  refine ⟨_, ?_, returned⟩
  rwa [same, made]

/-- Writing a string to a descriptor loses nothing and repeats nothing, however the calls are
    answered: each call is made on the descriptor and offered what those before it have left, and
    an answer that ends the writing ends it. What was delivered is a beginning of the string at any
    time; when there is a result, it is the whole string unless there was such an answer, and the
    error number is what it was before. Nothing to write is written without a call. The loop that
    every writer has makes the same calls and ends when this one does. And there is a result if the
    calls are not interrupted for ever. -/
theorem loses_and_repeats_nothing (w : FdWriter) (bytes : Bytes) (errno : Errno) :
    (∀ answers : List WriteAnswer,
      let start : Exchange := { answers, errno }
      let run := w.writeQuietly start bytes
      let standard := w.writer.writeAll start bytes
      run.2.delivered <+: bytes ∧
      (∀ earlier call later, run.2.calls = earlier ++ call :: later →
        call.fd = w.fd ∧ call.answer = answers[earlier.length]? ∧ call.offered ≠ [] ∧
          earlier.flatMap WriteCall.delivered ++ call.offered = bytes ∧
          ((∃ a ∈ call.answer, a.Ends) → later = [])) ∧
      (run.1 = some () → run.2.errno = errno ∧
        (run.2.delivered = bytes ↔ ∀ call ∈ run.2.calls, ∀ a ∈ call.answer, ¬ a.Ends)) ∧
      (bytes = [] → run = (some (), start)) ∧
      standard.2.calls = run.2.calls ∧ (run.1 = some () ↔ standard.1 ≠ .pending)) ∧
    ∀ answers : Stream' WriteAnswer, (∀ i, ∃ j ≥ i, answers.get j ≠ .failed .interrupted) →
      ∃ n, ∀ m ≥ n, (w.writeQuietly { answers := answers.take m, errno } bytes).1 = some () := by
  constructor
  · intro answers start run standard
    obtain ⟨outcome, transfer, returned_iff⟩ := w.transfer_writeQuietly bytes answers errno
    obtain ⟨calls, returned_iff', restored⟩ := w.writeQuietly_eq start bytes
    have loop : standard = w.writeAll start bytes := writer_writeAll start bytes
    refine ⟨transfer.delivered_isPrefix, fun _ _ _ place => transfer.call place, ?_, ?_, ?_, ?_⟩
    · intro returned
      have complete_iff := transfer.complete_iff (returned_iff.mp returned)
      exact ⟨restored returned, transfer.delivered_eq_iff.trans complete_iff⟩
    · rintro rfl
      show w.writeQuietly start [] = _
      rw [writeQuietly, writeAll_nil]
    · rw [loop]
      exact calls.symm
    · rw [loop]
      exact returned_iff'
  · intro answers relents
    obtain ⟨n, enough⟩ := WriteAnswer.exists_enough relents bytes.length
    refine ⟨n, fun m le => ?_⟩
    obtain ⟨outcome, transfer, returned_iff⟩ := w.transfer_writeQuietly bytes (answers.take m) errno
    refine returned_iff.mpr ?_
    rintro rfl
    have known := (Stream'.take_prefix_take_left n m answers le).sublist.countP_le
      (p := (· ≠ .failed .interrupted))
    have less := transfer.countP_lt
    omega

/-- A string written in two pieces, each after an interruption, and nothing written with the same
    answers; and a string written a byte at a time, with every other call interrupted. -/
theorem interrupted_every_other_time :
    let start : Exchange :=
      { answers := [.failed .interrupted, .accepted 1, .failed .interrupted, .accepted 2]
        errno := .notFound }
    let run := stderr.writeQuietly start (utf8 "abc")
    let earlier : List WriteCall :=
      [⟨2, utf8 "abc", some (.failed .interrupted)⟩, ⟨2, utf8 "abc", some (.accepted 1)⟩]
    let call : WriteCall := ⟨2, utf8 "bc", some (.failed .interrupted)⟩
    let later : List WriteCall := [⟨2, utf8 "bc", some (.accepted 2)⟩]
    let answers : Stream' WriteAnswer := fun i =>
      if i % 2 = 0 then .failed .interrupted else .accepted 1
    run.2.calls = earlier ++ call :: later ∧
      earlier.flatMap WriteCall.delivered ++ call.offered = utf8 "abc" ∧
      run.1 = some () ∧ run.2.errno = .notFound ∧ run.2.delivered = utf8 "abc" ∧
      stderr.writeQuietly start [] = (some (), start) ∧
      (∀ i, ∃ j ≥ i, answers.get j ≠ .failed .interrupted) ∧
      ∃ n, ∀ m ≥ n, (stderr.writeQuietly { answers := answers.take m, errno := .notFound }
        (utf8 "abc")).1 = some () := by
  intro start run earlier call later answers
  have place : run.2.calls = earlier ++ call :: later := by decide +kernel
  have returned : run.1 = some () := by decide +kernel
  have onward : ∀ call ∈ run.2.calls, ∀ a ∈ call.answer, ¬ a.Ends := by decide +kernel
  have relents : ∀ i, ∃ j ≥ i, answers.get j ≠ .failed .interrupted := by
    intro i
    refine ⟨2 * i + 1, by omega, ?_⟩
    simp [answers, Stream'.get]
  obtain ⟨sofar, ends⟩ := loses_and_repeats_nothing stderr (utf8 "abc") .notFound
  obtain ⟨nothing, -⟩ := loses_and_repeats_nothing stderr [] .notFound
  obtain ⟨-, offers, result, -⟩ := sofar start.answers
  obtain ⟨-, -, -, uncalled, -⟩ := nothing start.answers
  obtain ⟨-, -, -, left, -⟩ := offers earlier call later place
  obtain ⟨restored, whole⟩ := result returned
  exact ⟨place, left, returned, restored, whole.mpr onward, uncalled rfl, relents,
    ends answers relents⟩

end FdWriter

end Postmortem

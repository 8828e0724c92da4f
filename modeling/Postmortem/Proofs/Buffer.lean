import Postmortem.Proofs.CString
import Postmortem.Proofs.Decimal
import Postmortem.Buffer

/-! # What a buffer of fixed size holds

A buffer is seen as the string that it holds. Whatever was pushed and cut off before, the string is
followed by a NUL and by cells that do not matter; a push appends all it is given or fails, and it
fails exactly if the string and its NUL would need more cells than there are.
-/

namespace Postmortem.FixedBuffer

variable {capacity : Nat} {b : FixedBuffer capacity} {s t : Bytes}

/-- The buffer holds the string: the cells begin with it and a NUL. -/
structure Holds (b : FixedBuffer capacity) (s : Bytes) : Prop where
  size : b.size = s.length
  length : b.cells.length = capacity
  front : ∃ rest, b.cells = s ++ 0 :: rest

/-- Building up a string in a buffer, which succeeds exactly if there is room for it. -/
def Builds (s : Bytes) (r : Except PushError (FixedBuffer capacity)) : Prop :=
  if s.length < capacity then ∃ b, r = .ok b ∧ b.Holds s else r = .error .outOfSpace

theorem Holds.content (h : b.Holds s) : b.content = s := by
  obtain ⟨rest, cells⟩ := h.front
  rw [FixedBuffer.content, cells, h.size, List.take_left]

theorem Holds.length_lt (h : b.Holds s) : s.length < capacity := by
  obtain ⟨rest, cells⟩ := h.front
  have length := h.length
  rw [cells, List.length_append, List.length_cons] at length
  omega

/-- C reads the string as it is, for the NUL after it is the first. -/
theorem Holds.asCString (h : b.Holds s) (nul : 0 ∉ s) : b.asCString = ⟨s, nul⟩ := by
  obtain ⟨rest, cells⟩ := h.front
  have ends : (0 : UInt8) ∈ b.cells := by simp [cells]
  rw [FixedBuffer.asCString, if_pos ends, cells]
  exact CString.untilNul_memory ⟨s, nul⟩ rest

theorem empty_holds (pos : 0 < capacity) : (empty capacity).Holds [] where
  size := rfl
  length := List.length_replicate
  front := by
    obtain ⟨n, rfl⟩ := Nat.exists_eq_succ_of_ne_zero (Nat.ne_of_gt pos)
    exact ⟨List.replicate n 0, rfl⟩

/-- Cells that begin with a string, and go on, hold it after a NUL was put behind it. -/
private theorem terminate_holds {more : Bytes} (length : (s ++ more).length = capacity)
    (room : s.length < capacity) :
    ∃ b : FixedBuffer capacity, terminate (s ++ more) s.length = .ok b ∧ b.Holds s := by
  cases more with
  | nil =>
      simp only [List.append_nil] at length
      omega
  | cons x rest =>
      refine ⟨⟨s ++ 0 :: rest, s.length⟩, ?_, rfl, ?_, rest, rfl⟩
      · rw [terminate, if_pos (by omega), List.set_append_right _ _ (Nat.le_refl _), Nat.sub_self,
          List.set_cons_zero]
      · rw [← length, List.length_append, List.length_append]
        rfl

/-- A push succeeds exactly if there is room. -/
theorem Holds.push (h : b.Holds s) (t : Bytes) : Builds (s ++ t) (b.push t) := by
  obtain ⟨rest, cells⟩ := h.front
  have length := h.length
  have bound := h.length_lt
  rw [Builds, FixedBuffer.push, remaining, h.size, List.length_append]
  split
  · next fits =>
    have room : ¬ capacity - (s.length + 1) < t.length := by omega
    have written : overwrite b.cells s.length t = (s ++ t) ++ b.cells.drop (s.length + t.length) := by
      rw [overwrite, cells, List.take_left]
    rw [if_neg room, written, ← List.length_append]
    apply terminate_holds
    · rw [List.length_append, List.length_drop, List.length_append]
      omega
    · rwa [List.length_append]
  · rw [if_pos (by omega)]

/-- A push of a number appends its decimal text. -/
theorem Holds.pushNumber (h : b.Holds s) (x : Int) :
    Builds (s ++ Decimal.ofInt x) (b.pushNumber x) := by
  obtain ⟨rest, cells⟩ := h.front
  have length := h.length
  have bound := h.length_lt
  have width := Decimal.length_ofInt x
  rw [Builds, FixedBuffer.pushNumber, remaining, h.size, List.length_append, width]
  split
  · next fits =>
    have room : ¬ capacity - (s.length + 1) < Decimal.width x := by omega
    rw [if_neg room, Decimal.put_eq (by rw [List.length_drop]; omega)]
    simp only [cells, List.take_left, ← List.append_assoc]
    rw [← width, ← List.length_append]
    apply terminate_holds
    · rw [List.length_append, List.length_append, List.length_drop, List.length_drop, ← cells]
      omega
    · rw [List.length_append]
      omega
  · rw [if_pos (by omega)]

/-- Cutting the buffer cuts the string. -/
theorem Holds.truncate (h : b.Holds s) (n : Nat) : (b.truncate n).Holds (s.take n) := by
  obtain ⟨rest, cells⟩ := h.front
  rw [FixedBuffer.truncate, h.size]
  split
  · next shorter =>
    have cut : s = s.take n ++ s[n] :: s.drop (n + 1) := by
      rw [← List.drop_eq_getElem_cons, List.take_append_drop]
    have size : (s.take n).length = n := List.length_take_of_le (Nat.le_of_lt shorter)
    refine ⟨size.symm, by rw [List.length_set, h.length], s.drop (n + 1) ++ 0 :: rest, ?_⟩
    show b.cells.set n 0 = _
    rw [cells]
    conv_lhs => rw [cut, List.append_assoc, List.set_append_right _ _ (Nat.le_of_eq size), size,
      Nat.sub_self, List.cons_append, List.set_cons_zero]
  · next whole =>
    rw [List.take_of_length_le (Nat.le_of_not_lt whole)]
    exact h

/-- Building up goes on as long as there is room, and the first failure stays. -/
theorem Builds.bind {r : Except PushError (FixedBuffer capacity)}
    {f : FixedBuffer capacity → Except PushError (FixedBuffer capacity)} (h : Builds s r)
    (step : ∀ b : FixedBuffer capacity, b.Holds s → Builds (s ++ t) (f b)) :
    Builds (s ++ t) (r >>= f) := by
  rw [Builds] at h
  split at h
  · obtain ⟨b, rfl, holds⟩ := h
    exact step b holds
  · next full =>
    subst h
    have longer : ¬ (s ++ t).length < capacity := by
      rw [List.length_append]
      omega
    rw [Builds, if_neg longer]
    rfl

theorem Builds.push {r : Except PushError (FixedBuffer capacity)} (h : Builds s r) (t : Bytes) :
    Builds (s ++ t) (r >>= fun b => b.push t) :=
  h.bind fun _ holds => holds.push t

end Postmortem.FixedBuffer

namespace Postmortem

/-- The text of a number is decimal if there is room for it, and otherwise empty. -/
theorem bytes_numberText (x : Int) :
    (numberText x).bytes = if Decimal.width x < numericBufferSize then Decimal.ofInt x else [] := by
  have built := (FixedBuffer.empty_holds (show 0 < numericBufferSize by decide)).pushNumber x
  have nul : (0 : UInt8) ∉ Decimal.ofInt x := by
    intro member
    obtain zero | zero := Decimal.mem_ofInt member
    · exact absurd zero (by decide)
    · exact absurd zero (by decide)
  rw [List.nil_append, FixedBuffer.Builds, Decimal.length_ofInt] at built
  rw [numberText]
  split at built
  · next fits =>
    obtain ⟨b, pushed, holds⟩ := built
    rw [pushed, if_pos fits]
    exact congrArg CString.bytes (holds.asCString nul)
  · next overlong =>
    rw [built, if_neg overlong]
    rfl

end Postmortem

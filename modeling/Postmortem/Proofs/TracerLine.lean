import Postmortem.Proofs.Decimal
import Postmortem.Tracer

/-! # The line that names the tracer

A line of the status file counts if it consists of the marker and a run of digits, with white space
on either side of the digits and nowhere else. The number is added up digit by digit and stops at
the largest one; since it never becomes smaller again, that is the same as adding up all of it and
stopping once.
-/

namespace Postmortem

namespace Bytes

variable {s word before after : Bytes}

/-- What is cut off at either end is white space. -/
theorem exists_trim (s : Bytes) :
    ∃ before after, s = before ++ trim s ++ after ∧ (∀ b ∈ before, isBlank b) ∧
      ∀ b ∈ after, isBlank b := by
  let front := s.dropWhile isBlank
  refine ⟨s.takeWhile isBlank, (front.reverse.takeWhile isBlank).reverse, ?_, ?_, ?_⟩
  · have back : trim s ++ (front.reverse.takeWhile isBlank).reverse = front := by
      rw [trim, ← List.reverse_append, List.takeWhile_append_dropWhile, List.reverse_reverse]
    rw [List.append_assoc, back, List.takeWhile_append_dropWhile]
  · intro b member
    exact List.mem_takeWhile_imp member
  · intro b member
    exact List.mem_takeWhile_imp (List.mem_reverse.mp member)

theorem dropWhile_blank_append {rest : Bytes} (blank : ∀ b ∈ before, isBlank b)
    (plain : ∀ b ∈ rest.head?, ¬ isBlank b) : (before ++ rest).dropWhile isBlank = rest := by
  rw [List.dropWhile_append_of_pos blank]
  cases rest with
  | nil => rfl
  | cons b rest => exact List.dropWhile_cons_of_neg (plain b rfl)

/-- White space around a word is cut off. -/
theorem trim_append (blank : ∀ b ∈ before, isBlank b) (plain : ∀ b ∈ word, ¬ isBlank b)
    (ne : word ≠ []) (blank' : ∀ b ∈ after, isBlank b) : trim (before ++ word ++ after) = word := by
  have first : ∀ b ∈ (word ++ after).head?, ¬ isBlank b := by
    intro b member
    rw [List.head?_append_of_ne_nil _ ne] at member
    exact plain b (List.mem_of_mem_head? member)
  have last : ∀ b ∈ word.reverse.head?, ¬ isBlank b := by
    intro b member
    exact plain b (List.mem_reverse.mp (List.mem_of_mem_head? member))
  have blank_after : ∀ b ∈ after.reverse, isBlank b := by
    intro b member
    exact blank' b (List.mem_reverse.mp member)
  rw [trim, List.append_assoc, dropWhile_blank_append blank first, List.reverse_append,
    dropWhile_blank_append blank_after last, List.reverse_reverse]

theorem not_isBlank_of_isDigit {b : UInt8} (digit : isDigit b) : ¬ isBlank b := by
  intro blank
  simp only [isBlank, Bool.or_eq_true, beq_iff_eq] at blank
  obtain (((rfl | rfl) | rfl) | rfl) | rfl := blank <;> exact absurd digit (by decide)

end Bytes

namespace Tracer

open Bytes (isBlank isDigit trim)

/-- Stopping at every digit is stopping once. -/
theorem foldl_addDigit (digits : Bytes) :
    digits.foldl addDigit 0 = min (Decimal.value digits) maxPid := by
  induction digits using List.reverseRecOn with
  | nil => rfl
  | append_singleton digits b ih =>
      rw [List.foldl_append, ih, Decimal.value_concat]
      show addDigit (min (Decimal.value digits) maxPid) b = _
      unfold addDigit
      omega

theorem parseLine_marked (rest : Bytes) :
    parseLine (marker ++ rest) =
      if trim rest ≠ [] ∧ ∀ b ∈ trim rest, isDigit b then
        some (min (Decimal.value (trim rest)) maxPid)
      else none := by
  have marked : marker.isPrefixOf? (marker ++ rest) = some rest :=
    List.isPrefixOf?_eq_some_iff_append_eq.mpr rfl
  simp only [parseLine, marked, foldl_addDigit]
  grind

theorem exists_rest {line : Bytes} {number : Nat} (h : parseLine line = some number) :
    ∃ rest, line = marker ++ rest := by
  rw [parseLine] at h
  split at h
  · cases h
  · next rest found => exact ⟨rest, (List.isPrefixOf?_eq_some_iff_append_eq.mp found).symm⟩

/-- A line gives a number exactly if it is the marker, white space, digits and white space, where
    there may be no white space but there is a digit; and the number is the one that the digits
    denote, or the largest if that is smaller. However many digits there are, adding them up never
    goes beyond the largest number: after any of them it stands at the number so far or at the
    largest. -/
theorem parseLine_eq_some_iff (line : Bytes) (number : Nat) :
    (parseLine line = some number ↔
      ∃ before digits after, line = utf8 "TracerPid:" ++ (before ++ digits ++ after) ∧
        (∀ b ∈ before, isBlank b) ∧ digits ≠ [] ∧ (∀ b ∈ digits, isDigit b) ∧
        (∀ b ∈ after, isBlank b) ∧ number = min (Decimal.value digits) (2 ^ 63 - 1)) ∧
    ∀ sofar : Bytes, sofar.foldl addDigit 0 = min (Decimal.value sofar) (2 ^ 63 - 1) := by
  have largest : maxPid = 2 ^ 63 - 1 := rfl
  refine ⟨⟨?_, ?_⟩, foldl_addDigit⟩
  · intro found
    obtain ⟨rest, rfl⟩ := exists_rest found
    obtain ⟨before, after, whole, blank, blank'⟩ := Bytes.exists_trim rest
    rw [parseLine_marked] at found
    split at found
    · next word =>
      cases found
      exact ⟨before, trim rest, after, congrArg (marker ++ ·) whole, blank, word.1, word.2, blank',
        rfl⟩
    · cases found
  · rintro ⟨before, digits, after, rfl, blank, ne, all, blank', rfl⟩
    have plain : ∀ b ∈ digits, ¬ isBlank b := fun b member =>
      Bytes.not_isBlank_of_isDigit (all b member)
    have cut : trim (before ++ digits ++ after) = digits :=
      Bytes.trim_append blank plain ne blank'
    show parseLine (marker ++ _) = _
    rw [parseLine_marked, cut, if_pos ⟨ne, all⟩, largest]

example : parseLine (utf8 "TracerPid:\t009223372036854775808 \r") = some 9223372036854775807 := by
  decide +kernel

end Tracer

end Postmortem

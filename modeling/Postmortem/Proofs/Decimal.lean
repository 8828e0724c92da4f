import Mathlib
import Postmortem.Decimal

/-! # Decimal texts

The digits written backwards into cells are the digits of the number, and two numbers with the same
digits are equal.
-/

namespace Postmortem.Decimal

variable {m n : Nat}

theorem digitCount_of_lt (h : n < 10) : digitCount n = 1 := by
  rw [digitCount, if_pos h]

theorem digitCount_of_not_lt (h : ¬ n < 10) : digitCount n = digitCount (n / 10) + 1 := by
  rw [digitCount, if_neg h]

theorem ofNat_of_lt (h : n < 10) : ofNat n = [lastDigit n] := by
  rw [ofNat, if_pos h]

theorem ofNat_of_not_lt (h : ¬ n < 10) : ofNat n = ofNat (n / 10) ++ [lastDigit n] := by
  rw [ofNat, if_neg h]

theorem lastDigit_toNat (n : Nat) : (lastDigit n).toNat = 48 + n % 10 := by
  have small : n % 10 < 10 := Nat.mod_lt _ (by decide)
  rw [lastDigit, UInt8.toNat_ofNat']
  exact Nat.mod_eq_of_lt (by omega)

theorem isDigit_iff {b : UInt8} : Bytes.isDigit b ↔ 48 ≤ b.toNat ∧ b.toNat ≤ 57 := by
  simp only [Bytes.isDigit, Bool.and_eq_true, decide_eq_true_eq, UInt8.le_iff_toNat_le]
  rfl

theorem length_ofNat (n : Nat) : (ofNat n).length = digitCount n := by
  induction n using ofNat.induct with
  | case1 n h => rw [ofNat_of_lt h, digitCount_of_lt h, List.length_singleton]
  | case2 n h ih =>
      rw [ofNat_of_not_lt h, digitCount_of_not_lt h, List.length_append, ih, List.length_singleton]

theorem isDigit_of_mem_ofNat {b : UInt8} (h : b ∈ ofNat n) : Bytes.isDigit b := by
  have isDigit_lastDigit (n : Nat) : Bytes.isDigit (lastDigit n) := by
    rw [isDigit_iff, lastDigit_toNat]
    omega
  induction n using ofNat.induct with
  | case1 n small =>
      rw [ofNat_of_lt small, List.mem_singleton] at h
      rw [h]
      exact isDigit_lastDigit n
  | case2 n small ih =>
      rw [ofNat_of_not_lt small, List.mem_append, List.mem_singleton] at h
      obtain h | rfl := h
      · exact ih h
      · exact isDigit_lastDigit n

theorem ofNat_ne_nil (n : Nat) : ofNat n ≠ [] := by
  rw [ofNat]
  split <;> simp

theorem value_concat (s : Bytes) (b : UInt8) : value (s ++ [b]) = value s * 10 + (b.toNat - 48) := by
  simp only [value, List.foldl_append, List.foldl_cons, List.foldl_nil]

/-- The digits of a number denote it. -/
theorem value_ofNat (n : Nat) : value (ofNat n) = n := by
  induction n using ofNat.induct with
  | case1 n h =>
      rw [ofNat_of_lt h, ← List.nil_append [lastDigit n], value_concat, lastDigit_toNat,
        show value [] = 0 from rfl]
      omega
  | case2 n h ih =>
      rw [ofNat_of_not_lt h, value_concat, ih, lastDigit_toNat]
      omega

theorem ofNat_injective : Function.Injective ofNat :=
  Function.LeftInverse.injective value_ofNat

/-- The digits of a number are those of its text. -/
theorem utf8_toString (n : Nat) : utf8 (toString n) = ofNat n := by
  have single : ∀ d < 10, String.utf8EncodeChar (Nat.digitChar d) = [lastDigit d] := by decide
  have last (n : Nat) : lastDigit (n % 10) = lastDigit n := by
    rw [lastDigit, lastDigit, Nat.mod_mod]
  rw [Nat.toString_eq_ofList_toDigits, utf8, String.toList_ofList]
  induction n using ofNat.induct with
  | case1 n h =>
      rw [ofNat_of_lt h, Nat.toDigits_of_lt_base h, List.flatMap_singleton, single n h]
  | case2 n h ih =>
      rw [ofNat_of_not_lt h, Nat.toDigits_of_base_le (by decide) (Nat.le_of_not_lt h),
        List.flatMap_append, ih, List.flatMap_singleton, single _ (Nat.mod_lt n (by decide)), last]

/-- The same for a number with a sign. -/
theorem utf8_toString_int (x : Int) : utf8 (toString x) = ofInt x := by
  cases x with
  | ofNat n =>
      have plain : ¬ Int.ofNat n < 0 := Int.not_lt.mpr (Int.natCast_nonneg n)
      rw [ofInt, if_neg plain]
      exact utf8_toString n
  | negSucc n =>
      have negative : Int.negSucc n < 0 := Int.negSucc_lt_zero n
      have text : utf8 ("-" ++ toString (n + 1)) = utf8 "-" ++ utf8 (toString (n + 1)) := by
        simp [utf8]
      rw [ofInt, if_pos negative, Int.natAbs_negSucc, ← utf8_toString]
      exact text

theorem digitCount_mono (h : m ≤ n) : digitCount m ≤ digitCount n := by
  induction n using digitCount.induct generalizing m with
  | case1 n small =>
      have small' : m < 10 := by omega
      rw [digitCount_of_lt small, digitCount_of_lt small']
  | case2 n large ih =>
      rw [digitCount_of_not_lt large]
      by_cases small : m < 10
      · rw [digitCount_of_lt small]
        omega
      · rw [digitCount_of_not_lt small]
        exact Nat.succ_le_succ (ih (by omega))

/-- The text of a number is as wide as it is said to be. -/
theorem length_ofInt (x : Int) : (ofInt x).length = width x := by
  rw [ofInt, width]
  split
  · rw [List.length_cons, length_ofNat]
  · rw [length_ofNat, Nat.add_zero]

theorem mem_ofInt {x : Int} {b : UInt8} (h : b ∈ ofInt x) : b = Bytes.dash ∨ Bytes.isDigit b := by
  rw [ofInt] at h
  split at h
  · obtain rfl | h := List.mem_cons.mp h
    · exact .inl rfl
    · exact .inr (isDigit_of_mem_ofNat h)
  · exact .inr (isDigit_of_mem_ofNat h)

/-- Writing a number backwards puts its digits where they belong and touches nothing else. -/
theorem putDigits_eq (floor n : Nat) (cells : Bytes) (room : floor + digitCount n ≤ cells.length) :
    putDigits floor (digitCount n) n cells =
      some (cells.take floor ++ ofNat n ++ cells.drop (floor + digitCount n)) := by
  induction n using digitCount.induct generalizing cells with
  | case1 n h =>
      rw [digitCount_of_lt h] at room ⊢
      rw [putDigits, if_pos h, ofNat_of_lt h, Nat.add_zero, List.set_eq_take_append_cons_drop,
        if_pos (by omega)]
      simp only [List.append_assoc, List.singleton_append]
  | case2 n h ih =>
      rw [digitCount_of_not_lt h] at room ⊢
      have inside : floor + digitCount (n / 10) < cells.length := by omega
      rw [putDigits, if_neg h, ih _ (by rw [List.length_set]; omega), ofNat_of_not_lt h,
        List.take_set_of_le (by omega), List.drop_set]
      simp only [Nat.lt_irrefl, if_false, Nat.sub_self]
      rw [List.drop_eq_getElem_cons inside, List.set_cons_zero]
      simp only [List.append_assoc, List.singleton_append, Nat.add_assoc]

/-- Writing a number to the start of cells that it fits into leaves the rest as it was. -/
theorem put_eq {cells : Bytes} {x : Int} (room : width x ≤ cells.length) :
    put cells x = .ok (width x, ofInt x ++ cells.drop (width x)) := by
  have fits : ¬ cells.length < width x := by omega
  simp only [put, if_neg fits]
  by_cases neg : x < 0
  · simp only [if_pos neg, width] at room ⊢
    rw [Nat.add_sub_cancel, putDigits_eq _ _ _ (by rw [List.length_set]; omega)]
    cases cells with
    | nil => simp at room
    | cons first rest =>
        simp [ofInt, neg, Nat.add_comm 1, List.drop_succ_cons]
  · simp only [if_neg neg, width, Nat.sub_zero, Nat.add_zero] at room ⊢
    rw [putDigits_eq _ _ _ (by omega)]
    simp [ofInt, neg]

end Postmortem.Decimal

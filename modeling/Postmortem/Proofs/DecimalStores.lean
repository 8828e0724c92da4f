import Postmortem.Proofs.Buffer

/-! # Writing numbers into cells

A number has one decimal text without needless zeros. It is written in place, from its last digit
backwards: how far back is decided by counting the digits beforehand, where to stop by what is left of
the number. The two agree, so that no store misses the cells of the number, and the cells hold its
text in the end. Any 64-bit number fits into the buffer that is meant for one.
-/

namespace Postmortem.Decimal

variable {n : Nat} {x : Int} {s digits cells : Bytes}

/-! ## The text of a number -/

/-- The decimal digits of a number, of which the first is zero only if it is the only one. -/
structure IsDigits (n : Nat) (digits : Bytes) : Prop where
  ne_nil : digits ≠ []
  isDigit : ∀ b ∈ digits, Bytes.isDigit b
  leading : digits.head? = some 48 → digits = [48]
  value : value digits = n

/-- The decimal text of a number: its digits, with a minus sign before them if it is negative. -/
def IsText (x : Int) (text : Bytes) : Prop :=
  ∃ digits, IsDigits x.natAbs digits ∧ text = if x < 0 then Bytes.dash :: digits else digits

theorem isDigits_ofNat (n : Nat) : IsDigits n (ofNat n) := by
  refine ⟨ofNat_ne_nil n, fun b member => isDigit_of_mem_ofNat member, ?_, value_ofNat n⟩
  induction n using ofNat.induct with
  | case1 n small =>
      rw [ofNat_of_lt small]
      intro first
      exact congrArg (fun b => [b]) (Option.some.inj first)
  | case2 n large ih =>
      rw [ofNat_of_not_lt large, List.head?_append_of_ne_nil _ (ofNat_ne_nil _)]
      intro first
      -- The quotient would be zero, but it is not when there are two digits or more.
      have zero := value_ofNat (n / 10)
      rw [ih first, show value [48] = 0 from rfl] at zero
      omega

theorem IsDigits.last_eq {last : UInt8} (h : IsDigits n (s ++ [last])) : last = lastDigit n := by
  obtain ⟨low, high⟩ := isDigit_iff.mp (h.isDigit last (by simp))
  have value := h.value
  rw [value_concat] at value
  apply UInt8.toNat_inj.mp
  rw [lastDigit_toNat]
  omega

theorem IsDigits.front {last : UInt8} (h : IsDigits n (s ++ [last])) (more : s ≠ []) :
    IsDigits (n / 10) s := by
  refine ⟨more, fun b member => h.isDigit b (List.mem_append_left _ member), ?_, ?_⟩
  · intro first
    have whole := h.leading (by rwa [List.head?_append_of_ne_nil _ more])
    exact absurd (List.append_eq_singleton_iff.mp whole) (by simp [more])
  · obtain ⟨low, high⟩ := isDigit_iff.mp (h.isDigit last (by simp))
    have value := h.value
    rw [value_concat] at value
    omega

theorem IsDigits.eq_ofNat (h : IsDigits n digits) : digits = ofNat n := by
  induction digits using List.reverseRecOn generalizing n with
  | nil => exact absurd rfl h.ne_nil
  | append_singleton s last ih =>
      have last_eq := h.last_eq
      by_cases single : s = []
      · subst single
        obtain ⟨low, high⟩ := isDigit_iff.mp (h.isDigit last (by simp))
        have value := h.value
        have small : n < 10 := by
          rw [value_concat, show Decimal.value [] = 0 from rfl] at value
          omega
        rw [ofNat_of_lt small, ← last_eq, List.nil_append]
      · have same : s = ofNat (n / 10) := ih (h.front single)
        have large : ¬ n < 10 := by
          intro small
          have zero : s = [48] := by
            rw [same, Nat.div_eq_of_lt small, ofNat_of_lt (by decide)]
            rfl
          have whole := h.leading (by rw [zero]; rfl)
          rw [zero] at whole
          simp at whole
        rw [ofNat_of_not_lt large, ← last_eq, ← same]

theorem isText_iff : IsText x s ↔ s = ofInt x := by
  constructor
  · rintro ⟨digits, h, rfl⟩
    rw [h.eq_ofNat, ofInt]
  · rintro rfl
    exact ⟨ofNat x.natAbs, isDigits_ofNat x.natAbs, rfl⟩

/-! ## The stores -/

/-- A byte put into a cell. Its place is counted from the first cell, and may turn out to be none. -/
structure Store where
  place : Int
  byte : UInt8
  deriving Repr, DecidableEq

def Store.perform (store : Store) (cells : Bytes) : Option Bytes :=
  if 0 ≤ store.place ∧ store.place < cells.length then
    some (cells.set store.place.toNat store.byte)
  else none

/-- The cells after stores one after another, unless one of them misses the cells. -/
def performAll (stores : List Store) (cells : Bytes) : Option Bytes :=
  stores.foldlM (fun cells store => store.perform cells) cells

/-- The stores of the digits of a number, the last digit first, and that one just before `behind`.
    What is left of the number decides where they end. -/
def digitStores (behind : Int) (n : Nat) : List Store :=
  ⟨behind - 1, lastDigit n⟩ :: if n < 10 then [] else digitStores (behind - 1) (n / 10)

/-- The stores of a number into `room` cells. -/
def stores (room : Nat) (x : Int) : List Store :=
  if room < width x then []
  else (if x < 0 then [⟨0, Bytes.dash⟩] else []) ++ digitStores (width x) x.natAbs

theorem performAll_cons {place : Nat} (inside : place < cells.length) (byte : UInt8)
    (rest : List Store) :
    performAll (⟨place, byte⟩ :: rest) cells = performAll rest (cells.set place byte) := by
  have performed : Store.perform ⟨place, byte⟩ cells = some (cells.set place byte) :=
    if_pos ⟨Int.natCast_nonneg place, Int.ofNat_lt.mpr inside⟩
  simp only [performAll, List.foldlM_cons, performed, Option.bind_eq_bind, Option.bind_some]

theorem digitStores_of_lt (small : n < 10) (k : Nat) :
    digitStores (k + 1 : Nat) n = [⟨k, lastDigit n⟩] := by
  have place : ((k + 1 : Nat) : Int) - 1 = k := by omega
  rw [digitStores, if_pos small, place]

theorem digitStores_of_not_lt (large : ¬ n < 10) (k : Nat) :
    digitStores (k + 1 : Nat) n = ⟨k, lastDigit n⟩ :: digitStores k (n / 10) := by
  have place : ((k + 1 : Nat) : Int) - 1 = k := by omega
  rw [digitStores, if_neg large, place]

theorem performAll_digitStores (floor n : Nat) (cells : Bytes)
    (room : floor + digitCount n ≤ cells.length) :
    performAll (digitStores (floor + digitCount n : Nat) n) cells =
      putDigits floor (digitCount n) n cells := by
  induction n using digitCount.induct generalizing cells with
  | case1 n small =>
      rw [digitCount_of_lt small] at room ⊢
      rw [digitStores_of_lt small, performAll_cons room, putDigits, if_pos small]
      rfl
  | case2 n large ih =>
      rw [digitCount_of_not_lt large, ← Nat.add_assoc] at room
      rw [digitCount_of_not_lt large, ← Nat.add_assoc, digitStores_of_not_lt large,
        performAll_cons room, putDigits, if_neg large]
      apply ih
      rw [List.length_set]
      exact Nat.le_of_succ_le room

theorem mem_digitStores {floor : Nat} {store : Store}
    (member : store ∈ digitStores (floor + digitCount n : Nat) n) :
    (floor : Int) ≤ store.place ∧ store.place < (floor + digitCount n : Nat) := by
  induction n using digitCount.induct with
  | case1 n small =>
      rw [digitCount_of_lt small] at member ⊢
      rw [digitStores_of_lt small, List.mem_singleton] at member
      subst member
      exact ⟨Int.le_refl _, Int.ofNat_lt.mpr (Nat.lt_succ_self floor)⟩
  | case2 n large ih =>
      rw [digitCount_of_not_lt large, ← Nat.add_assoc] at member ⊢
      rw [digitStores_of_not_lt large, List.mem_cons] at member
      obtain rfl | later := member
      · simp only
        omega
      · obtain ⟨above, below⟩ := ih later
        omega

/-- How many cells a sign takes. -/
def signWidth (x : Int) : Nat := if x < 0 then 1 else 0

theorem width_eq (x : Int) : width x = signWidth x + digitCount x.natAbs := Nat.add_comm _ _

def signed (cells : Bytes) (x : Int) : Bytes := if x < 0 then cells.set 0 Bytes.dash else cells

theorem length_signed : (signed cells x).length = cells.length := by
  unfold signed
  split
  · exact List.length_set
  · rfl

theorem putDigits_signed (room : width x ≤ cells.length) :
    putDigits (signWidth x) (width x - signWidth x) x.natAbs (signed cells x) =
      some (ofInt x ++ cells.drop (width x)) := by
  have fits : ¬ cells.length < width x := Nat.not_lt.mpr room
  have whole := put_eq room
  unfold put at whole
  cases done : putDigits (signWidth x) (width x - signWidth x) x.natAbs (signed cells x) with
  | none =>
      unfold signWidth signed at done
      simp only [if_neg fits, done, reduceCtorEq] at whole
  | some written =>
      unfold signWidth signed at done
      simp only [if_neg fits, done, Except.ok.injEq, Prod.mk.injEq, true_and] at whole
      rw [whole]

theorem performAll_sign (room : width x ≤ cells.length) (rest : List Store) :
    performAll ((if x < 0 then [⟨0, Bytes.dash⟩] else []) ++ rest) cells =
      performAll rest (signed cells x) := by
  unfold signed
  split
  · next negative =>
    have sign : signWidth x = 1 := if_pos negative
    have first : 0 < cells.length := by
      rw [width_eq] at room
      omega
    exact performAll_cons first Bytes.dash rest
  · rfl

theorem performAll_stores (room : width x ≤ cells.length) :
    performAll (stores cells.length x) cells = some (ofInt x ++ cells.drop (width x)) := by
  have fits : signWidth x + digitCount x.natAbs ≤ (signed cells x).length := by
    rwa [length_signed, ← width_eq]
  have written := performAll_digitStores _ _ _ fits
  rw [← putDigits_signed room, width_eq, Nat.add_sub_cancel_left, ← written, ← width_eq, stores,
    if_neg (Nat.not_lt.mpr room), performAll_sign room]

theorem width_lt_of_int64 (x : Int64) : width x.toInt < numericBufferSize := by
  have low := x.le_toInt
  have high := x.toInt_lt
  have most : digitCount x.toInt.natAbs ≤ digitCount (2 ^ 63) := digitCount_mono (by omega)
  have nineteen : digitCount (2 ^ 63) = 19 := by decide +kernel
  have sign : signWidth x.toInt ≤ 1 := by
    unfold signWidth
    split <;> omega
  rw [width_eq, numericBufferSize]
  omega

/-- A 64-bit number has one decimal text. Writing the number into cells puts this text at their start
    and leaves the others as they were, or does nothing at all if there are not enough. It is done by
    stores of which none misses the cells, and those of the digits stay behind the sign. A buffer
    that is meant for a number always takes one. -/
theorem put_exact (x : Int64) (cells : Bytes) :
    ∃ text, (∀ s, IsText x.toInt s ↔ s = text) ∧ text.length = width x.toInt ∧
      (if width x.toInt ≤ cells.length then
        put cells x.toInt = .ok (width x.toInt, text ++ cells.drop (width x.toInt)) ∧
          performAll (stores cells.length x.toInt) cells =
            some (text ++ cells.drop (width x.toInt))
      else put cells x.toInt = .error ⟨⟩ ∧ stores cells.length x.toInt = []) ∧
      (∀ store ∈ digitStores (width x.toInt) x.toInt.natAbs,
        (if x.toInt < 0 then 1 else 0) ≤ store.place ∧ store.place < width x.toInt) ∧
      (∃ b, (FixedBuffer.empty numericBufferSize).pushNumber x.toInt = .ok b ∧ b.content = text) ∧
      (numberText x.toInt).bytes = text := by
  have short := width_lt_of_int64 x
  refine ⟨ofInt x.toInt, fun s => isText_iff, length_ofInt _, ?_, ?_, ?_, ?_⟩
  · split
    · next room => exact ⟨put_eq room, performAll_stores room⟩
    · next tooFew =>
      have less : cells.length < width x.toInt := Nat.lt_of_not_le tooFew
      exact ⟨if_pos less, if_pos less⟩
  · intro store member
    rw [width_eq] at member ⊢
    obtain ⟨behind, inside⟩ := mem_digitStores member
    refine ⟨?_, inside⟩
    unfold signWidth at behind
    split at behind
    all_goals simpa [*] using behind
  · have built := (FixedBuffer.empty_holds (show 0 < numericBufferSize by decide)).pushNumber x.toInt
    rw [List.nil_append, FixedBuffer.Builds, length_ofInt, if_pos short] at built
    obtain ⟨b, pushed, holds⟩ := built
    exact ⟨b, pushed, holds.content⟩
  · rw [bytes_numberText, if_pos short]

/-- The least number, which has no positive counterpart, with a cell to spare. -/
theorem put_minimum :
    put (List.replicate 21 7) Int64.minValue.toInt =
      .ok (20, utf8 "-9223372036854775808" ++ [7]) := by
  obtain ⟨text, unique, -, written, -⟩ := put_exact Int64.minValue (List.replicate 21 7)
  have width : width Int64.minValue.toInt = 20 := by decide +kernel
  have spelled : IsText Int64.minValue.toInt (utf8 "-9223372036854775808") :=
    ⟨utf8 "9223372036854775808", ⟨by decide, by decide +kernel, by decide, by decide +kernel⟩,
      by decide⟩
  rw [width, if_pos (by decide), ← (unique _).mp spelled] at written
  exact written.1

end Postmortem.Decimal

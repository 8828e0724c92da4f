import Mathlib.Data.List.TakeWhile
import Postmortem.CString

/-! # Reading C strings where they lie

The NUL behind a string is the first, so the string can be told from what lies in memory. Nothing
behind the NUL is looked at: reading succeeds even if the allocation ends there, and gives the same
whatever comes after. So two strings are compared, and a string is measured, by what they hold
alone.
-/

namespace Postmortem.CString

theorem bytes_injective : Function.Injective CString.bytes := by
  intro a b same
  cases a
  cases b
  cases same
  rfl

private theorem plain (a : CString) : ∀ b ∈ a.bytes, decide (b ≠ 0) = true := by
  intro b member
  exact decide_eq_true fun zero => a.nul_notMem (zero ▸ member)

theorem untilNul_bytes (a : CString) : untilNul a.bytes = a :=
  bytes_injective (List.takeWhile_eq_self_iff.mpr a.plain)

theorem untilNul_memory (a : CString) (after : Bytes) : untilNul (a.memory after) = a := by
  apply bytes_injective
  show (a.bytes ++ 0 :: after).takeWhile _ = a.bytes
  rw [List.takeWhile_append_of_pos a.plain]
  simp

end Postmortem.CString

namespace Postmortem.Memory

variable {s t : Bytes}

private theorem agree_ended (n : Nat) (after more : Bytes) (hs : 0 ∉ s) (ht : 0 ∉ t) :
    agree n (s ++ 0 :: after) (t ++ 0 :: more) = .ok (decide (s.take n = t.take n)) := by
  induction n generalizing s t with
  | zero => simp [agree]
  | succ n ih =>
      cases s with
      | nil =>
          cases t with
          | nil => simp [agree]
          | cons y t =>
              have ne : y ≠ 0 := fun zero => ht (by simp [zero])
              simp [agree, ne, ne.symm]
      | cons x s =>
          have ne : x ≠ 0 := fun zero => hs (by simp [zero])
          cases t with
          | nil => simp [agree, ne]
          | cons y t =>
              have rest := ih (fun member => hs (List.mem_cons_of_mem x member))
                (fun member => ht (List.mem_cons_of_mem y member))
              by_cases same : x = y
              · subst same
                simp [agree, ne, rest]
              · simp [agree, ne, same]

/-- Two strings are compared as far as they are asked to be, and no further than to their ends. -/
theorem agree_memory (n : Nat) (a b : CString) (after more : Bytes) :
    agree n (a.memory after) (b.memory more) = .ok (decide (a.bytes.take n = b.bytes.take n)) :=
  agree_ended n after more a.nul_notMem b.nul_notMem

theorem string_memory (a : CString) (after : Bytes) : string (a.memory after) = .ok a.bytes := by
  have ended (s : Bytes) (nul : 0 ∉ s) : string (s ++ 0 :: after) = .ok s := by
    induction s with
    | nil => simp [string]
    | cons x s ih =>
        have ne : x ≠ 0 := fun zero => nul (by simp [zero])
        have rest := ih fun member => nul (List.mem_cons_of_mem x member)
        simp [string, ne, rest, Except.map]
  exact ended a.bytes a.nul_notMem

/-- The length of a string is found by reading the string. -/
theorem stringLength_eq (m : Memory) : stringLength m = (string m).map List.length := by
  induction m with
  | nil => rfl
  | cons x rest ih =>
      rw [stringLength, string]
      split
      · rfl
      · rw [ih]
        cases string rest with
        | error e => rfl
        | ok s => rfl

/-! ## Comparing -/

/-- Nothing that lies in memory is larger than the address space. -/
def Addressable (m : Memory) : Prop := m.length ≤ UInt64.size

theorem Addressable.length_le {a : CString} {after : Bytes} (h : Addressable (a.memory after)) :
    a.bytes.length ≤ maxCount := by
  have whole : a.bytes.length + (after.length + 1) ≤ UInt64.size := by
    simpa only [Addressable, CString.memory, List.length_append, List.length_cons] using h
  rw [maxCount]
  omega

theorem agree?_of_null {p q : Option Memory} (null : p = none ∨ q = none) (n : Nat) :
    agree? n p q = .ok (decide (p = none ∧ q = none)) := by
  cases p with
  | none =>
      cases q with
      | none => rfl
      | some m => rfl
  | some m =>
      cases q with
      | none => rfl
      | some m' => simp at null

/-- Two strings in memory are compared by what they hold: up to a number of bytes, or as a whole;
    and the length of a string is that of what it holds. Null is equal to null and to nothing else,
    and its length is zero. None of this reads behind the NUL of a string: it succeeds whatever lies
    there, and even if the allocation ends with the NUL, which a read behind it would not. -/
theorem comparison_exact (a b : CString) (after more : Bytes)
    (here : Addressable (a.memory after)) (there : Addressable (b.memory more)) :
    (∀ n, agree? n (some (a.memory after)) (some (b.memory more)) =
      .ok (decide (a.bytes.take n = b.bytes.take n))) ∧
    equal? (some (a.memory after)) (some (b.memory more)) = .ok (decide (a.bytes = b.bytes)) ∧
    length? (some (a.memory after)) = .ok a.bytes.length ∧
    length? none = .ok 0 ∧
    ∀ p q : Option Memory, p = none ∨ q = none →
      (∀ n, agree? n p q = .ok (decide (p = none ∧ q = none))) ∧
      equal? p q = .ok (decide (p = none ∧ q = none)) := by
  refine ⟨fun n => agree_memory n a b after more, ?_, ?_, rfl, ?_⟩
  · have compared := agree_memory maxCount a b after more
    -- No string is longer than the largest count, so a comparison up to there goes to its end.
    rw [List.take_of_length_le here.length_le, List.take_of_length_le there.length_le] at compared
    exact compared
  · rw [length?, stringLength_eq, string_memory]
    rfl
  · intro p q null
    exact ⟨agree?_of_null null, agree?_of_null null maxCount⟩

/-- A string and a longer one that begins with it, both at the end of their allocations. -/
theorem prefix_compared :
    let a : CString := .text "ab"
    let b : CString := .text "abc"
    Addressable (a.memory []) ∧ Addressable (b.memory []) ∧
      agree? 2 (some (a.memory [])) (some (b.memory [])) = .ok true ∧
      agree? 9 (some (a.memory [])) (some (b.memory [])) = .ok false ∧
      equal? (some (a.memory [])) (some (b.memory [])) = .ok false := by
  intro a b
  have here : Addressable (a.memory []) := by
    unfold Addressable
    decide
  have there : Addressable (b.memory []) := by
    unfold Addressable
    decide
  obtain ⟨agrees, equal, -⟩ := comparison_exact a b [] [] here there
  exact ⟨here, there, agrees 2, agrees 9, equal⟩

end Postmortem.Memory

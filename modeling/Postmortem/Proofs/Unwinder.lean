import Postmortem.Unwinder

/-! # How much of a deep stack is captured

A walk along the tables passes over the tracer's frames and those that are to be left out without
keeping them, and so it fills all places that the stack has frames for. The C library puts the
frames that are to be left out into the same places as the others, so that many frames fewer are
found.
-/

namespace Postmortem.Unwinder

variable {slots skip : Nat} {stack : Stack}

/-! ## Along the tables -/

/-- Beyond the walking function, frames are passed over as long as there are any to leave out, and
    kept after that until the places are full. -/
theorem walkFrom_beyond (toSkip : Nat) {kept : List Address} (fits : kept.length ≤ slots) :
    walkFrom slots skip ⟨false, toSkip, kept⟩ stack =
      kept ++ ((stack.drop toSkip).take (slots - kept.length)).map (·.address) := by
  induction stack generalizing toSkip kept with
  | nil => simp [walkFrom]
  | cons frame rest ih =>
      unfold walkFrom
      cases toSkip with
      | succ toSkip => simpa using ih toSkip fits
      | zero =>
          by_cases room : kept.length < slots
          · have more : (kept ++ [frame.address]).length ≤ slots := by
              rw [List.length_append]
              exact room
            have places : slots - kept.length = slots - (kept ++ [frame.address]).length + 1 := by
              rw [List.length_append, List.length_singleton]
              omega
            have later := ih 0 more
            simp only [Bool.false_and, Bool.false_eq_true, if_false, Nat.lt_irrefl, if_pos room,
              later, places, List.drop_zero, List.take_succ_cons, List.map_cons, List.append_assoc,
              List.singleton_append]
          · have full : slots - kept.length = 0 := Nat.sub_eq_zero_of_le (Nat.le_of_not_lt room)
            simp [room, full]

/-- Where the walking function is met, everything before it is forgotten. -/
theorem walkFrom_traced (own : List Address) (toSkip : Nat) (kept : List Address) :
    walkFrom slots skip ⟨true, toSkip, kept⟩ (traced own stack) =
      walkFrom slots skip ⟨false, skip, []⟩ stack := by
  induction own generalizing toSkip kept with
  | nil =>
      show walkFrom slots skip _ (⟨.walk, 2⟩ :: stack) = _
      rw [walkFrom, if_pos (by simp)]
  | cons address own ih =>
      have tracer : traced (address :: own) stack = ⟨.tracer, address⟩ :: traced own stack := rfl
      rw [tracer, walkFrom, if_neg (by simp)]
      split
      · exact ih _ _
      · split
        · exact ih _ _
        · rw [if_pos rfl]
          exact ih _ _

/-- A walk along the tables finds the frames next to those that are left out. -/
theorem walk_unwindTables (own : List Address) (slots skip : Nat) (stack : Stack) :
    walk .unwindTables slots skip stack own = ((stack.drop skip).take slots).map (·.address) := by
  rw [walk, walkFrom_traced, walkFrom_beyond skip (Nat.zero_le slots)]
  rfl

theorem length_unwindTables (own : List Address) (deep : skip + slots ≤ stack.length) :
    (walk .unwindTables slots skip stack own).length = slots := by
  rw [walk_unwindTables, List.length_map, List.length_take, List.length_drop]
  omega

/-! ## By the C library -/

theorem saturatingAdd_le (a b : Nat) : saturatingAdd a b ≤ a + b := Nat.min_le_left ..

/-- A sum that stops at the largest number is still more than the C library can have entries for. -/
theorem sub_saturatingAdd (slots skip a b : Nat) :
    min slots maxEntries - (saturatingAdd skip a + b) = min slots maxEntries - (skip + a + b) := by
  have few : maxEntries ≤ UInt64.size - 1 := by decide
  unfold saturatingAdd
  generalize UInt64.size - 1 = largest at few ⊢
  omega

/-- The frame of the walking function takes up a place like those that are left out. -/
theorem length_execinfo (own : List Address) (deep : slots ≤ stack.length) :
    (walk .execinfo slots skip stack own).length = min slots maxEntries - (skip + 1) := by
  have entries : min (min slots maxEntries) (stack.length + 1) = min slots maxEntries := by omega
  rw [walk, backtrace, List.length_drop, List.length_take, List.length_cons, List.length_map,
    entries]
  exact sub_saturatingAdd slots skip 1 0

/-! ## Through the functions that capture -/

theorem length_captureInto_unwindTables (own : List Address) (deep : skip + slots ≤ stack.length) :
    (captureInto .unwindTables slots skip stack own).length = slots := by
  rw [captureInto]
  split
  · next none => exact none.symm
  · apply length_unwindTables
    have passed := saturatingAdd_le skip 1
    rw [List.length_cons]
    omega

theorem length_captureInto_execinfo (own : List Address) (deep : slots ≤ stack.length) :
    (captureInto .execinfo slots skip stack own).length = min slots maxEntries - (skip + 2) := by
  rw [captureInto]
  split
  · next none => rw [none, Nat.zero_min, Nat.zero_sub, List.length_nil]
  · rw [length_execinfo own (Nat.le_succ_of_le deep)]
    exact sub_saturatingAdd slots skip 1 1

/-- Of a stack with more frames than are to be left out and to be found, a walk along the tables
    fills all places, whichever function asks for it. The C library has a limited number of entries,
    and of these it leaves as many places empty as frames are left out, those of the functions on
    the way to it included. So nothing is found if capturing is not supported, or if it is the C
    library that finds the frames and no entry is left for them; and only then. -/
theorem deep_stack_captured (own : List Address) (stack : Stack) (slots skip : Nat)
    (pos : 0 < slots) (deep : skip + slots < stack.length) :
    ((walk .unwindTables slots skip stack own).length = slots ∧
      (captureInto .unwindTables slots skip stack own).length = slots ∧
      (capture .unwindTables slots skip stack own).length = slots) ∧
    ((walk .execinfo slots skip stack own).length = min slots maxEntries - (skip + 1) ∧
      (captureInto .execinfo slots skip stack own).length = min slots maxEntries - (skip + 2) ∧
      (capture .execinfo slots skip stack own).length = min slots maxEntries - (skip + 3)) ∧
    ∀ kind, capture kind slots skip stack own = [] ↔
      kind = .unsupported ∨ kind = .execinfo ∧ min slots maxEntries ≤ skip + 3 := by
  have within : slots ≤ stack.length := by omega
  have passed := saturatingAdd_le skip 1
  have tables : (capture .unwindTables slots skip stack own).length = slots := by
    apply length_captureInto_unwindTables
    rw [List.length_cons]
    omega
  have library : (capture .execinfo slots skip stack own).length =
      min slots maxEntries - (skip + 3) := by
    rw [capture, length_captureInto_execinfo own (Nat.le_succ_of_le within)]
    exact sub_saturatingAdd slots skip 1 2
  refine ⟨⟨length_unwindTables own (Nat.le_of_lt deep),
    length_captureInto_unwindTables own (Nat.le_of_lt deep), tables⟩,
    ⟨length_execinfo own within, length_captureInto_execinfo own within, library⟩, ?_⟩
  intro kind
  rw [← List.length_eq_zero_iff]
  cases kind with
  | unwindTables =>
      rw [tables]
      simp [Nat.pos_iff_ne_zero.mp pos]
  | execinfo =>
      rw [library, Nat.sub_eq_zero_iff_le]
      simp
  | unsupported =>
      have nothing : capture .unsupported slots skip stack own = [] := by
        simp only [capture, captureInto, walk, ite_self]
      simp [nothing]

/-- A stack of equal frames. -/
def evenStack (depth : Nat) : Stack := List.replicate depth ⟨.caller, 5⟩

/-- With eight places and one frame left out, the C library finds four frames fewer. -/
theorem eight_places_captured :
    0 < 8 ∧ 1 + 8 < (evenStack 10).length ∧
      (capture .unwindTables 8 1 (evenStack 10) [1, 1]).length = 8 ∧
      (capture .execinfo 8 1 (evenStack 10) [1, 1]).length = 4 := by
  have deep : 1 + 8 < (evenStack 10).length := by decide
  obtain ⟨⟨-, -, tables⟩, ⟨-, -, library⟩, -⟩ :=
    deep_stack_captured [1, 1] (evenStack 10) 8 1 (by decide) deep
  exact ⟨by decide, deep, tables, library⟩

/-- Of a stack of ten frames, the C library finds none with two places to fill, although it is
    supported; a walk along the tables finds two. -/
theorem two_places_left_empty :
    0 + 2 < (evenStack 10).length ∧ (capture .execinfo 2 0 (evenStack 10)).length ≠ 2 ∧
      capture .execinfo 2 0 (evenStack 10) = [] ∧
      (capture .unwindTables 2 0 (evenStack 10)).length = 2 := by
  decide

end Postmortem.Unwinder

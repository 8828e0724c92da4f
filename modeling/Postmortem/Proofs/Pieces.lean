import Mathlib
import Postmortem.Bytes

/-! # Cutting a byte string into pieces

Where a byte string is put together from parts, its pieces come from those of the parts: the pieces
that a mark ends stay as they are, and only the last one, which nothing ends, is continued.
-/

namespace Postmortem.Bytes

variable {mark b : UInt8} {s t piece : Bytes}

/-- The pieces that a mark ends. -/
def ended (mark : UInt8) (s : Bytes) : List Bytes := (pieces mark s).dropLast

/-- The piece after the last mark. -/
def unended (mark : UInt8) (s : Bytes) : Bytes := (pieces mark s).getLast?.getD []

@[simp] theorem pieces_nil : pieces mark [] = [[]] := rfl

@[simp] theorem pieces_mark_cons : pieces mark (mark :: s) = [] :: pieces mark s := by
  simp only [pieces, if_pos]

theorem pieces_ne_nil (mark : UInt8) (s : Bytes) : pieces mark s ≠ [] := by
  cases s with
  | nil => simp
  | cons b s =>
      simp only [pieces]
      split
      · simp
      · split <;> simp

theorem pieces_cons_of_ne (h : b ≠ mark) :
    pieces mark (b :: s) = (pieces mark s).modifyHead (b :: ·) := by
  simp only [pieces, if_neg h]
  cases found : pieces mark s with
  | nil => exact absurd found (pieces_ne_nil mark s)
  | cons piece more => rfl

theorem pieces_eq (mark : UInt8) (s : Bytes) : pieces mark s = ended mark s ++ [unended mark s] := by
  have last := List.getLast?_eq_some_getLast (pieces_ne_nil mark s)
  simp only [ended, unended, last, Option.getD_some, List.dropLast_append_getLast]

@[simp] theorem ended_nil : ended mark [] = [] := rfl

@[simp] theorem unended_nil : unended mark [] = [] := rfl

private theorem ended_unended_of_eq (front : List Bytes) {last : Bytes}
    (h : pieces mark s = front ++ [last]) :
    ended mark s = front ∧ unended mark s = last := by
  simp only [ended, unended, h, List.dropLast_concat, List.getLast?_concat, Option.getD_some,
    and_self]

@[simp] theorem ended_mark_cons : ended mark (mark :: s) = [] :: ended mark s :=
  (ended_unended_of_eq ([] :: ended mark s)
    (by rw [pieces_mark_cons, pieces_eq, List.cons_append])).1

@[simp] theorem unended_mark_cons : unended mark (mark :: s) = unended mark s :=
  (ended_unended_of_eq ([] :: ended mark s)
    (by rw [pieces_mark_cons, pieces_eq, List.cons_append])).2

/-- A byte other than the mark goes to the first piece, whether that is ended or not. -/
private theorem cons_cases (h : b ≠ mark) :
    (ended mark s = [] ∧ ended mark (b :: s) = [] ∧ unended mark (b :: s) = b :: unended mark s) ∨
    ∃ piece more, ended mark s = piece :: more ∧ ended mark (b :: s) = (b :: piece) :: more ∧
      unended mark (b :: s) = unended mark s := by
  have cut := pieces_cons_of_ne (s := s) h
  rw [pieces_eq mark s] at cut
  cases front : ended mark s with
  | nil =>
      rw [front] at cut
      exact .inl ⟨rfl, ended_unended_of_eq [] cut⟩
  | cons piece more =>
      rw [front] at cut
      exact .inr ⟨piece, more, rfl, ended_unended_of_eq ((b :: piece) :: more) cut⟩

/-- A string put together from two is cut like the first, whose last piece the second continues. -/
theorem pieces_append (s t : Bytes) :
    pieces mark (s ++ t) = ended mark s ++ pieces mark (unended mark s ++ t) := by
  induction s with
  | nil => rfl
  | cons b s ih =>
      by_cases h : b = mark
      · subst h
        simp only [List.cons_append, pieces_mark_cons, ended_mark_cons, unended_mark_cons, ih]
      · rw [List.cons_append, pieces_cons_of_ne h, ih]
        obtain ⟨before, after, last⟩ | ⟨piece, more, before, after, last⟩ := cons_cases (s := s) h
        · rw [before, after, last, List.cons_append, pieces_cons_of_ne h]
          rfl
        · rw [before, after, last]
          rfl

theorem ended_append (s t : Bytes) :
    ended mark (s ++ t) = ended mark s ++ ended mark (unended mark s ++ t) := by
  have cut : pieces mark (s ++ t) = _ := pieces_append s t
  rw [pieces_eq mark (unended mark s ++ t), ← List.append_assoc] at cut
  exact (ended_unended_of_eq _ cut).1

theorem unended_append (s t : Bytes) :
    unended mark (s ++ t) = unended mark (unended mark s ++ t) := by
  have cut : pieces mark (s ++ t) = _ := pieces_append s t
  rw [pieces_eq mark (unended mark s ++ t), ← List.append_assoc] at cut
  exact (ended_unended_of_eq _ cut).2

theorem notMem_of_mem_pieces (h : piece ∈ pieces mark s) : mark ∉ piece := by
  induction s generalizing piece with
  | nil => simp_all
  | cons b s ih =>
      by_cases same : b = mark
      · subst same
        rw [pieces_mark_cons, List.mem_cons] at h
        obtain rfl | h := h
        · simp
        · exact ih h
      · rw [pieces_cons_of_ne same] at h
        cases found : pieces mark s with
        | nil => exact absurd found (pieces_ne_nil mark s)
        | cons first more =>
            rw [found, List.modifyHead_cons, List.mem_cons] at h
            rw [found] at ih
            obtain rfl | h := h
            · simp only [List.mem_cons, not_or]
              exact ⟨Ne.symm same, ih List.mem_cons_self⟩
            · exact ih (List.mem_cons_of_mem _ h)

theorem notMem_unended : mark ∉ unended mark s :=
  notMem_of_mem_pieces (by rw [pieces_eq]; exact List.mem_concat_self)

/-- A string without the mark is a single piece. -/
theorem pieces_of_notMem (h : mark ∉ s) : pieces mark s = [s] := by
  induction s with
  | nil => rfl
  | cons b s ih =>
      simp only [List.mem_cons, not_or] at h
      rw [pieces_cons_of_ne (Ne.symm h.1), ih h.2]
      rfl

@[simp] theorem ended_of_notMem (h : mark ∉ s) : ended mark s = [] :=
  (ended_unended_of_eq [] (pieces_of_notMem h)).1

@[simp] theorem unended_of_notMem (h : mark ∉ s) : unended mark s = s :=
  (ended_unended_of_eq [] (pieces_of_notMem h)).2

private theorem notMem_unended_append (h : mark ∉ t) : mark ∉ unended mark s ++ t := by
  simp only [List.mem_append, not_or]
  exact ⟨notMem_unended, h⟩

/-- A string without the mark continues the last piece of what stands before it. -/
theorem unended_append_right (h : mark ∉ t) : unended mark (s ++ t) = unended mark s ++ t := by
  rw [unended_append, unended_of_notMem (notMem_unended_append h)]

theorem ended_append_right (h : mark ∉ t) : ended mark (s ++ t) = ended mark s := by
  rw [ended_append, ended_of_notMem (notMem_unended_append h), List.append_nil]

/-- A string without the mark goes to the first piece of what follows it. -/
theorem pieces_append_of_notMem (h : mark ∉ s) :
    pieces mark (s ++ t) = (pieces mark t).modifyHead (s ++ ·) := by
  induction s with
  | nil => simp [List.modifyHead_id, ← Function.id_def]
  | cons b s ih =>
      simp only [List.mem_cons, not_or] at h
      rw [List.cons_append, pieces_cons_of_ne (Ne.symm h.1), ih h.2, List.modifyHead_modifyHead]
      rfl

/-- A mark ends the piece before it. -/
theorem pieces_append_mark (h : mark ∉ s) :
    pieces mark (s ++ mark :: t) = s :: pieces mark t := by
  rw [pieces_append_of_notMem h, pieces_mark_cons, List.modifyHead_cons, List.append_nil]

theorem ended_append_mark (h : mark ∉ s) : ended mark (s ++ mark :: t) = s :: ended mark t :=
  (ended_unended_of_eq (s :: ended mark t)
    (by rw [pieces_append_mark h, pieces_eq, List.cons_append])).1

theorem unended_append_mark (h : mark ∉ s) : unended mark (s ++ mark :: t) = unended mark t :=
  (ended_unended_of_eq (s :: ended mark t)
    (by rw [pieces_append_mark h, pieces_eq, List.cons_append])).2

/-- A mark at the end ends the last piece. -/
theorem ended_concat (s : Bytes) : ended mark (s ++ [mark]) = pieces mark s := by
  rw [ended_append, ended_append_mark notMem_unended, ended_nil, pieces_eq]

theorem unended_concat (s : Bytes) : unended mark (s ++ [mark]) = [] := by
  rw [unended_append, unended_append_mark notMem_unended, unended_nil]

theorem ended_append_of_notMem (h : mark ∉ s) :
    ended mark (s ++ t) = (ended mark t).modifyHead (s ++ ·) := by
  rw [ended, pieces_append_of_notMem h, pieces_eq]
  cases ended mark t with
  | nil => rfl
  | cons piece more =>
      rw [List.cons_append, List.modifyHead_cons, ← List.cons_append, List.dropLast_concat]
      rfl

/-- An ended piece is shorter than the string, which has the mark besides. -/
theorem length_lt_of_mem_ended (h : piece ∈ ended mark s) : piece.length < s.length := by
  induction s generalizing piece with
  | nil => simp at h
  | cons b s ih =>
      by_cases same : b = mark
      · subst same
        rw [ended_mark_cons, List.mem_cons] at h
        obtain rfl | h := h
        · simp
        · exact Nat.lt_succ_of_lt (ih h)
      · obtain ⟨_, after, _⟩ | ⟨first, more, before, after, _⟩ := cons_cases (s := s) same
        · rw [after] at h
          simp at h
        · rw [before] at ih
          rw [after, List.mem_cons] at h
          obtain rfl | h := h
          · exact Nat.succ_lt_succ (ih List.mem_cons_self)
          · exact Nat.lt_succ_of_lt (ih (List.mem_cons_of_mem _ h))

theorem length_unended_le : (unended mark s).length ≤ s.length := by
  induction s with
  | nil => exact Nat.le_refl _
  | cons b s ih =>
      by_cases same : b = mark
      · subst same
        rw [unended_mark_cons]
        exact Nat.le_succ_of_le ih
      · obtain ⟨_, _, last⟩ | ⟨_, _, _, _, last⟩ := cons_cases (s := s) same
        · rw [last]
          exact Nat.succ_le_succ ih
        · rw [last]
          exact Nat.le_succ_of_le ih

end Postmortem.Bytes

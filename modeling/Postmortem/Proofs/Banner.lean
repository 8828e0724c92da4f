import Mathlib
import Postmortem.Banner

/-! # The geometry of banners

The lines above and below a report are equally wide: eighty bytes, or as many as it takes for the
name of the program to have two dashes and a blank on either side. The name stands in the middle; if
the dashes around it cannot be shared evenly, there is one more after it.
-/

namespace Postmortem.Banner

open Bytes (dash)

variable {program : Bytes}

/-! ## Measures -/

/-- What the measures of the banner for a program have to be. -/
structure Fits (banner : Banner) (program : Bytes) : Prop where
  width : banner.width = max 80 (program.length + 17)
  two_le : 2 ≤ banner.leading
  le_trailing : banner.leading ≤ banner.trailing
  trailing_le : banner.trailing ≤ banner.leading + 1
  filled : banner.leading + (program.length + 13) + banner.trailing = banner.width

theorem ofProgram_fits (program : Bytes) : (ofProgram program).Fits program := by
  have label : verdict.length = 11 := rfl
  constructor
  case width => rfl
  all_goals
    simp only [ofProgram, minWidth, label]
    omega

/-- The difference of two counts, if it is not negative. -/
def difference? (m n : Nat) : Option Nat := if n ≤ m then some (m - n) else none

/-- The measures of the banner for a program, with every subtraction checked. -/
def ofProgram? (program : Bytes) : Option Banner := do
  let label := program.length + verdict.length
  let width := max minWidth (label + 6)
  let room ← difference? width label
  let leading ← difference? (room / 2) 1
  let behind ← difference? (← difference? width leading) label
  let trailing ← difference? behind 2
  return ⟨width, leading, trailing⟩

theorem ofProgram?_eq (program : Bytes) : ofProgram? program = some (ofProgram program) := by
  have taken {m n : Nat} (le : n ≤ m) : difference? m n = some (m - n) := if_pos le
  have label : verdict.length = 11 := rfl
  simp only [ofProgram?, label, minWidth, Option.bind_eq_bind]
  rw [taken (by omega), Option.bind_some, taken (by omega), Option.bind_some, taken (by omega),
    Option.bind_some, taken (by omega), Option.bind_some, taken (by omega), Option.bind_some]
  rfl

/-! ## Texts -/

theorem flatten_dashes (n : Nat) : (dashes n).flatten = List.replicate n dash := by
  induction n using Nat.strong_induction_on with
  | _ n ih =>
      rw [dashes]
      split
      · next none =>
        rw [none]
        rfl
      · next some =>
        have size : min n chunk ≤ n := Nat.min_le_left ..
        have pos : 0 < min n chunk := by
          have : chunk = 64 := rfl
          omega
        rw [List.flatten_cons, ih _ (by omega), List.replicate_append_replicate,
          Nat.add_sub_cancel' size]

/-- The line with the name of the program. -/
def nameLine (banner : Banner) (program : Bytes) : Bytes :=
  List.replicate banner.leading dash ++ (utf8 " " ++ program ++ utf8 " terminated ") ++
    List.replicate banner.trailing dash

theorem flatten_header (banner : Banner) (program : Bytes) :
    (banner.header program).flatten = utf8 "\n" ++ banner.nameLine program ++ utf8 "\n" := by
  have label : verdict ++ utf8 " " = utf8 " terminated " := rfl
  have newline : utf8 "\n" = [Bytes.newline] := rfl
  simp only [header, nameLine, ← label, newline, List.flatten_append, flatten_dashes,
    List.flatten_cons, List.flatten_nil, List.append_nil, List.append_assoc]

theorem flatten_footer (banner : Banner) :
    banner.footer.flatten = List.replicate banner.width dash ++ utf8 "\n" := by
  have newline : utf8 "\n" = [Bytes.newline] := rfl
  simp only [footer, newline, List.flatten_append, flatten_dashes, List.flatten_cons,
    List.flatten_nil, List.append_nil]

theorem Fits.length_nameLine {banner : Banner} (h : banner.Fits program) :
    (banner.nameLine program).length = banner.width := by
  have before : (utf8 " ").length = 1 := rfl
  have after : (utf8 " terminated ").length = 12 := rfl
  have filled := h.filled
  simp only [nameLine, List.length_append, List.length_replicate, before, after]
  omega

/-- No subtraction in measuring a banner goes below zero. The header is an empty line and a line with
    the name of the program between dashes, of which there are two or more on either side and as many
    before the name as after it, or one less; the footer is a line of dashes; and both lines are
    equally wide. -/
theorem banner_geometry (program : Bytes) :
    ofProgram? program = some (ofProgram program) ∧
    ∃ line a b,
      ((ofProgram program).header program).send none = ⟨utf8 "\n" ++ line ++ utf8 "\n", false⟩ ∧
      line.length = max 80 (program.length + 17) ∧
      line = List.replicate a dash ++ (utf8 " " ++ program ++ utf8 " terminated ") ++
        List.replicate b dash ∧
      2 ≤ a ∧ a ≤ b ∧ b ≤ a + 1 ∧
      (ofProgram program).footer.send none =
        ⟨List.replicate (max 80 (program.length + 17)) dash ++ utf8 "\n", false⟩ := by
  have fits := ofProgram_fits program
  refine ⟨ofProgram?_eq program, (ofProgram program).nameLine program, (ofProgram program).leading,
    (ofProgram program).trailing, ?_, ?_, rfl, fits.two_le, fits.le_trailing, fits.trailing_le, ?_⟩
  · simp only [Fragments.send, flatten_header]
  · rw [fits.length_nameLine, fits.width]
  · simp only [Fragments.send, flatten_footer, fits.width]

end Postmortem.Banner

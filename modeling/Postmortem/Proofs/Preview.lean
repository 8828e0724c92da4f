import Postmortem.Registry.ExtraLines

/-! # Previews

A preview is the beginning of the full text, up to where the first line would begin that it may not
have any more; there it points to the report instead.
-/

namespace Postmortem

namespace ExtraLines

variable {limit shown : Nat} {key text : Bytes} {lines : List Bytes}
  {entries : List (Bytes × List Bytes)}

/-- The text of entries, each under its heading. -/
def full (entries : List (Bytes × List Bytes)) : Fragments :=
  entries.flatMap fun (key, lines) => heading key ++ lines.flatMap line

/-- How many lines the entries have together. -/
def lineCount : List (Bytes × List Bytes) → Nat
  | [] => 0
  | (_, lines) :: rest => lines.length + lineCount rest

/-- The place right before the line that has `limit` lines before it. -/
structure Cut (limit : Nat) (entries : List (Bytes × List Bytes)) where
  before : List (Bytes × List Bytes)
  key : Bytes
  shown : List Bytes
  text : Bytes
  hidden : List Bytes
  after : List (Bytes × List Bytes)
  here : entries = before ++ (key, shown ++ text :: hidden) :: after
  count : lineCount before + shown.length = limit

namespace Cut

/-- The full text up to the cut. The heading of the entry that is cut belongs to it. -/
def front (cut : Cut limit entries) : Fragments :=
  full cut.before ++ heading cut.key ++ cut.shown.flatMap line

/-- The full text from the cut on. -/
def back (cut : Cut limit entries) : Fragments :=
  line cut.text ++ cut.hidden.flatMap line ++ full cut.after

theorem full_eq (cut : Cut limit entries) : full entries = cut.front ++ cut.back := by
  obtain ⟨before, key, shown, text, hidden, after, rfl, count⟩ := cut
  unfold front back full
  simp

end Cut

theorem full_cons (key : Bytes) (lines : List Bytes) (rest : List (Bytes × List Bytes)) :
    full ((key, lines) :: rest) = heading key ++ lines.flatMap line ++ full rest :=
  List.flatMap_cons

/-! ## Nothing is cut off -/

theorem emitLines_none (shown : Nat) (lines : List Bytes) :
    emitLines none shown lines = (lines.flatMap line, some (shown + lines.length)) := by
  induction lines generalizing shown with
  | nil => rfl
  | cons text rest ih =>
      unfold emitLines
      rw [if_neg (by simp [reached]), ih]
      simp
      omega

theorem emitEntries_none (shown : Nat) (entries : List (Bytes × List Bytes)) :
    emitEntries none shown entries = full entries := by
  induction entries generalizing shown with
  | nil => rfl
  | cons entry rest ih =>
      obtain ⟨key, lines⟩ := entry
      unfold emitEntries
      simp only [emitLines_none, ih, full_cons]

theorem emitLines_all (shown : Nat) (fits : lines.length ≤ limit) :
    emitLines (some (shown + limit)) shown lines =
      (lines.flatMap line, some (shown + lines.length)) := by
  induction lines generalizing shown limit with
  | nil => rfl
  | cons text rest ih =>
      cases limit with
      | zero => cases fits
      | succ limit =>
          have more : ¬ reached (some (shown + (limit + 1))) shown := by simp [reached]
          have later := ih (shown + 1) (Nat.le_of_succ_le_succ fits)
          have limits : shown + 1 + limit = shown + (limit + 1) := by omega
          rw [limits] at later
          unfold emitLines
          rw [if_neg more, later]
          simp
          omega

theorem emitEntries_all (shown : Nat) (fits : lineCount entries ≤ limit) :
    emitEntries (some (shown + limit)) shown entries = full entries := by
  induction entries generalizing shown limit with
  | nil => rfl
  | cons entry rest ih =>
      obtain ⟨key, lines⟩ := entry
      unfold lineCount at fits
      obtain ⟨left, rfl⟩ := Nat.exists_eq_add_of_le (show lines.length ≤ limit by omega)
      have here := emitLines_all shown (Nat.le_add_right lines.length left)
      have later := ih (shown + lines.length) (show lineCount rest ≤ left by omega)
      rw [Nat.add_assoc] at later
      unfold emitEntries
      simp only [here, later, full_cons]

/-! ## Something is cut off -/

theorem emitLines_cut (shown : Nat) (front : List Bytes) (text : Bytes) (back : List Bytes) :
    emitLines (some (shown + front.length)) shown (front ++ text :: back) =
      (front.flatMap line ++ [truncated], none) := by
  induction front generalizing shown with
  | nil =>
      show emitLines (some shown) shown (text :: back) = _
      unfold emitLines
      rw [if_pos (by simp [reached])]
      rfl
  | cons first rest ih =>
      have more : ¬ reached (some (shown + (first :: rest).length)) shown := by simp [reached]
      have later := ih (shown + 1)
      have limits : shown + 1 + rest.length = shown + (first :: rest).length := by
        rw [List.length_cons]
        omega
      rw [limits] at later
      show emitLines _ shown (first :: (rest ++ text :: back)) = _
      unfold emitLines
      rw [if_neg more, later]
      simp

theorem emitEntries_cut (shown : Nat) (cut : Cut limit entries) :
    emitEntries (some (shown + limit)) shown entries = cut.front ++ [truncated] := by
  obtain ⟨before, key, front, text, back, after, rfl, rfl⟩ := cut
  unfold Cut.front
  induction before generalizing shown with
  | nil =>
      have here := emitLines_cut shown front text back
      show emitEntries (some (shown + (0 + front.length))) shown
        ((key, front ++ text :: back) :: after) = _
      rw [Nat.zero_add]
      unfold emitEntries
      simp only [here]
      simp [full]
  | cons entry rest ih =>
      obtain ⟨first, lines⟩ := entry
      have here := emitLines_all shown
        (Nat.le_add_right lines.length (lineCount rest + front.length))
      have later := ih (shown + lines.length)
      rw [Nat.add_assoc] at later
      simp only [lineCount, List.cons_append, full_cons, Nat.add_assoc] at *
      unfold emitEntries
      simp only [here, later, List.append_assoc]

/-- There is such a place if there are more lines. -/
theorem exists_cut (more : limit < lineCount entries) : Nonempty (Cut limit entries) := by
  induction entries generalizing limit with
  | nil => cases more
  | cons entry rest ih =>
      obtain ⟨key, lines⟩ := entry
      unfold lineCount at more
      cases Nat.lt_or_ge limit lines.length with
      | inl inside =>
          have split : lines = lines.take limit ++ lines[limit] :: lines.drop (limit + 1) := by
            rw [← List.drop_eq_getElem_cons inside, List.take_append_drop]
          refine ⟨[], key, lines.take limit, lines[limit], lines.drop (limit + 1), rest, ?_, ?_⟩
          · rw [← split]
            rfl
          · rw [List.length_take, Nat.min_eq_left (Nat.le_of_lt inside)]
            exact Nat.zero_add limit
      | inr outside =>
          obtain ⟨left, rfl⟩ := Nat.exists_eq_add_of_le outside
          obtain ⟨cut⟩ := ih (show left < lineCount rest by omega)
          refine ⟨(key, lines) :: cut.before, cut.key, cut.shown, cut.text, cut.hidden, cut.after,
            ?_, ?_⟩
          · exact congrArg ((key, lines) :: ·) cut.here
          · have count := cut.count
            unfold lineCount
            omega

/-! ## The preview -/

theorem emit_all (fits : lineCount entries ≤ limit) :
    emitEntries (some limit) 0 entries = full entries := by
  have all := emitEntries_all 0 fits
  rw [Nat.zero_add] at all
  exact all

theorem emit_cut (cut : Cut limit entries) :
    emitEntries (some limit) 0 entries = cut.front ++ [truncated] := by
  have stops := emitEntries_cut 0 cut
  rw [Nat.zero_add] at stops
  exact stops

theorem emitEntries_eq (max : Option Nat) (entries : List (Bytes × List Bytes)) :
    emitEntries max 0 entries = full entries ∨
      ∃ limit, ∃ cut : Cut limit entries, emitEntries max 0 entries = cut.front ++ [truncated] := by
  cases max with
  | none => exact .inl (emitEntries_none 0 entries)
  | some limit =>
      cases Nat.lt_or_ge limit (lineCount entries) with
      | inl more =>
          obtain ⟨cut⟩ := exists_cut more
          exact .inr ⟨limit, cut, emit_cut cut⟩
      | inr fits => exact .inl (emit_all fits)

/-- A preview that may have all the lines is the full text. Any other is the full text up to the
    line that is too much, and then the notice that lines are left out. -/
theorem preview_honest (registry : ExtraLines) (store : LineStore) (limit : Nat) :
    (lineCount (registry.visible store) ≤ limit →
      registry.emit store (some limit) = registry.emit store none) ∧
    (limit < lineCount (registry.visible store) →
      ∃ cut : Cut limit (registry.visible store),
        registry.emit store none = cut.front ++ cut.back ∧
        registry.emit store (some limit) = cut.front ++ [truncated]) := by
  unfold emit
  rw [emitEntries_none]
  constructor
  · intro fits
    exact emit_all fits
  · intro more
    obtain ⟨cut⟩ := exists_cut more
    exact ⟨cut, cut.full_eq, emit_cut cut⟩

end ExtraLines

end Postmortem

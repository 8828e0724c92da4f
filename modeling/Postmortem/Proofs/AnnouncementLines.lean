import Postmortem.Proofs.Announcement

/-! # The lines of an announcement

What a line is to an announcement, said of its text alone: it is a header, it begins as the line
does that names the log file, it ends the work on that file, or it is a footer. No text is two of
these, so the order in which a line is tested for them does not matter.
-/

namespace Postmortem.Check

open Bytes (newline dash occursIn upTo splitOnce)

variable {program line text s t part host name : Bytes}

/-! ## Search -/

theorem occursIn_iff : occursIn part s = true ↔ part <:+: s := by
  induction s with
  | nil => rw [occursIn, List.isEmpty_iff, List.infix_nil]
  | cons b s ih => rw [occursIn, Bool.or_eq_true, List.isPrefixOf_iff_prefix, ih, List.infix_cons_iff]

theorem not_occursIn_iff : occursIn part s = false ↔ ¬ part <:+: s := by
  rw [← Bool.not_eq_true, occursIn_iff]

private theorem isPrefixOf_pair (a b c d : UInt8) (s : Bytes) :
    [a, b].isPrefixOf (c :: d :: s) = (a == c && b == d) := by
  simp only [List.isPrefixOf, Bool.and_true]

/-- A mark that is not in a text cuts nothing off. -/
theorem upTo_eq_self (h : occursIn part s = false) : upTo part s = s := by
  induction s with
  | nil => rfl
  | cons b s ih =>
      rw [occursIn, Bool.or_eq_false_iff] at h
      rw [upTo, h.1, if_neg Bool.false_ne_true, ih h.2]

/-- A mark of two different bytes that is not in a text is found right behind it. -/
theorem upTo_append {a b : UInt8} (ne : a ≠ b) (h : occursIn [a, b] s = false) (t : Bytes) :
    upTo [a, b] (s ++ a :: b :: t) = s := by
  induction s with
  | nil => simp [upTo]
  | cons c s ih =>
      rw [occursIn, Bool.or_eq_false_iff] at h
      have notHere : [a, b].isPrefixOf (c :: (s ++ a :: b :: t)) = false := by
        cases s with
        | nil =>
            rw [List.nil_append, isPrefixOf_pair, beq_eq_false_iff_ne.mpr (Ne.symm ne),
              Bool.and_false]
        | cons d s =>
            rw [List.cons_append, isPrefixOf_pair, ← isPrefixOf_pair a b c d s]
            exact h.1
      rw [List.cons_append, upTo, notHere, if_neg Bool.false_ne_true, ih h.2]

/-- What stands before a mark has no mark in it, and is all there is or followed by the mark. -/
theorem upTo_cut (s : Bytes) (nonempty : part ≠ []) :
    ∃ rest, s = upTo part s ++ rest ∧ ¬ part <:+: upTo part s ∧ (rest = [] ∨ part <+: rest) := by
  induction s with
  | nil => exact ⟨[], rfl, by simpa [upTo] using nonempty, .inl rfl⟩
  | cons b s ih =>
      rw [upTo]
      split
      · next here =>
        exact ⟨b :: s, rfl, by simpa using nonempty, .inr (List.isPrefixOf_iff_prefix.mp here)⟩
      · next notHere =>
        obtain ⟨rest, whole, apart, ends⟩ := ih
        refine ⟨rest, congrArg (b :: ·) whole, fun inside => ?_, ends⟩
        obtain first | later := List.infix_cons_iff.mp inside
        · refine notHere (List.isPrefixOf_iff_prefix.mpr (first.trans ?_))
          exact ⟨rest, congrArg (b :: ·) whole.symm⟩
        · exact apart later

/-- A byte that is not in the mark keeps apart what stands before it and after it. -/
theorem not_occursIn_append {a b c : UInt8} (ha : c ≠ a) (hb : c ≠ b)
    (hs : occursIn [a, b] s = false) (ht : occursIn [a, b] t = false) :
    occursIn [a, b] (s ++ c :: t) = false := by
  induction s with
  | nil =>
      have notHere : [a, b].isPrefixOf (c :: t) = false := by
        simp only [List.isPrefixOf, beq_eq_false_iff_ne.mpr (Ne.symm ha), Bool.false_and]
      rw [List.nil_append, occursIn, notHere, ht, Bool.or_false]
  | cons d s ih =>
      rw [occursIn, Bool.or_eq_false_iff] at hs
      rw [List.cons_append, occursIn, ih hs.2, Bool.or_false]
      cases s with
      | nil =>
          rw [List.nil_append, isPrefixOf_pair, beq_eq_false_iff_ne.mpr (Ne.symm hb),
            Bool.and_false]
      | cons e s =>
          rw [List.cons_append, isPrefixOf_pair, ← isPrefixOf_pair a b d e s]
          exact hs.1

theorem splitOnce_append {mark : UInt8} (h : mark ∉ s) (t : Bytes) :
    splitOnce mark (s ++ mark :: t) = some (s, t) := by
  induction s with
  | nil => simp [splitOnce]
  | cons b s ih =>
      rw [List.mem_cons, not_or] at h
      rw [List.cons_append, splitOnce, if_neg (Ne.symm h.1), ih h.2]
      rfl

theorem splitOnce_eq_some_iff {mark : UInt8} :
    splitOnce mark part = some (s, t) ↔ part = s ++ mark :: t ∧ mark ∉ s := by
  refine ⟨fun cut => ?_, fun ⟨whole, absent⟩ => whole ▸ splitOnce_append absent t⟩
  induction part generalizing s with
  | nil => cases cut
  | cons b rest ih =>
      rw [splitOnce] at cut
      split at cut
      · next here =>
        cases cut
        exact ⟨congrArg (· :: t) here, List.not_mem_nil⟩
      · next notHere =>
        obtain ⟨⟨before, after⟩, later, same⟩ := Option.map_eq_some_iff.mp cut
        cases same
        obtain ⟨rfl, absent⟩ := ih later
        exact ⟨rfl, by simp [absent, Ne.symm notHere]⟩

/-! ## Kinds of lines -/

/-- The line with which the announcement of a program begins. -/
structure IsHeader (program line : Bytes) : Prop where
  first : line.head? = some dash
  label : utf8 " " ++ program ++ utf8 " terminated " <:+: line

/-- The line with which an announcement ends. -/
structure IsFooter (line : Bytes) : Prop where
  long : 80 ≤ line.length
  dashes : ∀ b ∈ line, b = dash

/-- The line that names a log file. The name is all between the first colon, before which the host
    is, and the first bracket after a blank, or the end of the line if there is no such bracket. -/
def Names (line name : Bytes) : Prop :=
  ∃ host rest, line = utf8 "writing crash report to [ " ++ (host ++ utf8 ":" ++ name ++ rest) ∧
    (58 : UInt8) ∉ host ∧ ¬ utf8 " ]" <:+: host ++ utf8 ":" ++ name ∧
    (rest = [] ∨ utf8 " ]" <+: rest)

/-- A line that is part of an announcement, in its place or not. -/
def Marked (program line : Bytes) : Prop :=
  IsHeader program line ∨ utf8 "writing crash report to [ " <+: line ∨ line = utf8 " done." ∨
    IsFooter line

instance (program line : Bytes) : Decidable (IsHeader program line) :=
  decidable_of_iff (line.head? = some dash ∧ utf8 " " ++ program ++ utf8 " terminated " <:+: line)
    ⟨fun ⟨first, label⟩ => ⟨first, label⟩, fun ⟨first, label⟩ => ⟨first, label⟩⟩

instance (line : Bytes) : Decidable (IsFooter line) :=
  decidable_of_iff (80 ≤ line.length ∧ ∀ b ∈ line, b = dash)
    ⟨fun ⟨long, dashes⟩ => ⟨long, dashes⟩, fun ⟨long, dashes⟩ => ⟨long, dashes⟩⟩

instance (program line : Bytes) : Decidable (Marked program line) :=
  inferInstanceAs (Decidable (_ ∨ _ ∨ _ ∨ _))

theorem headerLabel_eq (program : Bytes) :
    Line.headerLabel program = utf8 " " ++ program ++ utf8 " terminated " := by
  rw [Line.headerLabel, List.append_assoc _ Banner.verdict]
  rfl

theorem isFooter_iff : Line.isFooter line = true ↔ IsFooter line := by
  rw [Line.isFooter, Bool.and_eq_true, decide_eq_true_eq, List.all_eq_true]
  constructor
  · intro h
    exact ⟨h.1, fun b member => of_decide_eq_true (h.2 b member)⟩
  · intro h
    exact ⟨h.long, fun b member => decide_eq_true (h.dashes b member)⟩

theorem isFooter_replicate {n : Nat} (long : 80 ≤ n) : IsFooter (List.replicate n dash) := by
  refine ⟨?_, fun b member => List.eq_of_mem_replicate member⟩
  rw [List.length_replicate]
  exact long

/-! ## How they are told apart -/

theorem classify_of_header (h : IsHeader program line) : Line.classify program line = .header := by
  have found : occursIn (Line.headerLabel program) line = true := by
    rw [occursIn_iff, headerLabel_eq]
    exact h.label
  rw [Line.classify, h.first, found]
  rfl

/-- A line that is no header is what the other tests say. -/
theorem classify_of_not_header (h : ¬ IsHeader program line) :
    Line.classify program line =
      match Line.logMark.isPrefixOf? line with
      | some rest =>
        .log (Line.logName? (upTo Line.nameEnd rest)) (Bytes.endsWith line Line.doneMark)
      | none =>
        if line = Line.doneMark then .done else if Line.isFooter line then .footer else .other := by
  have test : (line.head? = some dash && occursIn (Line.headerLabel program) line) ≠ true := by
    intro passed
    rw [Bool.and_eq_true, decide_eq_true_eq, occursIn_iff, headerLabel_eq] at passed
    exact h ⟨passed.1, passed.2⟩
  exact if_neg test

theorem not_isHeader_of_head {b : UInt8} (h : line.head? = some b) (ne : b ≠ dash) :
    ¬ IsHeader program line :=
  fun header => ne (Option.some.inj (h.symm.trans header.first))

theorem logName?_eq_some_iff {target : Bytes} : Line.logName? target = some name ↔
    ∃ host, target = host ++ utf8 ":" ++ name ∧ (58 : UInt8) ∉ host := by
  rw [Line.logName?, Option.map_eq_some_iff]
  simp only [Prod.exists, splitOnce_eq_some_iff, List.append_assoc]
  constructor
  · rintro ⟨host, _, ⟨whole, colon⟩, rfl⟩
    exact ⟨host, whole, colon⟩
  · rintro ⟨host, whole, colon⟩
    exact ⟨host, name, ⟨whole, colon⟩, rfl⟩

/-- What is read from a line that names a log file is what it names. -/
theorem names_iff : Names (utf8 "writing crash report to [ " ++ text) name ↔
    Line.logName? (upTo Line.nameEnd text) = some name := by
  rw [logName?_eq_some_iff]
  constructor
  · rintro ⟨host, rest, whole, colon, apart, ends⟩
    obtain rfl := List.append_cancel_left whole
    refine ⟨host, ?_, colon⟩
    have apart : occursIn Line.nameEnd (host ++ utf8 ":" ++ name) = false :=
      not_occursIn_iff.mpr apart
    obtain rfl | ⟨more, rfl⟩ := ends
    · rw [List.append_nil, upTo_eq_self apart]
    · exact upTo_append (by decide) apart more
  · rintro ⟨host, target, colon⟩
    have nonempty : Line.nameEnd ≠ [] := by decide
    obtain ⟨rest, whole, apart, ends⟩ := upTo_cut text nonempty
    rw [target] at whole apart
    exact ⟨host, rest, congrArg (_ ++ ·) whole, colon, apart, ends⟩

theorem classify_of_log :
    Line.classify program (utf8 "writing crash report to [ " ++ text) =
      .log (Line.logName? (upTo Line.nameEnd text))
        (Bytes.endsWith (utf8 "writing crash report to [ " ++ text) Line.doneMark) := by
  have begins : Line.logMark.isPrefixOf? (utf8 "writing crash report to [ " ++ text) = some text :=
    List.isPrefixOf?_eq_some_iff_append_eq.mpr rfl
  rw [classify_of_not_header (not_isHeader_of_head (b := 119) rfl (by decide)), begins]

theorem classify_of_names (h : Names line name) :
    Line.classify program line = .log (some name) (Bytes.endsWith line Line.doneMark) := by
  obtain ⟨text, rfl⟩ : utf8 "writing crash report to [ " <+: line := by
    obtain ⟨host, rest, rfl, -⟩ := h
    exact List.prefix_append ..
  rw [classify_of_log, names_iff.mp h]

theorem classify_done : Line.classify program (utf8 " done.") = .done := by
  rw [classify_of_not_header (not_isHeader_of_head (b := 32) rfl (by decide))]
  rfl

theorem classify_of_footer (h : IsFooter line) : Line.classify program line = .footer := by
  -- the label of a header has a blank, which a row of dashes has not
  have noHeader : ¬ IsHeader program line := by
    intro header
    have blank : (32 : UInt8) ∈ utf8 " " ++ program ++ utf8 " terminated " :=
      List.mem_append_right _ (by decide)
    exact absurd (h.dashes 32 (header.label.subset blank)) (by decide)
  have no {mark : Bytes} {b : UInt8} (member : b ∈ mark) (ne : b ≠ dash) : ¬ mark <+: line :=
    fun begins => ne (h.dashes b (begins.subset member))
  have noLog : Line.logMark.isPrefixOf? line = none := by
    rw [Option.eq_none_iff_forall_ne_some]
    intro rest found
    exact no (b := 119) (by decide) (by decide)
      ⟨rest, List.isPrefixOf?_eq_some_iff_append_eq.mp found⟩
  have noDone : line ≠ Line.doneMark := by
    rintro rfl
    exact no (b := 32) (by decide) (by decide) List.prefix_rfl
  rw [classify_of_not_header noHeader, noLog]
  simp only [if_neg noDone, isFooter_iff.mpr h, if_true]

theorem classify_of_not_marked (h : ¬ Marked program line) :
    Line.classify program line = .other := by
  rw [Marked, not_or, not_or, not_or] at h
  obtain ⟨noHeader, noLog, noDone, noFooter⟩ := h
  have noLog : Line.logMark.isPrefixOf? line = none := by
    rw [Option.eq_none_iff_forall_ne_some]
    intro rest found
    exact noLog ⟨rest, List.isPrefixOf?_eq_some_iff_append_eq.mp found⟩
  have noDone : line ≠ Line.doneMark := noDone
  have noFooter : Line.isFooter line = false :=
    Bool.not_eq_true _ ▸ mt isFooter_iff.mp noFooter
  rw [classify_of_not_header noHeader, noLog]
  simp only [if_neg noDone, noFooter, Bool.false_eq_true, if_false]

end Postmortem.Check

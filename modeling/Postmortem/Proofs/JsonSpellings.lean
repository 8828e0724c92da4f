import Postmortem.Proofs.JsonContents

/-! # What spellings say

The spelling of a value is a text that says what the value is made from. Not every part of it is read
back as it was: a control character comes as a sixteen-bit unit.
-/

namespace Postmortem.Json

/-! ## Digits -/

theorem toDigits_spec (n : Nat) :
    digitsValue (Nat.toDigits 10 n) = n ∧ Nat.toDigits 10 n ≠ [] ∧
      (∀ c ∈ Nat.toDigits 10 n, isDigit c = true) ∧
      ((Nat.toDigits 10 n).head? = some '0' → n = 0) := by
  have single : ∀ d < 10, (Nat.digitChar d).toNat - 48 = d ∧ isDigit (Nat.digitChar d) = true ∧
      (Nat.digitChar d = '0' → d = 0) := by decide
  -- The digits of the quotient are digits before the last one; that they begin with a zero only for
  -- zero rules out a leading zero here.
  induction n using Nat.strong_induction_on with
  | _ n ih =>
      by_cases small : n < 10
      · obtain ⟨value, digit, zero⟩ := single n small
        rw [Nat.toDigits_of_lt_base small]
        refine ⟨?_, List.cons_ne_nil _ _, by simpa using digit, ?_⟩
        · simpa [digitsValue] using value
        · intro head
          exact zero (Option.some.inj head)
      · obtain ⟨value, written, digits, zero⟩ := ih (n / 10) (by omega)
        obtain ⟨value', digit, -⟩ := single (n % 10) (Nat.mod_lt n (by decide))
        rw [Nat.toDigits_of_base_le (by decide) (Nat.le_of_not_lt small)]
        refine ⟨?_, by simp, ?_, ?_⟩
        · rw [digitsValue] at value
          rw [digitsValue, List.foldl_append, value, List.foldl_cons, List.foldl_nil, value']
          omega
        · intro c member
          obtain member | member := List.mem_append.mp member
          · exact digits c member
          · obtain rfl := List.mem_singleton.mp member
            exact digit
        · intro head
          rw [List.head?_append_of_ne_nil _ written] at head
          have := zero head
          omega

/-! ## Characters -/

/-- A control character without a short escape is written by its number. -/
theorem escapeControl_other : ∀ n < 32, n ∉ [8, 9, 10, 12, 13] →
    escapeControl n = ['\\', 'u', '0', '0', Text.hexDigit (n / 16), Text.hexDigit (n % 16)] ∧
      hexValue? (Text.hexDigit (n / 16)) = some (n / 16) ∧
      hexValue? (Text.hexDigit (n % 16)) = some (n % 16) := by
  decide +kernel

/-- The spelling of a character is a way to write this character. -/
theorem written_spellChar (c : Char) :
    ∃ part : TextPart, part.Written (spellChar c) ∧
      ∀ parts text, Stands parts text → Stands (part :: parts) (c :: text) := by
  rw [spellChar]
  by_cases isQuote : c = quote
  · rw [if_pos isQuote]
    exact ⟨.char quote, .short rfl, fun parts text rest => isQuote ▸ .char quote rest⟩
  by_cases isBackslash : c = '\\'
  · rw [if_neg isQuote, if_pos isBackslash]
    exact ⟨.char '\\', .short rfl, fun parts text rest => isBackslash ▸ .char '\\' rest⟩
  rw [if_neg isQuote, if_neg isBackslash]
  by_cases control : c.toNat < 32
  · rw [if_pos control]
    by_cases short : c.toNat ∈ [8, 9, 10, 12, 13]
    · have escape : ∃ e, shortEscape? e = some c ∧ escapeControl c.toNat = ['\\', e] := by
        have same : Char.ofNat c.toNat = c := c.ofNat_toNat
        rw [← same]
        generalize c.toNat = n at short
        simp only [List.mem_cons, List.not_mem_nil, or_false] at short
        obtain rfl | rfl | rfl | rfl | rfl := short
        · exact ⟨'b', rfl, rfl⟩
        · exact ⟨'t', rfl, rfl⟩
        · exact ⟨'n', rfl, rfl⟩
        · exact ⟨'f', rfl, rfl⟩
        · exact ⟨'r', rfl, rfl⟩
      obtain ⟨e, stands, spelling⟩ := escape
      rw [spelling]
      exact ⟨.char c, .short stands, fun parts text rest => .char c rest⟩
    · obtain ⟨spelling, high, low⟩ := escapeControl_other c.toNat control short
      rw [spelling]
      have zero : hexValue? '0' = some 0 := rfl
      refine ⟨_, .unit zero zero high low, fun parts text rest => ?_⟩
      have value : ((0 * 16 + 0) * 16 + c.toNat / 16) * 16 + c.toNat % 16 = c.toNat := by omega
      have stands := Stands.unit (n := c.toNat) (.inl (by omega)) rest
      rw [c.ofNat_toNat] at stands
      rw [value]
      exact stands
  · rw [if_neg control]
    exact ⟨.char c, .plain isQuote isBackslash (Nat.le_of_not_lt control),
      fun parts text rest => .char c rest⟩

theorem written_spellText (text : List Char) :
    ∃ parts pieces, List.Forall₂ TextPart.Written parts pieces ∧
      pieces.flatten = text.flatMap spellChar ∧ Stands parts text := by
  induction text with
  | nil => exact ⟨[], [], .nil, rfl, .nil⟩
  | cons c text ih =>
      obtain ⟨part, written, stands⟩ := written_spellChar c
      obtain ⟨parts, pieces, all, spelling, rest⟩ := ih
      refine ⟨part :: parts, spellChar c :: pieces, .cons written all, ?_, stands parts text rest⟩
      rw [List.flatten_cons, List.flatMap_cons, spelling]

/-! ## Values -/

/-- A text goes on with a character that ends tokens. -/
def Delimited (text : List Char) : Prop := ∃ c rest, text = c :: rest ∧ Delimits c

theorem delimited_mark (m : Mark) (rest : List Char) : Delimited (m.spelling :: rest) :=
  ⟨m.spelling, rest, rfl, .inr ⟨m, rfl⟩⟩

theorem Laid.mark {ts : List Token} {text : List Char} (m : Mark) (laid : Laid ts text) :
    Laid (.mark m :: ts) (m.spelling :: text) :=
  .token (.mark m) (by rintro n ⟨⟩) laid

namespace Value

/-- The spelling of a value is that of some value in this form, whatever comes after it; after a
    number something has to end it. -/
def Spells (v : Value) (form : Value → Prop) : Prop :=
  ∃ w, form w ∧ w.Sound ∧ ∀ ts text, ((∃ n, w = .number n) → Delimited text) → Laid ts text →
    Laid (w.tokens ++ ts) (v.spell ++ text)

variable {v : Value} {form form' : Value → Prop}

theorem Spells.imp (spells : v.Spells form) (weaker : ∀ w, form w → form' w) : v.Spells form' := by
  obtain ⟨w, stands, others⟩ := spells
  exact ⟨w, weaker w stands, others⟩

theorem spells_word (w : Word) : (ofWord w).Spells (· = .word w none) :=
  ⟨_, rfl, .word w, fun _ _ _ rest => .token (.word w) (by rintro n ⟨⟩) rest⟩

theorem spells_text (text : String) : (ofString text).Spells (IsText text) := by
  obtain ⟨parts, pieces, written, spelling, stands⟩ := written_spellText text.toList
  refine ⟨.text ⟨parts, none⟩, ⟨parts, rfl, stands⟩, .text parts, fun ts rest _ laid => ?_⟩
  have chars : (text.toList.map TextPart.char).filterMap TextPart.char? = text.toList := by
    rw [List.filterMap_map]
    exact List.filterMap_some
  have spelled : (ofString text).spell = quote :: pieces.flatten ++ [quote] := by
    rw [ofString, spell, Quotation.ofChars, chars, spellText, spelling]
  rw [spelled]
  exact .token (.text written) (by rintro n ⟨⟩) laid

theorem digits_ofInt (x : Int) : (Numeral.ofInt x).digits = Nat.toDigits 10 x.natAbs := by
  rw [Numeral.ofInt, Nat.toString_eq_ofList_toDigits, String.toList_ofList]

theorem leading_toDigits {n : Nat} (head : (Nat.toDigits 10 n).head? = some '0') :
    (Nat.toDigits 10 n).length = 1 := by
  rw [(toDigits_spec n).2.2.2 head]
  rfl

theorem proper_ofInt (x : Int) : (Numeral.ofInt x).Proper := by
  obtain ⟨-, written, digits, -⟩ := toDigits_spec x.natAbs
  refine ⟨?_, ?_, ?_, ?_, ?_, rfl⟩
  · have needless : (Nat.toDigits 10 x.natAbs).head? ≠ some '0' ∨
        (Nat.toDigits 10 x.natAbs).length = 1 := (em _).elim (fun h => .inr (leading_toDigits h)) .inl
    rw [Numeral.wellFormed, digits_ofInt]
    simpa [Numeral.ofInt, written] using needless
  · rw [digits_ofInt]
    exact digits
  · rintro places ⟨⟩
  · rintro e ⟨⟩
  · rintro e c ⟨⟩

theorem spells_whole (x : Int) : (ofInt x).Spells (IsWhole x) := by
  obtain ⟨value, written, -, -⟩ := toDigits_spec x.natAbs
  refine ⟨.number (.ofInt x), ⟨Nat.toDigits 10 x.natAbs, ?_, written, leading_toDigits, value⟩,
    .number (proper_ofInt x), fun ts rest delimited laid => ?_⟩
  · rw [← digits_ofInt]
    rfl
  · have spelled : (ofInt x).spell = (Numeral.ofInt x).text 'e' := by
      rw [ofInt, spell, Numeral.spell, Numeral.text, Numeral.ofInt, placesText, exponentText,
        List.append_nil, List.append_nil]
    rw [spelled]
    exact .token (.number (proper_ofInt x) (.inl rfl)) (fun n _ => delimited ⟨_, rfl⟩) laid

/-! ### Sequences -/

section Sequences

variable {α : Type} {write : α → Value} {form : α → Value → Prop} {list : List α}

theorem spellItems_spells (spells : ∀ a ∈ list, (write a).Spells (form a)) :
    ∃ items, List.Forall₂ form list items ∧ (∀ item ∈ items, item.Sound) ∧
      ∀ ts text, Delimited text → Laid ts text →
        Laid (itemTokens items ++ ts) (spellItems (list.map write) ++ text) := by
  induction list with
  | nil => exact ⟨[], .nil, by simp, fun ts text _ laid => laid⟩
  | cons a list ih =>
      obtain ⟨here, others⟩ := List.forall_mem_cons.mp spells
      obtain ⟨w, stands, sound, laid⟩ := here
      obtain ⟨items, all, sounds, rest⟩ := ih others
      refine ⟨w :: items, .cons stands all, List.forall_mem_cons.mpr ⟨sound, sounds⟩, ?_⟩
      intro ts text delimited behind
      -- What ends the item is the comma before the next one, or what ends the sequence.
      cases list with
      | nil =>
          cases all
          exact laid ts text (fun _ => delimited) behind
      | cons b list =>
          cases all with
          | @cons _ u _ us next all =>
              have further := rest ts text delimited behind
              have comma := laid _ _ (fun _ => delimited_mark .comma _) (further.mark .comma)
              simpa only [itemTokens, spellItems, List.map_cons, List.append_assoc,
                List.cons_append, Mark.spelling] using comma

theorem spells_sequence (spells : ∀ a ∈ list, (write a).Spells (form a)) :
    (ofList (list.map write)).Spells (IsSequence form list) := by
  obtain ⟨items, all, sounds, laid⟩ := spellItems_spells spells
  refine ⟨.sequence items .closed, ⟨items, rfl, all⟩, .sequence sounds, fun ts text _ behind => ?_⟩
  have closing := behind.mark .closeBracket
  have inside := laid _ _ (delimited_mark .closeBracket text) closing
  simpa only [ofList, spell, tokens, List.append_assoc, List.cons_append, List.nil_append,
    Mark.spelling] using inside.mark .openBracket

end Sequences

/-! ### Records -/

section Records

variable {entries : List (String × Value)} {fields : List Field} {others : Prop}

theorem spellMembers_spells
    (spells : List.Forall₂ (fun e f => e.1 = f.name ∧ e.2.Spells f.admits) entries fields) :
    ∃ (members : List (String × Value)) (written : List (Value × Value)),
      List.Forall₂ (fun m f => m.1 = f.name ∧ f.admits m.2) members fields ∧
      List.Forall₂ (fun m w => IsText m.1 w.1 ∧ w.2 = m.2) members written ∧
      (∀ w ∈ written, ∃ parts, w.1 = .text ⟨parts, none⟩) ∧ (∀ w ∈ written, w.2.Sound) ∧
      ∀ ts text, Delimited text → Laid ts text →
        Laid (memberTokens written ++ ts)
          (spellMembers (entries.map fun (name, v) => (.ofString name, v)) ++ text) := by
  induction spells with
  | nil => exact ⟨[], [], .nil, .nil, by simp, by simp, fun ts text _ laid => laid⟩
  | @cons entry field entries fields here after ih =>
      obtain ⟨name, v⟩ := entry
      obtain ⟨same, w, stands, sound, laid⟩ := here
      obtain ⟨members, written, given, stand, keys, sounds, rest⟩ := ih
      obtain ⟨key, isKey, soundKey, laidKey⟩ := spells_text name
      have isText : ∃ parts, key = .text ⟨parts, none⟩ := by
        obtain ⟨parts, rfl, -⟩ := isKey
        exact ⟨parts, rfl⟩
      refine ⟨(name, w) :: members, (key, w) :: written, .cons ⟨same, stands⟩ given,
        .cons ⟨isKey, rfl⟩ stand, List.forall_mem_cons.mpr ⟨isText, keys⟩,
        List.forall_mem_cons.mpr ⟨sound, sounds⟩, ?_⟩
      intro ts text delimited behind
      cases after with
      | nil =>
          cases given
          cases stand
          have item := laid ts text (fun _ => delimited) behind
          have colon := laidKey _ _ (fun _ => delimited_mark .colon _) (item.mark .colon)
          simpa only [memberTokens, spellMembers, List.map_cons, List.map_nil, List.append_assoc,
            List.cons_append, Mark.spelling] using colon
      | cons =>
          cases given with
          | cons _ given =>
              cases stand with
              | cons _ stand =>
                  have further := rest ts text delimited behind
                  have item := laid _ _ (fun _ => delimited_mark .comma _) (further.mark .comma)
                  have colon := laidKey _ _ (fun _ => delimited_mark .colon _) (item.mark .colon)
                  simpa only [memberTokens, spellMembers, List.map_cons, List.append_assoc,
                    List.cons_append, Mark.spelling] using colon

theorem exists_field_of_mem {members : List (String × Value)} {m : String × Value}
    (given : List.Forall₂ (fun m f => m.1 = f.name ∧ f.admits m.2) members fields)
    (member : m ∈ members) : ∃ field ∈ fields, m.1 = field.name ∧ field.admits m.2 := by
  induction given with
  | nil => cases member
  | cons first _ ih =>
      obtain rfl | later := List.mem_cons.mp member
      · exact ⟨_, List.mem_cons_self, first⟩
      · obtain ⟨field, there, others⟩ := ih later
        exact ⟨field, List.mem_cons_of_mem _ there, others⟩

/-- Members in the order of the fields give all of them. -/
theorem gives_of_forall₂ {members : List (String × Value)} (distinct : (fields.map Field.name).Nodup)
    (given : List.Forall₂ (fun m f => m.1 = f.name ∧ f.admits m.2) members fields)
    (others : Prop) : Gives fields others members := by
  have names : members.map Prod.fst = fields.map Field.name := by
    induction given with
    | nil => rfl
    | cons first _ ih =>
        rw [List.map_cons, List.map_cons, first.1, ih (List.nodup_cons.mp distinct).2]
  refine ⟨?_, ?_, ?_, ?_⟩
  · rw [names]
    exact distinct.filter _
  · intro field member v there
    obtain ⟨other, member', same, admits⟩ := exists_field_of_mem given there
    obtain rfl := List.inj_on_of_nodup_map distinct member member' same
    exact admits
  · intro field member
    rw [names]
    exact .inl (List.mem_map_of_mem member)
  · refine .inr fun m member => ?_
    rw [← names]
    exact List.mem_map_of_mem member

theorem spells_record (distinct : (fields.map Field.name).Nodup)
    (spells : List.Forall₂ (fun e f => e.1 = f.name ∧ e.2.Spells f.admits) entries fields) :
    (ofFields entries).Spells (IsRecord fields others) := by
  obtain ⟨members, written, given, stand, keys, sounds, laid⟩ := spellMembers_spells spells
  refine ⟨.object written .closed,
    .inl ⟨members, ⟨written, rfl, stand⟩, gives_of_forall₂ distinct given others⟩,
    .object keys sounds, fun ts text _ behind => ?_⟩
  have closing := behind.mark .closeBrace
  have inside := laid _ _ (delimited_mark .closeBrace text) closing
  simpa only [ofFields, spell, tokens, List.append_assoc, List.cons_append, List.nil_append,
    Mark.spelling] using inside.mark .openBrace

end Records

end Value

end Postmortem.Json

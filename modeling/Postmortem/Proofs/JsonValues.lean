import Postmortem.Json.Reader
import Postmortem.Proofs.JsonTokens

/-! # Values and their tokens

A value without faults has its tokens, and the tokens of a text that are those of a value are put
together to that value again.
-/

namespace Postmortem.Json

namespace Value

mutual

/-- The tokens of a value. -/
def tokens : Value → List Token
  | .word w fault => [.word w fault]
  | .number n => [.number n]
  | .text q => [.text q]
  | .sequence items _ => .mark .openBracket :: itemTokens items ++ [.mark .closeBracket]
  | .object members _ => .mark .openBrace :: memberTokens members ++ [.mark .closeBrace]
  | .broken _ => []

/-- The tokens of items, with commas between them. -/
def itemTokens : List Value → List Token
  | [] => []
  | [item] => tokens item
  | item :: rest => tokens item ++ .mark .comma :: itemTokens rest

/-- The tokens of members, with commas between them. -/
def memberTokens : List (Value × Value) → List Token
  | [] => []
  | [(key, item)] => tokens key ++ .mark .colon :: tokens item
  | (key, item) :: rest =>
    tokens key ++ .mark .colon :: (tokens item ++ .mark .comma :: memberTokens rest)

end

/-- A value without faults; the keys of an object are texts. -/
inductive Sound : Value → Prop where
  | word (w : Word) : Sound (.word w none)
  | number {n : Numeral} (proper : n.Proper) : Sound (.number n)
  | text (parts : List TextPart) : Sound (.text ⟨parts, none⟩)
  | sequence {items : List Value} (sound : ∀ item ∈ items, Sound item) :
      Sound (.sequence items .closed)
  | object {members : List (Value × Value)}
      (keys : ∀ member ∈ members, ∃ parts, member.1 = .text ⟨parts, none⟩)
      (sound : ∀ member ∈ members, Sound member.2) : Sound (.object members .closed)

variable {v : Value} {items : List Value} {members : List (Value × Value)}

/-! ## Values are passed over -/

theorem skipItems_of_forall (all : ∀ item ∈ items, item.skip = .ok ()) :
    skipItems items = .ok () := by
  induction items with
  | nil => rfl
  | cons item rest ih =>
      obtain ⟨first, others⟩ := List.forall_mem_cons.mp all
      rw [skipItems, first]
      exact ih others

theorem skipMembers_of_forall (keys : ∀ m ∈ members, ∃ parts, m.1 = .text ⟨parts, none⟩)
    (all : ∀ m ∈ members, m.2.skip = .ok ()) : skipMembers members = .ok () := by
  induction members with
  | nil => rfl
  | cons m rest ih =>
      obtain ⟨key, item⟩ := m
      obtain ⟨⟨parts, rfl⟩, otherKeys⟩ := List.forall_mem_cons.mp keys
      obtain ⟨first, others⟩ := List.forall_mem_cons.mp all
      rw [skipMembers, first]
      exact ih otherKeys others

/-- Whatever is sound can be passed over. -/
theorem skip_of_sound (sound : v.Sound) : v.skip = .ok () := by
  induction sound with
  | word w => rfl
  | number proper => exact if_pos proper.wellFormed
  | text parts => rfl
  | sequence _ ih =>
      rw [skip, skipItems_of_forall ih]
      rfl
  | object keys _ ih =>
      rw [skip, skipMembers_of_forall keys ih]
      rfl

/-! ## Tokens are put together -/

/-- Where the tokens of a value lead to from the place where a value is to come. -/
def Assembles (v : Value) : Prop :=
  ∀ frames, v.tokens.foldl Assembly.advance (.value frames) = Assembly.supply v frames

/-- The first item of a sequence is put together like the others. -/
theorem assemble_first (sound : v.Sound) (frames : List Frame) :
    v.tokens.foldl Assembly.advance (.firstItem frames) =
      v.tokens.foldl Assembly.advance (.value (.item [] :: frames)) := by
  cases sound <;> rfl

theorem itemTokens_cons (item : Value) (rest : List Value) :
    ∃ more, itemTokens (item :: rest) = item.tokens ++ more := by
  cases rest with
  | nil => exact ⟨[], (List.append_nil _).symm⟩
  | cons next rest => exact ⟨_, rfl⟩

theorem memberTokens_cons (parts : List TextPart) (item : Value) (rest : List (Value × Value)) :
    ∃ more, memberTokens ((.text ⟨parts, none⟩, item) :: rest) = .text ⟨parts, none⟩ :: more := by
  cases rest with
  | nil => exact ⟨_, rfl⟩
  | cons next rest => exact ⟨_, rfl⟩

theorem assemble_items (some_item : items ≠ []) (all : ∀ item ∈ items, item.Assembles)
    (before : List Value) (frames : List Frame) :
    (itemTokens items).foldl Assembly.advance (.value (.item before :: frames)) =
      .afterItem (items.reverse ++ before) frames := by
  induction items generalizing before with
  | nil => exact absurd rfl some_item
  | cons item rest ih =>
      obtain ⟨first, others⟩ := List.forall_mem_cons.mp all
      cases rest with
      | nil => exact first _
      | cons next rest =>
          have further := ih (List.cons_ne_nil next rest) others (item :: before)
          rw [itemTokens, List.foldl_append, first, List.foldl_cons]
          · rw [List.reverse_cons, List.append_assoc]
            exact further
          · exact List.cons_ne_nil next rest

theorem assemble_sequence (sound : ∀ item ∈ items, item.Sound)
    (all : ∀ item ∈ items, item.Assembles) : (sequence items .closed).Assembles := by
  intro frames
  cases items with
  | nil => rfl
  | cons item rest =>
      have same : (itemTokens (item :: rest)).foldl Assembly.advance (.firstItem frames) =
          (itemTokens (item :: rest)).foldl Assembly.advance (.value (.item [] :: frames)) := by
        obtain ⟨more, split⟩ := itemTokens_cons item rest
        rw [split, List.foldl_append, List.foldl_append,
          assemble_first (sound item List.mem_cons_self)]
      have inside := assemble_items (List.cons_ne_nil item rest) all [] frames
      rw [tokens, List.cons_append, List.foldl_cons, List.foldl_append]
      show ([Token.mark .closeBracket].foldl Assembly.advance
        ((itemTokens (item :: rest)).foldl Assembly.advance (.firstItem frames))) = _
      rw [same, inside, List.append_nil]
      exact congrArg (fun items => Assembly.supply (.sequence items .closed) frames)
        (List.reverse_reverse _)

theorem assemble_members (some_member : members ≠ [])
    (keys : ∀ m ∈ members, ∃ parts, m.1 = .text ⟨parts, none⟩)
    (all : ∀ m ∈ members, m.2.Assembles) (before : List (Value × Value)) (frames : List Frame) :
    (memberTokens members).foldl Assembly.advance (.nextKey before frames) =
      .afterMember (members.reverse ++ before) frames := by
  induction members generalizing before with
  | nil => exact absurd rfl some_member
  | cons m rest ih =>
      obtain ⟨key, item⟩ := m
      obtain ⟨⟨parts, rfl⟩, otherKeys⟩ := List.forall_mem_cons.mp keys
      obtain ⟨first, others⟩ := List.forall_mem_cons.mp all
      cases rest with
      | nil => exact first _
      | cons next rest =>
          have further := ih (List.cons_ne_nil next rest) otherKeys others
            ((.text ⟨parts, none⟩, item) :: before)
          rw [memberTokens, tokens, List.singleton_append, List.foldl_cons, List.foldl_cons,
            List.foldl_append]
          · show (Token.mark .comma :: memberTokens (next :: rest)).foldl Assembly.advance
              (item.tokens.foldl Assembly.advance
                (.value (.member before (.text ⟨parts, none⟩) :: frames))) = _
            rw [first, List.foldl_cons, List.reverse_cons, List.append_assoc]
            exact further
          · exact List.cons_ne_nil next rest

theorem assemble_object (keys : ∀ m ∈ members, ∃ parts, m.1 = .text ⟨parts, none⟩)
    (all : ∀ m ∈ members, m.2.Assembles) : (object members .closed).Assembles := by
  intro frames
  cases members with
  | nil => rfl
  | cons m rest =>
      have same : (memberTokens (m :: rest)).foldl Assembly.advance (.firstKey frames) =
          (memberTokens (m :: rest)).foldl Assembly.advance (.nextKey [] frames) := by
        obtain ⟨key, item⟩ := m
        obtain ⟨parts, rfl⟩ := keys _ List.mem_cons_self
        obtain ⟨more, split⟩ := memberTokens_cons parts item rest
        rw [split]
        rfl
      have inside := assemble_members (List.cons_ne_nil m rest) keys all [] frames
      rw [tokens, List.cons_append, List.foldl_cons, List.foldl_append]
      show ([Token.mark .closeBrace].foldl Assembly.advance
        ((memberTokens (m :: rest)).foldl Assembly.advance (.firstKey frames))) = _
      rw [same, inside, List.append_nil]
      exact congrArg (fun members => Assembly.supply (.object members .closed) frames)
        (List.reverse_reverse _)

theorem assembles_of_sound (sound : v.Sound) : v.Assembles := by
  induction sound with
  | word w => exact fun _ => rfl
  | number proper => exact fun _ => rfl
  | text parts => exact fun _ => rfl
  | sequence sound ih => exact assemble_sequence sound ih
  | object keys _ ih => exact assemble_object keys ih

end Value

/-- A text whose tokens are those of a value holds this value and nothing else. -/
theorem Document.ofChars_of_laid {v : Value} {text : List Char} (sound : v.Sound)
    (laid : Laid v.tokens text) : Document.ofChars text = ⟨v, false⟩ := by
  rw [Document.ofChars, Document.ofTokens, tokens_of_laid laid, Value.assembles_of_sound sound]
  rfl

end Postmortem.Json

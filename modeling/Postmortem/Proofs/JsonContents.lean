import Postmortem.Proofs.JsonValues

/-! # What values say

Which text, number or record a value stands for is said here without any reader. A reader that is
given a value finds what the value says; of a record it does so whatever the order of the members,
and whatever else the record may hold.
-/

namespace Postmortem.Json

/-! ## Texts and numbers -/

/-- The characters that the parts of a text stand for. A character beyond the first plane may be
    written as a pair of units. -/
inductive Stands : List TextPart → List Char → Prop where
  | nil : Stands [] []
  | char (c : Char) {parts : List TextPart} {text : List Char} (rest : Stands parts text) :
      Stands (.char c :: parts) (c :: text)
  | unit {n : Nat} {parts : List TextPart} {text : List Char} (single : n < 0xD800 ∨ 0xDFFF < n)
      (rest : Stands parts text) : Stands (.unit n :: parts) (Char.ofNat n :: text)
  | pair {n m : Nat} {parts : List TextPart} {text : List Char}
      (leading : 0xD800 ≤ n ∧ n ≤ 0xDBFF) (trailing : 0xDC00 ≤ m ∧ m ≤ 0xDFFF)
      (rest : Stands parts text) :
      Stands (.unit n :: .unit m :: parts)
        (Char.ofNat (0x10000 + (n - 0xD800) * 0x400 + (m - 0xDC00)) :: text)

theorem Quotation.characters_of_stands {parts : List TextPart} {text : List Char}
    (stands : Stands parts text) : characters none parts = .ok text := by
  induction stands with
  | nil => rfl
  | char c _ ih =>
      rw [characters, ih]
      rfl
  | @unit n _ _ single _ ih =>
      have notTrailing : isTrailing n = false := by
        simp only [isTrailing, Bool.and_eq_false_iff, decide_eq_false_iff_not]
        omega
      have notLeading : isLeading n = false := by
        simp only [isLeading, Bool.and_eq_false_iff, decide_eq_false_iff_not]
        omega
      rw [characters.eq_def]
      simp only [notTrailing, notLeading, ih, Bool.false_eq_true, if_false]
      rfl
  | @pair n m _ _ leading trailing _ ih =>
      have notTrailing : isTrailing n = false := by
        simp only [isTrailing, Bool.and_eq_false_iff, decide_eq_false_iff_not]
        omega
      have isLeading : isLeading n = true := by
        simpa only [Quotation.isLeading, Bool.and_eq_true, decide_eq_true_eq] using leading
      have isTrailing : isTrailing m = true := by
        simpa only [Quotation.isTrailing, Bool.and_eq_true, decide_eq_true_eq] using trailing
      simp only [characters, notTrailing, isLeading, isTrailing, ih, if_true, Bool.false_eq_true,
        if_false, pair]
      rfl

/-- The number that decimal digits stand for. -/
def digitsValue (digits : List Char) : Nat :=
  digits.foldl (fun n c => n * 10 + (c.toNat - 48)) 0

namespace Value

/-- The value is a text. -/
def IsText (text : String) (v : Value) : Prop :=
  ∃ parts, v = .text ⟨parts, none⟩ ∧ Stands parts text.toList

/-- The value is a truth value. -/
def IsTruth (b : Bool) (v : Value) : Prop := v = .word (if b then .yes else .no) none

/-- The value is a whole number, written without point and exponent. -/
def IsWhole (x : Int) (v : Value) : Prop :=
  ∃ digits, v = .number ⟨decide (x < 0), digits, none, none, false⟩ ∧
    digits ≠ [] ∧ (digits.head? = some '0' → digits.length = 1) ∧ digitsValue digits = x.natAbs

/-- The value is null, or says the one thing that there is to say. -/
def IsOptional {α : Type} (form : α → Value → Prop) (a : Option α) (v : Value) : Prop :=
  match a with
  | none => v = .word .null none
  | some a => form a v

/-- The value is a sequence whose items say this in turn. -/
def IsSequence {α : Type} (form : α → Value → Prop) (list : List α) (v : Value) : Prop :=
  ∃ items, v = .sequence items .closed ∧ List.Forall₂ form list items

/-- The value is an object with these members, in this order. -/
def IsObject (members : List (String × Value)) (v : Value) : Prop :=
  ∃ written, v = .object written .closed ∧
    List.Forall₂ (fun m w => IsText m.1 w.1 ∧ w.2 = m.2) members written

end Value

/-! ## Records -/

/-- A field of a record: its name, what its value has to say, and whether it may be missing. -/
structure Field where
  name : String
  admits : Value → Prop
  optional : Prop

/-- Members that make up a record: no field is given twice, each says what it should, and none is
    missing that must not be. Members of other names do not matter if `others` are allowed. -/
structure Gives (fields : List Field) (others : Prop) (members : List (String × Value)) :
    Prop where
  once : ((members.map Prod.fst).filter (· ∈ fields.map Field.name)).Nodup
  given : ∀ field ∈ fields, ∀ v, (field.name, v) ∈ members → field.admits v
  complete : ∀ field ∈ fields, field.name ∈ members.map Prod.fst ∨ field.optional
  known : others ∨ ∀ member ∈ members, member.1 ∈ fields.map Field.name

/-- The value is a record: an object of its fields in any order, or a sequence of all of them. -/
def Value.IsRecord (fields : List Field) (others : Prop) (v : Value) : Prop :=
  (∃ members, v.IsObject members ∧ Gives fields others members) ∨
    ∃ items, v = .sequence items .closed ∧ List.Forall₂ Field.admits fields items

namespace Value

variable {v : Value}

/-! ## Readers -/

theorem readString_of_isText {text : String} (stands : v.IsText text) :
    v.readString = .ok text := by
  obtain ⟨parts, rfl, stands⟩ := stands
  rw [readString, Quotation.decode, Quotation.characters_of_stands stands]
  exact congrArg Except.ok (String.ofList_toList)

theorem readKey_of_isText {text : String} (stands : v.IsText text) :
    v.readKey = .ok text.toList := by
  obtain ⟨parts, rfl, stands⟩ := stands
  rw [readKey, Quotation.decode, Quotation.characters_of_stands stands]
  rfl

theorem readBool_of_isTruth {b : Bool} (stands : v.IsTruth b) : v.readBool = .ok b := by
  rw [stands]
  cases b <;> rfl

theorem le_digits (digits : List Char) (n : Nat) :
    n ≤ digits.foldl (fun n c => n * 10 + (c.toNat - 48)) n := by
  induction digits generalizing n with
  | nil => exact le_rfl
  | cons c digits ih => exact (by omega : n ≤ n * 10 + (c.toNat - 48)).trans (ih _)

theorem accumulate_of_le {digits : List Char} {n : Nat}
    (fits : digits.foldl (fun n c => n * 10 + (c.toNat - 48)) n ≤ maxWhole) :
    Numeral.accumulate n digits =
      (digits.foldl (fun n c => n * 10 + (c.toNat - 48)) n, []) := by
  induction digits generalizing n with
  | nil => rfl
  | cons c digits ih =>
      have small : ¬ maxWhole < n * 10 + Numeral.digitValue c :=
        Nat.not_lt_of_le ((le_digits digits _).trans fits)
      rw [Numeral.accumulate, if_neg small]
      exact ih fits

theorem number_of_isWhole {x : Int} {n : Numeral} (stands : (number n).IsWhole x)
    (fits : minWhole ≤ x ∧ x ≤ maxWhole) : n.number = .ok (.whole x) := by
  obtain ⟨digits, same, written, leading, value⟩ := stands
  obtain rfl := Value.number.inj same
  have minWhole_eq : minWhole = -9223372036854775808 := rfl
  have maxWhole_eq : (maxWhole : Int) = 18446744073709551615 := rfl
  have small : digitsValue digits ≤ maxWhole := by omega
  have needless : (digits.head? = some '0' && decide (1 < digits.length)) = false := by
    rw [Bool.and_eq_false_iff, decide_eq_false_iff_not, decide_eq_false_iff_not]
    by_cases zero : digits.head? = some '0'
    · exact .inr (by rw [leading zero]; decide)
    · exact .inl zero
  have read : Numeral.accumulate 0 digits = (x.natAbs, []) := by
    rw [← value]
    exact accumulate_of_le small
  rw [Numeral.number, if_neg written, needless]
  simp only [read, Bool.false_eq_true, if_false, ne_eq, not_true_eq_false, decide_false,
    Option.isSome_none, Bool.or_self]
  by_cases negative : x < 0
  · have fine : (decide (x.natAbs = 0) || decide (-(x.natAbs : Int) < minWhole)) = false := by
      rw [Bool.or_eq_false_iff, decide_eq_false_iff_not, decide_eq_false_iff_not]
      omega
    simp only [negative, decide_true, Bool.not_true, Bool.false_eq_true, if_false, fine]
    exact congrArg (fun y => Except.ok (Number.whole y)) (by omega)
  · simp only [negative, decide_false, Bool.not_false, if_true]
    exact congrArg (fun y => Except.ok (Number.whole y)) (by omega)

theorem readInt_of_isWhole {x low high : Int} {expected : String} (stands : v.IsWhole x)
    (range : low ≤ x ∧ x ≤ high) (fits : minWhole ≤ x ∧ x ≤ maxWhole) :
    v.readInt low high expected = .ok x := by
  obtain ⟨digits, rfl, -⟩ := id stands
  rw [readInt, number_of_isWhole stands fits]
  exact if_pos range

theorem readOption_of_isOptional {α : Type} {read : Value → Reading α}
    {form : α → Value → Prop} {a : Option α} (stands : v.IsOptional form a)
    (reads : ∀ a, form a v → read v = .ok a) (present : ∀ a fault, ¬ form a (.word .null fault)) :
    v.readOption read = .ok a := by
  cases a with
  | none =>
      rw [show v = .word .null none from stands]
      rfl
  | some a =>
      have other : ∀ fault, v = .word .null fault → False := by
        rintro fault rfl
        exact present a fault stands
      rw [readOption, reads a stands]
      · rfl
      · exact other

theorem readList_of_isSequence {α : Type} {read : Value → Reading α} {form : α → Value → Prop}
    {list : List α} (stands : v.IsSequence form list)
    (reads : ∀ a ∈ list, ∀ v, form a v → read v = .ok a) : v.readList read = .ok list := by
  obtain ⟨items, rfl, all⟩ := stands
  have each : readItems read items = .ok list := by
    induction all with
    | nil => rfl
    | cons first _ ih =>
        obtain ⟨here, others⟩ := List.forall_mem_cons.mp reads
        rw [readItems, here _ first, ih others]
        rfl
  rw [readList, each]
  rfl

/-! ### Records -/

/-- A field once it has been read, and before that. -/
def taken {α : Type} (seen : Bool) (a : α) : Option α := if seen then some a else none

@[simp] theorem taken_true {α : Type} (a : α) : taken true a = some a := rfl

@[simp] theorem taken_false {α : Type} (a : α) : taken false a = none := rfl

/-- A field that may be missing is as good as read if there is nothing to say. -/
theorem join_taken {α : Type} {seen : Bool} {a : Option α} (read : seen = true ∨ a = none) :
    (taken seen a).join = a := by
  obtain rfl | rfl := read
  · rfl
  · cases seen <;> rfl

theorem setOnce_taken {α : Type} {read : Value → Reading α} {a : α} {seen : Bool} (name : String)
    (unseen : seen = false) (reads : read v = .ok a) :
    setOnce name (taken seen a) read v = .ok (some a) := by
  rw [unseen, taken_false, setOnce, reads]
  rfl

/-- A reader that succeeds hands on what it has read. -/
theorem ok_bind {α β : Type} (a : α) (f : α → Reading β) : ((.ok a : Reading α) >>= f) = f a := rfl

theorem nextItem_of_ok {α : Type} {read : Value → Reading α} {a : α} (index : Nat)
    (expected : String) (closing : Closing) (rest : List Value) (reads : read v = .ok a) :
    nextItem read index expected closing (v :: rest) = .ok (a, rest) := by
  rw [nextItem, reads]
  rfl

section Members

variable {σ : Type} {member : List Char → Value → σ → Reading σ} {state : (String → Bool) → σ}
  {fields : List Field} {others : Prop} {members : List (String × Value)}

/-- Members are read one after another, and what has been read shows which were there. A reader of
    members may rely on it that no field comes twice. -/
theorem readMembers_of_forall (seen : String → Bool)
    (step : ∀ (seen : String → Bool) (name : String) (v : Value),
      (name ∈ fields.map Field.name → seen name = false) →
      (∀ field ∈ fields, field.name = name → field.admits v) →
      (others ∨ name ∈ fields.map Field.name) → v.Sound →
      member name.toList v (state seen) = .ok (state (Function.update seen name true)))
    {written : List (Value × Value)} (sound : ∀ w ∈ written, w.2.Sound)
    (once : ((members.map Prod.fst).filter (· ∈ fields.map Field.name)).Nodup)
    (given : ∀ field ∈ fields, ∀ v, (field.name, v) ∈ members → field.admits v)
    (known : others ∨ ∀ m ∈ members, m.1 ∈ fields.map Field.name)
    (unseen : ∀ m ∈ members, m.1 ∈ fields.map Field.name → seen m.1 = false)
    (stand : List.Forall₂ (fun m w => IsText m.1 w.1 ∧ w.2 = m.2) members written) :
    readMembers member written (state seen) =
      .ok (state fun name => seen name || decide (name ∈ members.map Prod.fst)) := by
  -- That the fields to come are unseen is kept by `once`: a name that is seen now does not come again.
  induction stand generalizing seen with
  | nil => simp [readMembers]
  | @cons m w members written first _ ih =>
      obtain ⟨name, v⟩ := m
      obtain ⟨key, item⟩ := w
      obtain ⟨keyed, rfl⟩ := first
      obtain ⟨here, soundRest⟩ := List.forall_mem_cons.mp sound
      obtain ⟨unseenHere, unseenRest⟩ := List.forall_mem_cons.mp unseen
      have once' : name ∈ fields.map Field.name → name ∉ members.map Prod.fst := by
        intro field again
        rw [List.map_cons, List.filter_cons_of_pos (by simpa using field)] at once
        exact (List.nodup_cons.mp once).1 (List.mem_filter.mpr ⟨again, by simpa using field⟩)
      have taken := step seen name item unseenHere
        (fun field member same => given field member item (same ▸ List.mem_cons_self))
        (known.imp_right fun all => all _ List.mem_cons_self) here
      have unseenThen : ∀ m ∈ members, m.1 ∈ fields.map Field.name →
          Function.update seen name true m.1 = false := by
        intro m member field
        have other : m.1 ≠ name := by
          rintro rfl
          exact once' field (List.mem_map_of_mem member)
        rw [Function.update_of_ne other]
        exact unseenRest m member field
      have rest := ih (Function.update seen name true) soundRest
        (once.sublist ((List.sublist_cons_self _ _).filter _))
        (fun field member v there => given field member v (List.mem_cons_of_mem _ there))
        (known.imp_right fun all m member => all m (List.mem_cons_of_mem _ member)) unseenThen
      have same : (fun other => Function.update seen name true other ||
          decide (other ∈ members.map Prod.fst)) =
          fun other => seen other || decide (other ∈ ((name, item) :: members).map Prod.fst) := by
        funext other
        by_cases isName : other = name
        · simp [isName]
        · simp only [Function.update_of_ne isName, List.map_cons, List.mem_cons, isName, false_or]
      rw [readMembers, readKey_of_isText keyed]
      show (member name.toList item (state seen) >>= readMembers member written) = _
      rw [taken, ← same]
      exact rest

/-- What an object is read to, if it begins with nothing read. -/
theorem readMembers_of_isObject
    (step : ∀ (seen : String → Bool) (name : String) (v : Value),
      (name ∈ fields.map Field.name → seen name = false) →
      (∀ field ∈ fields, field.name = name → field.admits v) →
      (others ∨ name ∈ fields.map Field.name) → v.Sound →
      member name.toList v (state seen) = .ok (state (Function.update seen name true)))
    {v : Value} (sound : v.Sound) (gives : Gives fields others members)
    (object : v.IsObject members) :
    ∃ written seen, v = .object written .closed ∧
      readMembers member written (state fun _ => false) = .ok (state seen) ∧
      ∀ field ∈ fields, seen field.name = true ∨ field.optional := by
  obtain ⟨written, rfl, stand⟩ := object
  have soundMembers : ∀ w ∈ written, w.2.Sound := by
    cases sound with
    | object keys sound => exact sound
  have read := readMembers_of_forall (fun _ => false) step soundMembers gives.once gives.given gives.known
    (fun _ _ _ => rfl) stand
  refine ⟨written, _, rfl, read, fun field member => ?_⟩
  refine (gives.complete field member).imp_left fun there => ?_
  rw [Bool.false_or, decide_eq_true_eq]
  exact there

end Members

end Value

end Postmortem.Json

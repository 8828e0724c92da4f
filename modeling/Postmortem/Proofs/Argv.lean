import Mathlib
import Postmortem.Argv
import Postmortem.Proofs.CString

/-! # Filling in templates

An argument of a template is replaced for itself and at most once: what has been put in is not looked
at again, even if it is a token. Every template that is accepted leaves slots over, so whoever goes
through the vector comes to a null right behind the last argument.
-/

namespace Postmortem

/-- The C string that a text spells. -/
def CString.spelled (text : String) : CString := .untilNul (utf8 text)

theorem CString.text_eq_spelled (s : String) (plain : (0 : UInt8) ∉ utf8 s) :
    CString.text s plain = .spelled s :=
  (untilNul_bytes (.text s plain)).symm

namespace Argv

variable {command argument token value : CString} {template : List CString} {table : Substitutions}
  {i : Nat}

/-! ## One argument -/

/-- What an argument of a template becomes. -/
inductive Becomes (command : CString) (table : Substitutions) : CString → CString → Prop where
  /-- The command goes before any entry for its token. -/
  | command : Becomes command table (.text "$cmd") command
  /-- Of the entries for a token the first counts. -/
  | entry {token value : CString} {before after : Substitutions} (other : token ≠ .text "$cmd")
      (found : table = before ++ (token, value) :: after) (first : ∀ e ∈ before, e.1 ≠ token) :
      Becomes command table token value
  /-- What is no token stays as it is. -/
  | itself {argument : CString} (other : argument ≠ .text "$cmd")
      (absent : ∀ e ∈ table, e.1 ≠ argument) : Becomes command table argument argument

theorem substitute_command : substitute command table (.text "$cmd") = command := if_pos rfl

theorem substitute_of_find? (other : argument ≠ .text "$cmd") :
    substitute command table argument =
      ((table.find? fun e => e.1 = argument).map (·.2)).getD argument := by
  rw [substitute, commandToken, if_neg other]
  cases table.find? fun e => e.1 = argument with
  | none => rfl
  | some e => rfl

theorem becomes_substitute (command argument : CString) (table : Substitutions) :
    Becomes command table argument (substitute command table argument) := by
  by_cases other : argument = .text "$cmd"
  · rw [other, substitute_command]
    exact .command
  · rw [substitute_of_find? other]
    cases sought : table.find? fun e => e.1 = argument with
    | none => exact .itself other (by simpa using sought)
    | some e =>
        obtain ⟨token, value⟩ := e
        obtain ⟨same, before, after, split, first⟩ := List.find?_eq_some_iff_append.mp sought
        obtain rfl : token = argument := by simpa using same
        exact .entry other split (by simpa using first)

theorem Becomes.eq_substitute (h : Becomes command table argument value) :
    value = substitute command table argument := by
  cases h with
  | command => exact substitute_command.symm
  | @entry _ _ before after other split first =>
      have sought : (table.find? fun e => e.1 = argument) = some (argument, value) :=
        List.find?_eq_some_iff_append.mpr ⟨by simp, before, after, split, by simpa using first⟩
      rw [substitute_of_find? other, sought]
      rfl
  | itself other absent =>
      have sought : (table.find? fun e => e.1 = argument) = none :=
        List.find?_eq_none.mpr (by simpa using absent)
      rw [substitute_of_find? other, sought]
      rfl

/-- Every argument becomes one thing and nothing else. -/
theorem becomes_iff :
    Becomes command table argument value ↔ value = substitute command table argument :=
  ⟨Becomes.eq_substitute, fun same => same ▸ becomes_substitute command argument table⟩

theorem substitute_nil (command argument : CString) :
    substitute command [] argument = if argument = .text "$cmd" then command else argument :=
  rfl

/-- An argument is replaced for the first token that it is. -/
theorem substitute_cons (command token value argument : CString) (table : Substitutions) :
    substitute command ((token, value) :: table) argument =
      if argument = .text "$cmd" then command
      else if argument = token then value
      else substitute command table argument := by
  by_cases isCommand : argument = .text "$cmd"
  · rw [if_pos isCommand, isCommand, substitute_command]
  · rw [if_neg isCommand, substitute_of_find? isCommand, substitute_of_find? isCommand]
    by_cases isToken : argument = token
    · rw [if_pos isToken, List.find?_cons_of_pos (by simpa using isToken.symm)]
      rfl
    · rw [if_neg isToken, List.find?_cons_of_neg (by simpa using Ne.symm isToken)]

/-! ## The vector -/

/-- The vector for a template, however long that is. -/
def filled (command : CString) (template : List CString) (table : Substitutions) : Argv :=
  ⟨(template.map fun argument => some (substitute command table argument)) ++
    List.replicate (slotCount - template.length) none, template.length⟩

theorem build_error (command : CString) (table : Substitutions) (long : 30 < template.length) :
    build command template table = .error ⟨template.length⟩ := by
  have full : slotCount ≤ template.length + 1 := by
    rw [slotCount]
    omega
  exact if_pos full

theorem build_ok (command : CString) (table : Substitutions) (short : template.length ≤ 30) :
    build command template table = .ok (filled command template table) := by
  have fits : ¬ slotCount ≤ template.length + 1 := by
    rw [slotCount]
    omega
  exact if_neg fits

theorem get?_filled :
    (filled command template table).get? i = template[i]?.map (substitute command table) := by
  rw [get?, filled]
  split
  · next inside =>
    have here : i < (template.map fun argument =>
        some (substitute command table argument)).length := by
      rwa [List.length_map]
    rw [List.getElem?_append_left here, List.getElem?_map, List.getElem?_eq_getElem inside]
    rfl
  · next outside => rw [List.getElem?_eq_none (Nat.le_of_not_lt outside), Option.map_none]

theorem get?_filled_of_le (outside : template.length ≤ i) :
    (filled command template table).get? i = none := by
  rw [get?_filled, List.getElem?_eq_none outside, Option.map_none]

/-- A slot holds the argument of its number, or null if there is none. -/
theorem slots_filled (short : template.length ≤ slotCount) (inside : i < slotCount) :
    (filled command template table).slots[i]? =
      some ((filled command template table).get? i) := by
  rw [get?_filled, filled]
  by_cases here : i < template.length
  · rw [List.getElem?_append_left (by rwa [List.length_map]), List.getElem?_map,
      List.getElem?_eq_getElem here]
    rfl
  · rw [Nat.not_lt] at here
    rw [List.getElem?_append_right (by rwa [List.length_map]), List.length_map,
      List.getElem?_replicate_of_lt (by omega), List.getElem?_eq_none here, Option.map_none]

theorem length_slots_filled (short : template.length ≤ slotCount) :
    (filled command template table).slots.length = slotCount := by
  rw [filled, List.length_append, List.length_map, List.length_replicate,
    Nat.add_sub_cancel' short]

/-- The started program sees the arguments of the template, each replaced for itself. -/
theorem toList_filled (fits : template.length < slotCount) :
    (filled command template table).toList = template.map (substitute command table) := by
  have present : ∀ slot ∈ template.map fun argument => some (substitute command table argument),
      Option.isSome slot := by
    intro slot member
    obtain ⟨argument, -, rfl⟩ := List.mem_map.mp member
    rfl
  obtain ⟨empty, more⟩ : ∃ empty, slotCount - template.length = empty + 1 :=
    ⟨slotCount - template.length - 1, by omega⟩
  have taken : (filled command template table).slots.takeWhile Option.isSome =
      template.map fun argument => some (substitute command table argument) := by
    rw [filled, more, List.replicate_succ, List.takeWhile_append_of_pos present]
    simp
  rw [toList, taken, List.filterMap_map]
  exact List.filterMap_eq_map' ▸ rfl

/-- A template has been filled into a vector. -/
structure Fills (command : CString) (table : Substitutions) (template : List CString)
    (argv : Argv) : Prop where
  size : argv.size = template.length
  inside : ∀ i argument, template[i]? = some argument →
    ∃ value, argv.get? i = some value ∧
      ∀ other, Becomes command table argument other ↔ other = value
  outside : ∀ i, template.length ≤ i → argv.get? i = none
  length_slots : argv.slots.length = 32
  slots : ∀ i < 32, argv.slots[i]? = some (argv.get? i)
  null : ∀ i, template.length ≤ i → i < 32 → argv.slots[i]? = some none
  terminated : argv.isTerminated = true
  /-- The arguments up to the first null are those that the vector says it has. -/
  seen : argv.toList = (List.range template.length).filterMap argv.get?

theorem filterMap_range_getElem? {α β : Type} (f : α → β) (l : List α) :
    (List.range l.length).filterMap (fun i => l[i]?.map f) = l.map f := by
  induction l with
  | nil => rfl
  | cons a l ih =>
      rw [List.length_cons, List.range_succ_eq_map, List.filterMap_cons, List.filterMap_map]
      exact congrArg (f a :: ·) ih

theorem fills_filled (short : template.length ≤ 30) :
    Fills command table template (filled command template table) := by
  have spare : template.length < slotCount := Nat.lt_of_le_of_lt short (by decide)
  have slots (i : Nat) (here : i < slotCount) :
      (filled command template table).slots[i]? =
        some ((filled command template table).get? i) :=
    slots_filled (Nat.le_of_lt spare) here
  have null (i : Nat) (outside : template.length ≤ i) (here : i < slotCount) :
      (filled command template table).slots[i]? = some none := by
    rw [slots i here, get?_filled_of_le outside]
  refine ⟨rfl, fun i argument here => ?_, fun i => get?_filled_of_le,
    length_slots_filled (Nat.le_of_lt spare), slots, null, ?_, ?_⟩
  · refine ⟨substitute command table argument, ?_, fun other => becomes_iff⟩
    rw [get?_filled, here, Option.map_some]
  · exact decide_eq_true (null _ (Nat.le_refl _) spare)
  · rw [toList_filled spare]
    simp only [get?_filled, filterMap_range_getElem?]

/-- A template of more than thirty arguments is refused. Any other is filled in, each argument
    replaced for itself and once, and the rest of the slots are null. -/
theorem build_pointwise (command : CString) (template : List CString) (table : Substitutions) :
    (31 ≤ template.length →
      build command template table = .error (TooManyArguments.mk template.length)) ∧
    (template.length < 31 →
      ∃ argv, build command template table = .ok argv ∧ Fills command table template argv) := by
  refine ⟨fun long => build_error command table long, fun short => ?_⟩
  have short : template.length ≤ 30 := Nat.le_of_lt_succ short
  exact ⟨_, build_ok command table short, fills_filled short⟩

/-- Two entries for one token, an entry for the token of the command, and tokens as values. -/
def tokenTable : Substitutions :=
  [(.spelled "$a", .spelled "$b"), (.spelled "$a", .spelled "x"), (.spelled "$cmd", .spelled "y"),
    (.spelled "$b", .spelled "$cmd")]

/-- What has been put in is not replaced again, up to the longest template there can be. -/
theorem build_tokens :
    (∃ argv, build (.spelled "$a")
        (.spelled "$cmd" :: .spelled "$a" :: List.replicate 28 (.spelled "$b")) tokenTable =
          .ok argv ∧
      argv.toList = .spelled "$a" :: .spelled "$b" :: List.replicate 28 (.spelled "$cmd") ∧
      argv.slots[30]? = some none) ∧
    build (.spelled "$a") (List.replicate 31 (.spelled "$cmd")) tokenTable = .error ⟨31⟩ := by
  constructor
  · obtain ⟨argv, built, fills⟩ := (build_pointwise (.spelled "$a")
      (.spelled "$cmd" :: .spelled "$a" :: List.replicate 28 (.spelled "$b")) tokenTable).2
        (by decide)
    refine ⟨argv, built, ?_, fills.null 30 (by decide) (by decide)⟩
    cases built
    decide +kernel
  · exact (build_pointwise (.spelled "$a") (List.replicate 31 (.spelled "$cmd")) tokenTable).1
      (by decide)

end Argv

end Postmortem

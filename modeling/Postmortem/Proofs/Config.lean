import Mathlib.Data.List.Sort
import Postmortem.Config

/-! # What a configuration has to be

The check of a configuration passes exactly those that are valid. Changes in place keep them valid:
each of the two settings of the alternative stack is held back by the other, and a change that is
refused has not touched anything.
-/

namespace Postmortem.Config

/-! ## Repeated signals -/

theorem length_withoutRepeats_le (list : List Int) :
    (withoutRepeats list).length ≤ list.length := by
  induction list using withoutRepeats.induct with
  | case1 | case2 => exact le_rfl
  | case3 n rest ih =>
      rw [withoutRepeats, if_pos rfl]
      exact ih.trans (Nat.le_succ _)
  | case4 n m rest differ ih =>
      rw [withoutRepeats, if_neg differ]
      exact Nat.succ_le_succ ih

/-- In order, what is equal is adjacent. -/
theorem length_withoutRepeats_eq_iff {list : List Int} (sorted : list.Pairwise (· ≤ ·)) :
    (withoutRepeats list).length = list.length ↔ list.Nodup := by
  induction list using withoutRepeats.induct with
  | case1 => simp [withoutRepeats]
  | case2 n => simp [withoutRepeats]
  | case3 n rest ih =>
      have shorter := length_withoutRepeats_le (n :: rest)
      rw [withoutRepeats, if_pos rfl]
      refine iff_of_false (fun same => ?_) fun distinct => ?_
      · rw [same, List.length_cons] at shorter
        omega
      · exact (List.nodup_cons.mp distinct).1 List.mem_cons_self
  | case4 n m rest differ ih =>
      obtain ⟨first, others⟩ := List.pairwise_cons.mp sorted
      -- Nothing after `m` is smaller than `m`, so `n` does not come back behind it.
      have below : n ∉ m :: rest := by
        intro member
        obtain rfl | later := List.mem_cons.mp member
        · exact differ rfl
        · have le := first m List.mem_cons_self
          have ge := (List.pairwise_cons.mp others).1 n later
          exact differ (le_antisymm le ge)
      rw [withoutRepeats, if_neg differ, List.length_cons, List.length_cons, Nat.succ_inj,
        ih others, List.nodup_cons (a := n), and_iff_right below]

theorem repeats_eq_false_iff (signals : List Int) : repeats signals = false ↔ signals.Nodup := by
  have sorted : (signals.mergeSort fun n m => decide (n ≤ m)).Pairwise (· ≤ ·) :=
    List.pairwise_mergeSort' (· ≤ ·) signals
  rw [repeats, decide_eq_false_iff_not, not_not, ← List.length_mergeSort signals,
    length_withoutRepeats_eq_iff sorted, List.nodup_mergeSort]

/-! ## The check -/

/-- What a configuration has to be. -/
structure Valid (c : Config) : Prop where
  /-- An alternative stack is created only to be used. -/
  used : c.createAltStack = true → c.useAltStack = true
  named : c.logStem ≠ ""
  /-- Log files do not end up in another directory. -/
  plain : '/' ∉ c.logStem.toList
  placed : c.tempDirectory ≠ some ""
  distinct : c.signals.Nodup
  exist : ∀ n ∈ c.signals, 1 ≤ n ∧ n ≤ 31

theorem ofNumber?_eq_none_iff (n : Int) : Signal.ofNumber? n = none ↔ ¬ (1 ≤ n ∧ n ≤ 31) := by
  have range : (1 ≤ n.toNat ∧ n.toNat ≤ 31) ↔ (1 ≤ n ∧ n ≤ 31) := by omega
  rw [← range, Signal.ofNumber?]
  split
  case isTrue valid => exact iff_of_false nofun (not_not_intro valid)
  case isFalse invalid => exact iff_of_true rfl invalid

theorem firstInvalid_eq_none_iff (signals : List Int) :
    firstInvalid signals = none ↔ ∀ n ∈ signals, 1 ≤ n ∧ n ≤ 31 := by
  simp only [firstInvalid, List.find?_eq_none, Option.isNone_iff_eq_none, ofNumber?_eq_none_iff,
    not_not]

theorem ite_error_iff {p : Prop} [Decidable p] {e : ConfigError} {r : Except ConfigError Unit} :
    (if p then .error e else r) = .ok () ↔ ¬ p ∧ r = .ok () := by
  split
  case isTrue refused => exact iff_of_false nofun fun both => both.1 refused
  case isFalse fine => exact (and_iff_right fine).symm

theorem validate_iff (c : Config) : c.validate = .ok () ↔ c.Valid := by
  have empty (s : String) : s.toList.isEmpty = true ↔ s = "" := by
    rw [List.isEmpty_iff, String.toList_eq_nil_iff]
  have used : ¬ (c.createAltStack && !c.useAltStack) = true ↔
      (c.createAltStack = true → c.useAltStack = true) := by
    simp
  have stem : ¬ (c.logStem.toList.isEmpty || c.logStem.toList.contains '/') = true ↔
      c.logStem ≠ "" ∧ '/' ∉ c.logStem.toList := by
    rw [Bool.or_eq_true, not_or, empty, List.contains_iff_mem]
  have placed : ¬ c.tempDirectory.any (·.toList.isEmpty) = true ↔ c.tempDirectory ≠ some "" := by
    cases c.tempDirectory with
    | none => simp
    | some directory => simp
  have distinct : ¬ repeats c.signals = true ↔ c.signals.Nodup := by
    rw [Bool.not_eq_true, repeats_eq_false_iff]
  have exist := firstInvalid_eq_none_iff c.signals
  rw [validate, ite_error_iff, ite_error_iff, ite_error_iff, ite_error_iff, used, stem, placed,
    distinct]
  cases first : firstInvalid c.signals with
  | some n =>
      rw [first] at exist
      exact iff_of_false (fun passed => nomatch passed.2.2.2.2)
        fun valid => nomatch exist.mpr valid.exist
  | none =>
      constructor
      · rintro ⟨used, ⟨named, plain⟩, placed, distinct, -⟩
        exact ⟨used, named, plain, placed, distinct, exist.mp first⟩
      · intro valid
        exact ⟨valid.used, ⟨valid.named, valid.plain⟩, valid.placed, valid.distinct, rfl⟩

theorem checked_eq_ok_iff {c c' : Config} : c.checked = .ok c' ↔ c.Valid ∧ c = c' := by
  rw [← validate_iff, checked]
  cases c.validate with
  | error e => exact ⟨nofun, fun h => nomatch h.1⟩
  | ok => exact ⟨fun h => ⟨rfl, Except.ok.inj h⟩, fun h => congrArg Except.ok h.2⟩

/-! ## Requests -/

/-- What a request has to be. -/
structure Request.Valid (r : Request) : Prop where
  used : r.createAltStack = true → r.useAltStack = true
  named : ∀ stem ∈ r.logStem, stem ≠ "" ∧ '/' ∉ stem.toList
  placed : r.tempDirectory ≠ some ""
  distinct : r.signals.Nodup
  exist : ∀ n ∈ r.signals, 1 ≤ n ∧ n ≤ 31

/-- What is left open takes values that are valid. -/
theorem Request.valid_config_iff (r : Request) : r.config.Valid ↔ r.Valid := by
  have stem : (r.config.logStem ≠ "" ∧ '/' ∉ r.config.logStem.toList) ↔
      ∀ stem ∈ r.logStem, stem ≠ "" ∧ '/' ∉ stem.toList := by
    rw [Request.config]
    cases r.logStem with
    | none => simp [defaultLogStem]
    | some stem => simp
  have signals : (r.config.signals.Nodup ∧ ∀ n ∈ r.config.signals, 1 ≤ n ∧ n ≤ 31) ↔
      (r.signals.Nodup ∧ ∀ n ∈ r.signals, 1 ≤ n ∧ n ≤ 31) := by
    rw [Request.config]
    cases r.signals with
    | nil => simp [Signal.defaults]; decide
    | cons n rest => rfl
  constructor
  · intro valid
    obtain ⟨distinct, exist⟩ := signals.mp ⟨valid.distinct, valid.exist⟩
    exact ⟨valid.used, stem.mp ⟨valid.named, valid.plain⟩, valid.placed, distinct, exist⟩
  · intro valid
    obtain ⟨named, plain⟩ := stem.mpr valid.named
    obtain ⟨distinct, exist⟩ := signals.mpr ⟨valid.distinct, valid.exist⟩
    exact ⟨valid.used, named, plain, valid.placed, distinct, exist⟩

theorem ofRequest_eq_ok_iff {r : Request} {c : Config} :
    ofRequest r = .ok c ↔ r.Valid ∧ r.config = c := by
  rw [ofRequest, checked_eq_ok_iff, Request.valid_config_iff]

theorem valid_standard : standard.Valid :=
  (Request.none.valid_config_iff).mpr
    ⟨nofun, nofun, nofun, List.nodup_nil, nofun⟩

/-! ## Changes -/

variable {c c' : Config}

theorem make_createAltStack (on : Bool) (c : Config) :
    make (assign .createAltStack on) c =
      if !on || c.useAltStack then (.ok (), { c with createAltStack := on })
      else (.error .unusedAltStack, c) := by
  obtain ⟨_, _, _, _, _, _, _, _, _, _, _, useAltStack⟩ := c
  cases on <;> cases useAltStack <;> rfl

theorem make_useAltStack (on : Bool) (c : Config) :
    make (assign .useAltStack on) c =
      if !c.createAltStack || on then (.ok (), { c with useAltStack := on })
      else (.error .unusedAltStack, c) := by
  obtain ⟨createAltStack, _, _, _, _, _, _, _, _, _, _, _⟩ := c
  cases on <;> cases createAltStack <;> rfl

/-- A change that is refused has not touched anything. -/
theorem make_of_error {setting : Setting} {on : Bool} {e : ConfigError}
    (refused : make (assign setting on) c = (.error e, c')) : c' = c := by
  cases setting with
  | fatalStackLogging | trapOnDebugger => cases refused
  | createAltStack =>
      rw [make_createAltStack] at refused
      split at refused <;> cases refused
      rfl
  | useAltStack =>
      rw [make_useAltStack] at refused
      split at refused <;> cases refused
      rfl

theorem Valid.make (valid : c.Valid) (setting : Setting) (on : Bool) :
    (make (assign setting on) c).2.Valid := by
  cases setting with
  | fatalStackLogging | trapOnDebugger => exact { valid with }
  | createAltStack =>
      rw [make_createAltStack]
      split
      case isTrue fine =>
        have used (created : on = true) : c.useAltStack = true := by simpa [created] using fine
        exact { valid with used }
      case isFalse => exact valid
  | useAltStack =>
      rw [make_useAltStack]
      split
      case isTrue fine =>
        have used (created : c.createAltStack = true) : on = true := by simpa [created] using fine
        exact { valid with used }
      case isFalse => exact valid

/-- The configuration after some changes, also if some were refused. -/
def after (c : Config) (changes : List (Setting × Bool)) : Config :=
  changes.foldl (fun c (setting, on) => (make (assign setting on) c).2) c

theorem Valid.after (valid : c.Valid) (changes : List (Setting × Bool)) :
    (c.after changes).Valid := by
  induction changes generalizing c with
  | nil => exact valid
  | cons change changes ih => exact ih (valid.make change.1 change.2)

end Postmortem.Config

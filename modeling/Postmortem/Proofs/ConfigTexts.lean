import Postmortem.Proofs.Config
import Postmortem.Proofs.ConfigDocuments
import Postmortem.Proofs.JsonSpellings

/-! # Configurations and texts

The text of a configuration is one of the many documents that stand for it, and every document that
stands for a valid configuration is read as this configuration. So nothing is lost between the two,
and no way to a configuration leads to one that is not valid.
-/

namespace Postmortem

open Json Json.Value

/-! ## Texts of configurations -/

theorem Duration.spells (d : Duration) : d.toJson.Spells d.IsWritten := by
  have seconds : d.seconds.toNat < 2 ^ 64 := d.seconds.toNat_lt_size
  have nanos : d.nanos < 1000000000 := d.nanos_lt
  have record : d.toJson.Spells (IsRecord (fields d.seconds.toNat d.nanos) False) :=
    spells_record (by simp [fields])
      (.cons ⟨rfl, spells_whole _⟩ <| .cons ⟨rfl, spells_whole _⟩ .nil)
  exact record.imp fun w stands =>
    ⟨d.seconds.toNat, d.nanos, seconds, by omega, by omega, Nat.mod_eq_of_lt nanos, stands⟩

theorem UnwinderKind.spells (kind : UnwinderKind) : kind.toJson.Spells kind.IsWritten :=
  (spells_text kind.name).imp fun _ => .inl

namespace CommandConfig

theorem spells_optional {α : Type} {write : α → Value} {form : α → Value → Prop}
    (spells : ∀ a, (write a).Spells (form a)) (a : Option α) :
    (optional write a).Spells (IsOptional form a) := by
  cases a with
  | none => exact spells_word .null
  | some a => exact spells a

theorem spells_texts (list : List String) : (texts list).Spells (IsSequence IsText list) :=
  spells_sequence fun text _ => spells_text text

theorem spells (c : CommandConfig) : c.toJson.Spells c.IsWritten :=
  spells_record (by simp [fields])
    (.cons ⟨rfl, spells_optional spells_text _⟩ <| .cons ⟨rfl, spells_optional spells_texts _⟩ <|
      .cons ⟨rfl, spells_optional spells_texts _⟩ .nil)

end CommandConfig

namespace Config

open CommandConfig (spells_optional)

theorem spells_truth (b : Bool) : (ofBool b).Spells (IsTruth b) := spells_word _

theorem spells (c : Config) : c.toJson.Spells c.IsWritten :=
  spells_record (by simp [fields])
    (.cons ⟨rfl, spells_truth _⟩ <| .cons ⟨rfl, spells_truth _⟩ <| .cons ⟨rfl, spells_text _⟩ <|
      .cons ⟨rfl, spells_optional CommandConfig.spells _⟩ <| .cons ⟨rfl, Duration.spells _⟩ <|
      .cons ⟨rfl, spells_optional CommandConfig.spells _⟩ <| .cons ⟨rfl, Duration.spells _⟩ <|
      .cons ⟨rfl, spells_sequence fun n _ => spells_whole n⟩ <|
      .cons ⟨rfl, spells_optional spells_text _⟩ <| .cons ⟨rfl, spells_truth _⟩ <|
      .cons ⟨rfl, UnwinderKind.spells _⟩ <| .cons ⟨rfl, spells_truth _⟩ .nil)

/-- The text holds what stands for the configuration and nothing else. -/
theorem laid_toText (c : Config) :
    ∃ v : Value, v.Sound ∧ c.IsWritten v ∧ Laid v.tokens c.toText.toList := by
  obtain ⟨w, stands, sound, laid⟩ := c.spells
  have noNumber : ¬ ∃ n, w = .number n := by
    rintro ⟨n, rfl⟩
    obtain ⟨_, ⟨_, same, -⟩, -⟩ | ⟨_, same, -⟩ := stands <;> cases same
  have whole := laid [] [] (absurd · noNumber) .nil
  rw [List.append_nil, List.append_nil] at whole
  refine ⟨w, sound, stands, ?_⟩
  rw [toText, String.toList_ofList]
  exact whole

/-! ## Reading them -/

variable {c : Config} {v : Value} {text : String}

theorem read_of_laid (sound : v.Sound) (laid : Laid v.tokens text.toList) (stands : c.IsWritten v)
    (exist : ∀ n ∈ c.signals, 1 ≤ n ∧ n ≤ 31) : read text = .ok c := by
  have small : ∀ n ∈ c.signals, Int32.minValue.toInt ≤ n ∧ n ≤ Int32.maxValue.toInt := by
    intro n member
    have low : Int32.minValue.toInt = -2147483648 := rfl
    have high : Int32.maxValue.toInt = 2147483647 := rfl
    have range := exist n member
    omega
  rw [read, Document.ofChars_of_laid sound laid, ofJson_of_isWritten small sound stands]
  rfl

theorem ofText_eq_ok_iff : ofText text = .ok c ↔ read text = .ok c ∧ c.Valid := by
  rw [ofText]
  cases read text with
  | error e => exact ⟨nofun, fun h => nomatch h.1⟩
  | ok found =>
      have mapped : found.checked.mapError TextError.refused = .ok c ↔ found.checked = .ok c := by
        cases found.checked with
        | error e => exact ⟨nofun, nofun⟩
        | ok => exact ⟨fun | rfl => rfl, fun | rfl => rfl⟩
      refine mapped.trans (checked_eq_ok_iff.trans ⟨?_, ?_⟩)
      · rintro ⟨valid, rfl⟩
        exact ⟨rfl, valid⟩
      · rintro ⟨same, valid⟩
        cases same
        exact ⟨valid, rfl⟩

/-- Whatever its order, its spaces and its other members, a document of a configuration is accepted
    if and only if the configuration is valid. -/
theorem ofText_of_laid (sound : v.Sound) (laid : Laid v.tokens text.toList)
    (stands : c.IsWritten v) : ofText text = .ok c ↔ c.Valid :=
  ⟨fun made => (ofText_eq_ok_iff.mp made).2,
    fun valid => ofText_eq_ok_iff.mpr ⟨read_of_laid sound laid stands valid.exist, valid⟩⟩

/-- Reading takes back writing. -/
theorem ofText_toText (valid : c.validate = .ok ()) : ofText c.toText = .ok c := by
  obtain ⟨v, sound, stands, laid⟩ := c.laid_toText
  exact (ofText_of_laid sound laid stands).mpr ((validate_iff c).mp valid)

/-- A valid configuration with texts that have to be escaped. -/
def escaped : Config where
  createAltStack := true
  fatalStackLogging := true
  logStem := "a \"stem\" \\ \n\x00\x1f\x7f é 😀"
  postmortem := some ⟨some "gdb", some [], some ["-p", "%p", ""]⟩
  postmortemTimeout := ⟨18446744073709551615, 999999999, by decide⟩
  sessionLogger := some ⟨none, none, some ["\u2028"]⟩
  sessionTimeout := .ofSeconds 0
  signals := [11, 6, 31, 1]
  tempDirectory := some "/tmp/\t"
  trapOnDebugger := false
  unwinder := .execinfo
  useAltStack := true

theorem valid_escaped : escaped.Valid where
  used := fun _ => rfl
  named := by decide
  plain := by decide
  placed := by decide
  distinct := by decide
  exist := by decide

theorem ofText_escaped : escaped.validate = .ok () ∧ ofText escaped.toText = .ok escaped := by
  have passed := (validate_iff escaped).mpr valid_escaped
  exact ⟨passed, ofText_toText passed⟩

/-! ## The ways to a configuration -/

/-- Where configurations come from. -/
inductive Begun : Config → Prop where
  | standard : Begun .standard
  | request {r : Request} {c : Config} (made : ofRequest r = .ok c) : Begun c
  | text {text : String} {c : Config} (made : ofText text = .ok c) : Begun c

theorem Begun.valid (begun : Begun c) : c.Valid := by
  cases begun with
  | standard => exact valid_standard
  | request made =>
      obtain ⟨valid, rfl⟩ := ofRequest_eq_ok_iff.mp made
      exact (Request.valid_config_iff _).mpr valid
  | text made => exact (ofText_eq_ok_iff.mp made).2

/-- Every configuration that can be had is valid, what is valid can be had by a request and by any
    document of it, and a change that is refused changes nothing. -/
theorem exactly_valid :
    (∀ c, Begun c → ∀ changes, (c.after changes).Valid) ∧
      (∀ r : Request, ofRequest r = .ok r.config ↔ r.Valid) ∧
      (∀ (v : Value) (text : String) (c : Config), v.Sound → Laid v.tokens text.toList →
        c.IsWritten v → (ofText text = .ok c ↔ c.Valid)) ∧
      ∀ setting on c c' e, make (assign setting on) c = (.error e, c') → c' = c := by
  refine ⟨fun c begun changes => begun.valid.after changes, fun r => ?_,
    fun v text c sound laid stands => ofText_of_laid sound laid stands,
    fun setting on c c' e refused => make_of_error refused⟩
  rw [ofRequest_eq_ok_iff]
  exact and_iff_left rfl

/-- The document of a configuration, a request for one signal, and a stack that is still created and
    so cannot be left unused. -/
theorem exactly_valid_escaped :
    ofText escaped.toText = .ok escaped ∧
      (escaped.after [(.useAltStack, false), (.createAltStack, false), (.useAltStack, false)]).Valid ∧
      (ofRequest { Request.none with signals := [11] }).isOk = true ∧
      ∃ c, make (assign .useAltStack false) escaped = (.error .unusedAltStack, c) ∧ c = escaped := by
  obtain ⟨always, requests, texts, refused⟩ := exactly_valid
  obtain ⟨v, sound, stands, laid⟩ := escaped.laid_toText
  have made := (texts v escaped.toText escaped sound laid stands).mpr valid_escaped
  have asked : Request.Valid { Request.none with signals := [11] } :=
    ⟨nofun, nofun, nofun, by decide, by decide⟩
  refine ⟨made, always escaped (.text made) _, ?_, escaped, rfl, ?_⟩
  · rw [(requests _).mpr asked]
    rfl
  · exact refused .useAltStack false escaped escaped .unusedAltStack rfl

end Config

end Postmortem

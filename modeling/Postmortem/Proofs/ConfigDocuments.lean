import Postmortem.Config.Json
import Postmortem.Proofs.JsonContents

/-! # Configurations in documents

Which values stand for a configuration, and that such a value is read as this configuration. The
form is the usual one of records: an object with the members in any order, in which what may be null
may also be missing and what is not known does not matter, or the bare sequence of the fields.
-/

namespace Postmortem

open Json Json.Value

/-! ## Durations -/

namespace Duration

variable {d : Duration} {v : Value}

/-- What a duration with these seconds and nanoseconds has to say. -/
def fields (seconds nanos : Nat) : List Field :=
  [⟨"secs", IsWhole seconds, False⟩, ⟨"nanos", IsWhole nanos, False⟩]

/-- The value is a duration: seconds and nanoseconds, of which whole seconds are carried. -/
def IsWritten (d : Duration) (v : Value) : Prop :=
  ∃ seconds nanos : Nat, seconds < 2 ^ 64 ∧ nanos < 2 ^ 32 ∧
    seconds + nanos / 1000000000 = d.seconds.toNat ∧ nanos % 1000000000 = d.nanos ∧
    v.IsRecord (fields seconds nanos) False

theorem ofFields_eq {seconds nanos : Nat} (fits : seconds < 2 ^ 64)
    (carried : seconds + nanos / 1000000000 = d.seconds.toNat)
    (rest : nanos % 1000000000 = d.nanos) : ofFields seconds nanos = .ok d := by
  have whole : (UInt64.ofNat seconds).toNat = seconds := UInt64.toNat_ofNat_of_lt' fits
  have small : d.seconds.toNat < UInt64.size := d.seconds.toNat_lt_size
  have parts : ofParts? (.ofNat seconds) nanos = some d := by
    simp only [ofParts?, whole, nanosPerSecond, carried, rest, if_pos small, UInt64.ofNat_toNat]
  rw [ofFields, Int.toNat_natCast, Int.toNat_natCast, parts]

/-- The fields of which so many have been read. -/
def Fields.seen (seconds nanos : Int) (seen : String → Bool) : Fields :=
  ⟨taken (seen "secs") seconds, taken (seen "nanos") nanos⟩

theorem readSeconds_of_isWhole {n : Nat} (fits : n < 2 ^ 64) (stands : v.IsWhole n) :
    readSeconds v = .ok (n : Int) := by
  have size : (UInt64.size : Int) = 18446744073709551616 := rfl
  have minWhole_eq : minWhole = -9223372036854775808 := rfl
  have maxWhole_eq : (maxWhole : Int) = 18446744073709551615 := rfl
  exact readInt_of_isWhole stands (by omega) (by omega)

theorem readNanos_of_isWhole {n : Nat} (fits : n < 2 ^ 32) (stands : v.IsWhole n) :
    readNanos v = .ok (n : Int) := by
  have size : (UInt32.size : Int) = 4294967296 := rfl
  have minWhole_eq : minWhole = -9223372036854775808 := rfl
  have maxWhole_eq : (maxWhole : Int) = 18446744073709551615 := rfl
  exact readInt_of_isWhole stands (by omega) (by omega)

theorem member_seen {seconds nanos : Nat} (fits : seconds < 2 ^ 64) (fits' : nanos < 2 ^ 32) (seen : String → Bool)
    (name : String) (v : Value)
    (unseen : name ∈ (fields seconds nanos).map Field.name → seen name = false)
    (stands : ∀ field ∈ fields seconds nanos, field.name = name → field.admits v)
    (known : False ∨ name ∈ (fields seconds nanos).map Field.name) :
    Fields.member name.toList v (Fields.seen seconds nanos seen) =
      .ok (Fields.seen seconds nanos (Function.update seen name true)) := by
  have new := unseen (known.resolve_left id)
  simp only [fields, List.forall_mem_cons] at stands
  obtain ⟨first, second, -⟩ := stands
  simp only [fields, List.map_cons, List.map_nil, List.mem_cons, List.not_mem_nil, or_false,
    false_or] at known
  obtain rfl | rfl := known
  · have read := setOnce_taken "secs" new
      (readSeconds_of_isWhole fits (first rfl))
    rw [Fields.member, if_pos rfl, Fields.seen, read]
    simp [Fields.seen]
  · have read := setOnce_taken "nanos" new
      (readNanos_of_isWhole fits' (second rfl))
    rw [Fields.member, if_neg (by decide), if_pos rfl, Fields.seen, read]
    simp [Fields.seen]

theorem ofJson_of_isWritten (sound : v.Sound) (stands : d.IsWritten v) : ofJson v = .ok d := by
  obtain ⟨seconds, nanos, fits, fits', carried, rest, record⟩ := stands
  have whole := ofFields_eq fits carried rest
  obtain ⟨members, object, gives⟩ | ⟨items, rfl, each⟩ := record
  · obtain ⟨written, seen, rfl, read, complete⟩ := readMembers_of_isObject
      (fun seen name v unseen stands known _ =>
        member_seen fits fits' seen name v unseen stands known) sound gives object
    simp only [fields, List.forall_mem_cons, or_false] at complete
    have begun : Fields.seen seconds nanos (fun _ => false) = ⟨none, none⟩ := rfl
    rw [begun] at read
    simp only [ofJson, read, Fields.seen, complete.1, complete.2.1, taken_true, required]
    exact whole
  · simp only [fields, List.forall₂_cons_left_iff, List.forall₂_nil_left_iff] at each
    obtain ⟨first, _, isFirst, ⟨second, _, isSecond, rfl, rfl⟩, rfl⟩ := each
    have readFirst := nextItem_of_ok 0 kindName .closed [second] (readSeconds_of_isWhole fits isFirst)
    have readSecond := nextItem_of_ok 1 kindName .closed [] (readNanos_of_isWhole fits' isSecond)
    simp only [ofJson, readFirst, ok_bind, readSecond, whole]
    rfl

end Duration

/-! ## Unwinders -/

namespace UnwinderKind

variable {kind : UnwinderKind} {v : Value}

/-- The value is an unwinder: its name, or an object with the name as its only key and nothing under
    it. -/
def IsWritten (kind : UnwinderKind) (v : Value) : Prop :=
  v.IsText kind.name ∨ v.IsObject [(kind.name, .word .null none)]

theorem ofChars_name (kind : UnwinderKind) : ofChars kind.name.toList = .ok kind := by
  have named : ofName? kind.name = some kind := by cases kind <;> decide
  rw [ofChars, String.ofList_toList, named]

theorem ofJson_of_isWritten (stands : kind.IsWritten v) : ofJson v = .ok kind := by
  obtain ⟨parts, rfl, text⟩ | ⟨written, rfl, members⟩ := stands
  · simp only [ofJson, Quotation.decode, Quotation.characters_of_stands text]
    exact ofChars_name kind
  · simp only [List.forall₂_cons_left_iff, List.forall₂_nil_left_iff] at members
    obtain ⟨⟨key, item⟩, _, ⟨keyed, rfl⟩, rfl, rfl⟩ := members
    simp only [ofJson, readKey_of_isText keyed, ok_bind, ofChars_name]
    rfl

end UnwinderKind

/-! ## Commands -/

namespace CommandConfig

variable {c : CommandConfig} {v : Value}

/-- What a command has to say. All of it may be missing. -/
def fields (c : CommandConfig) : List Field :=
  [⟨"command", IsOptional IsText c.command, c.command = none⟩,
    ⟨"argv", IsOptional (IsSequence IsText) c.argv, c.argv = none⟩,
    ⟨"fatal_argv", IsOptional (IsSequence IsText) c.fatalArgv, c.fatalArgv = none⟩]

/-- The value is a command. -/
def IsWritten (c : CommandConfig) (v : Value) : Prop := v.IsRecord c.fields True

theorem readText_of_isOptional {text : Option String} (stands : v.IsOptional IsText text) :
    readText v = .ok text := by
  refine readOption_of_isOptional stands (fun _ => readString_of_isText) ?_
  rintro _ _ ⟨_, same, -⟩
  cases same

theorem readTexts_of_isOptional {texts : Option (List String)}
    (stands : v.IsOptional (IsSequence IsText) texts) : readTexts v = .ok texts := by
  refine readOption_of_isOptional stands (fun _ list => ?_) ?_
  · exact readList_of_isSequence list fun _ _ _ => readString_of_isText
  · rintro _ _ ⟨_, same, -⟩
    cases same

/-- The fields of which so many have been read. -/
def Fields.seen (c : CommandConfig) (seen : String → Bool) : Fields :=
  ⟨taken (seen "command") c.command, taken (seen "argv") c.argv,
    taken (seen "fatal_argv") c.fatalArgv⟩

theorem member_seen (c : CommandConfig) (seen : String → Bool) (name : String) (v : Value)
    (unseen : name ∈ c.fields.map Field.name → seen name = false)
    (stands : ∀ field ∈ c.fields, field.name = name → field.admits v) (sound : v.Sound) :
    Fields.member name.toList v (Fields.seen c seen) =
      .ok (Fields.seen c (Function.update seen name true)) := by
  simp only [fields, List.forall_mem_cons] at stands
  obtain ⟨command, argv, fatalArgv, -⟩ := stands
  by_cases isCommand : name = "command"
  · subst isCommand
    have read := setOnce_taken "command" (unseen (by simp [fields]))
      (readText_of_isOptional (command rfl))
    rw [Fields.member, if_pos rfl, Fields.seen, read]
    simp [Fields.seen]
  by_cases isArgv : name = "argv"
  · subst isArgv
    have read := setOnce_taken "argv" (unseen (by simp [fields]))
      (readTexts_of_isOptional (argv rfl))
    rw [Fields.member, if_neg (by decide), if_pos rfl, Fields.seen, read]
    simp [Fields.seen]
  by_cases isFatal : name = "fatal_argv"
  · subst isFatal
    have read := setOnce_taken "fatal_argv" (unseen (by simp [fields]))
      (readTexts_of_isOptional (fatalArgv rfl))
    rw [Fields.member, if_neg (by decide), if_neg (by decide), if_pos rfl, Fields.seen, read]
    simp [Fields.seen]
  · have other {known : String} (differs : name ≠ known) : name.toList ≠ known.toList :=
      fun same => differs (String.toList_inj.mp same)
    rw [Fields.member, if_neg (other isCommand), if_neg (other isArgv), if_neg (other isFatal),
      skip_of_sound sound, Fields.seen, Fields.seen, Function.update_of_ne (Ne.symm isCommand),
      Function.update_of_ne (Ne.symm isArgv), Function.update_of_ne (Ne.symm isFatal)]
    rfl

theorem ofJson_of_isWritten (sound : v.Sound) (stands : c.IsWritten v) : ofJson v = .ok c := by
  obtain ⟨members, object, gives⟩ | ⟨items, rfl, each⟩ := stands
  · obtain ⟨written, seen, rfl, read, complete⟩ := readMembers_of_isObject
      (fun seen name v unseen stands _ sound => member_seen c seen name v unseen stands sound)
      sound gives object
    simp only [fields, List.forall_mem_cons] at complete
    obtain ⟨command, argv, fatalArgv, -⟩ := complete
    have begun : Fields.seen c (fun _ => false) = ⟨none, none, none⟩ := rfl
    rw [begun] at read
    simp only [ofJson, read, ok_bind, Fields.seen, join_taken command, join_taken argv,
      join_taken fatalArgv]
    rfl
  · simp only [fields, List.forall₂_cons_left_iff, List.forall₂_nil_left_iff] at each
    obtain ⟨first, _, isFirst, ⟨second, _, isSecond, ⟨third, _, isThird, rfl, rfl⟩, rfl⟩, rfl⟩ := each
    simp only [ofJson, nextItem_of_ok _ _ _ _ (readText_of_isOptional isFirst),
      nextItem_of_ok _ _ _ _ (readTexts_of_isOptional isSecond),
      nextItem_of_ok _ _ _ _ (readTexts_of_isOptional isThird), ok_bind]
    rfl

end CommandConfig

/-! ## Configurations -/

namespace Config

variable {c : Config} {v : Value}

/-- What a configuration has to say. The commands and the directory may be missing. -/
def fields (c : Config) : List Field :=
  [⟨"create_alt_stack", IsTruth c.createAltStack, False⟩,
    ⟨"fatal_stack_logging", IsTruth c.fatalStackLogging, False⟩,
    ⟨"log_file_prefix", IsText c.logStem, False⟩,
    ⟨"postmortem", IsOptional CommandConfig.IsWritten c.postmortem, c.postmortem = none⟩,
    ⟨"postmortem_timeout", c.postmortemTimeout.IsWritten, False⟩,
    ⟨"session_logger", IsOptional CommandConfig.IsWritten c.sessionLogger, c.sessionLogger = none⟩,
    ⟨"session_timeout", c.sessionTimeout.IsWritten, False⟩,
    ⟨"signals", IsSequence IsWhole c.signals, False⟩,
    ⟨"tmp_dir", IsOptional IsText c.tempDirectory, c.tempDirectory = none⟩,
    ⟨"trap_on_debugger", IsTruth c.trapOnDebugger, False⟩,
    ⟨"unwinder", c.unwinder.IsWritten, False⟩,
    ⟨"use_alt_stack", IsTruth c.useAltStack, False⟩]

/-- The value is a configuration. -/
def IsWritten (c : Config) (v : Value) : Prop := v.IsRecord c.fields True

theorem readCommand_of_isOptional {command : Option CommandConfig} (sound : v.Sound)
    (stands : v.IsOptional CommandConfig.IsWritten command) : readCommand v = .ok command := by
  refine readOption_of_isOptional stands (fun _ => CommandConfig.ofJson_of_isWritten sound) ?_
  rintro _ _ (⟨_, ⟨_, same, -⟩, -⟩ | ⟨_, same, -⟩) <;> cases same

theorem readDirectory_of_isOptional {text : Option String} (stands : v.IsOptional IsText text) :
    readOption readString v = .ok text :=
  CommandConfig.readText_of_isOptional stands

theorem readSignals_of_isSequence {signals : List Int}
    (small : ∀ n ∈ signals, Int32.minValue.toInt ≤ n ∧ n ≤ Int32.maxValue.toInt)
    (stands : v.IsSequence IsWhole signals) : readList readSignal v = .ok signals := by
  refine readList_of_isSequence stands fun n member v whole => ?_
  have low : Int32.minValue.toInt = -2147483648 := rfl
  have high : Int32.maxValue.toInt = 2147483647 := rfl
  have minWhole_eq : minWhole = -9223372036854775808 := rfl
  have maxWhole_eq : (maxWhole : Int) = 18446744073709551615 := rfl
  have range := small n member
  exact readInt_of_isWhole whole range (by omega)

/-- The fields of which so many have been read. -/
def Fields.seen (c : Config) (seen : String → Bool) : Fields where
  createAltStack := taken (seen "create_alt_stack") c.createAltStack
  fatalStackLogging := taken (seen "fatal_stack_logging") c.fatalStackLogging
  logStem := taken (seen "log_file_prefix") c.logStem
  postmortem := taken (seen "postmortem") c.postmortem
  postmortemTimeout := taken (seen "postmortem_timeout") c.postmortemTimeout
  sessionLogger := taken (seen "session_logger") c.sessionLogger
  sessionTimeout := taken (seen "session_timeout") c.sessionTimeout
  signals := taken (seen "signals") c.signals
  tempDirectory := taken (seen "tmp_dir") c.tempDirectory
  trapOnDebugger := taken (seen "trap_on_debugger") c.trapOnDebugger
  unwinder := taken (seen "unwinder") c.unwinder
  useAltStack := taken (seen "use_alt_stack") c.useAltStack

theorem member_seen
    (small : ∀ n ∈ c.signals, Int32.minValue.toInt ≤ n ∧ n ≤ Int32.maxValue.toInt)
    (seen : String → Bool) (name : String) (v : Value)
    (unseen : name ∈ c.fields.map Field.name → seen name = false)
    (stands : ∀ field ∈ c.fields, field.name = name → field.admits v) (sound : v.Sound) :
    Fields.member name.toList v (Fields.seen c seen) =
      .ok (Fields.seen c (Function.update seen name true)) := by
  simp only [fields, List.forall_mem_cons] at stands
  obtain ⟨createAltStack, fatalStackLogging, logStem, postmortem, postmortemTimeout, sessionLogger,
    sessionTimeout, signals, tempDirectory, trapOnDebugger, unwinder, useAltStack, -⟩ := stands
  rw [Fields.member, String.ofList_toList]
  -- One case for each field, and one for members of other names.
  split
  case h_1 =>
    rw [Fields.seen, setOnce_taken "create_alt_stack" (unseen (by simp [fields]))
      (readBool_of_isTruth (createAltStack rfl))]
    simp [Fields.seen]
  case h_2 =>
    rw [Fields.seen, setOnce_taken "fatal_stack_logging" (unseen (by simp [fields]))
      (readBool_of_isTruth (fatalStackLogging rfl))]
    simp [Fields.seen]
  case h_3 =>
    rw [Fields.seen, setOnce_taken "log_file_prefix" (unseen (by simp [fields]))
      (readString_of_isText (logStem rfl))]
    simp [Fields.seen]
  case h_4 =>
    rw [Fields.seen, setOnce_taken "postmortem" (unseen (by simp [fields]))
      (readCommand_of_isOptional sound (postmortem rfl))]
    simp [Fields.seen]
  case h_5 =>
    rw [Fields.seen, setOnce_taken "postmortem_timeout" (unseen (by simp [fields]))
      (Duration.ofJson_of_isWritten sound (postmortemTimeout rfl))]
    simp [Fields.seen]
  case h_6 =>
    rw [Fields.seen, setOnce_taken "session_logger" (unseen (by simp [fields]))
      (readCommand_of_isOptional sound (sessionLogger rfl))]
    simp [Fields.seen]
  case h_7 =>
    rw [Fields.seen, setOnce_taken "session_timeout" (unseen (by simp [fields]))
      (Duration.ofJson_of_isWritten sound (sessionTimeout rfl))]
    simp [Fields.seen]
  case h_8 =>
    rw [Fields.seen, setOnce_taken "signals" (unseen (by simp [fields]))
      (readSignals_of_isSequence small (signals rfl))]
    simp [Fields.seen]
  case h_9 =>
    rw [Fields.seen, setOnce_taken "tmp_dir" (unseen (by simp [fields]))
      (readDirectory_of_isOptional (tempDirectory rfl))]
    simp [Fields.seen]
  case h_10 =>
    rw [Fields.seen, setOnce_taken "trap_on_debugger" (unseen (by simp [fields]))
      (readBool_of_isTruth (trapOnDebugger rfl))]
    simp [Fields.seen]
  case h_11 =>
    rw [Fields.seen, setOnce_taken "unwinder" (unseen (by simp [fields]))
      (UnwinderKind.ofJson_of_isWritten (unwinder rfl))]
    simp [Fields.seen]
  case h_12 =>
    rw [Fields.seen, setOnce_taken "use_alt_stack" (unseen (by simp [fields]))
      (readBool_of_isTruth (useAltStack rfl))]
    simp [Fields.seen]
  case h_13 =>
    have unchanged : Fields.seen c (Function.update seen name true) = Fields.seen c seen := by
      simp only [Fields.seen, Function.update_apply]
      grind
    rw [skip_of_sound sound, unchanged]
    rfl

theorem complete_seen {seen : String → Bool}
    (complete : ∀ field ∈ c.fields, seen field.name = true ∨ field.optional) :
    (Fields.seen c seen).complete = .ok c := by
  simp only [fields, List.forall_mem_cons, or_false] at complete
  obtain ⟨createAltStack, fatalStackLogging, logStem, postmortem, postmortemTimeout, sessionLogger,
    sessionTimeout, signals, tempDirectory, trapOnDebugger, unwinder, useAltStack, -⟩ := complete
  simp only [Fields.complete, Fields.seen, createAltStack, fatalStackLogging, logStem,
    postmortemTimeout, sessionTimeout, signals, trapOnDebugger, unwinder, useAltStack, taken_true,
    required, ok_bind, join_taken postmortem, join_taken sessionLogger, join_taken tempDirectory]
  rfl

theorem ofJson_of_isWritten
    (small : ∀ n ∈ c.signals, Int32.minValue.toInt ≤ n ∧ n ≤ Int32.maxValue.toInt)
    (sound : v.Sound) (stands : c.IsWritten v) : ofJson v = .ok c := by
  obtain ⟨members, object, gives⟩ | ⟨items, rfl, each⟩ := stands
  · obtain ⟨written, seen, rfl, read, complete⟩ := readMembers_of_isObject
      (fun seen name v unseen stands _ sound => member_seen small seen name v unseen stands sound)
      sound gives object
    have begun : Fields.seen c (fun _ => false) = .none := rfl
    rw [begun] at read
    simp only [ofJson, read, ok_bind, readClosing, complete_seen complete]
  · have soundItems : ∀ item ∈ items, item.Sound := by
      cases sound with
      | sequence sound => exact sound
    simp only [fields, List.forall₂_cons_left_iff, List.forall₂_nil_left_iff] at each
    obtain ⟨createAltStack, _, isCreateAltStack, ⟨fatalStackLogging, _, isFatalStackLogging,
      ⟨logStem, _, isLogStem, ⟨postmortem, _, isPostmortem, ⟨postmortemTimeout, _, isPostmortemTimeout,
      ⟨sessionLogger, _, isSessionLogger, ⟨sessionTimeout, _, isSessionTimeout,
      ⟨signals, _, isSignals, ⟨tempDirectory, _, isTempDirectory, ⟨trapOnDebugger, _, isTrapOnDebugger,
      ⟨unwinder, _, isUnwinder, ⟨useAltStack, _, isUseAltStack, rfl, rfl⟩, rfl⟩, rfl⟩, rfl⟩, rfl⟩,
      rfl⟩, rfl⟩, rfl⟩, rfl⟩, rfl⟩, rfl⟩, rfl⟩ := each
    simp only [List.forall_mem_cons] at soundItems
    obtain ⟨-, -, -, soundPostmortem, soundPostmortemTimeout, soundSessionLogger,
      soundSessionTimeout, -⟩ := soundItems
    simp only [ofJson, ok_bind,
      nextItem_of_ok _ _ _ _ (readBool_of_isTruth isCreateAltStack),
      nextItem_of_ok _ _ _ _ (readBool_of_isTruth isFatalStackLogging),
      nextItem_of_ok _ _ _ _ (readString_of_isText isLogStem),
      nextItem_of_ok _ _ _ _ (readCommand_of_isOptional soundPostmortem isPostmortem),
      nextItem_of_ok _ _ _ _ (Duration.ofJson_of_isWritten soundPostmortemTimeout isPostmortemTimeout),
      nextItem_of_ok _ _ _ _ (readCommand_of_isOptional soundSessionLogger isSessionLogger),
      nextItem_of_ok _ _ _ _ (Duration.ofJson_of_isWritten soundSessionTimeout isSessionTimeout),
      nextItem_of_ok _ _ _ _ (readSignals_of_isSequence small isSignals),
      nextItem_of_ok _ _ _ _ (readDirectory_of_isOptional isTempDirectory),
      nextItem_of_ok _ _ _ _ (readBool_of_isTruth isTrapOnDebugger),
      nextItem_of_ok _ _ _ _ (UnwinderKind.ofJson_of_isWritten isUnwinder),
      nextItem_of_ok _ _ _ _ (readBool_of_isTruth isUseAltStack)]
    rfl

end Config

end Postmortem

import Postmortem.Config
import Postmortem.Json.Reader

/-! # The JSON form of a configuration

A configuration is written as an object with a member for each field, in a fixed order. It is read
from such an object with the members in any order, or from a sequence of all fields in the fixed
order; members of other names are passed over.
-/

namespace Postmortem

open Json Json.Value

/-! ## Durations -/

namespace Duration

/-- The JSON form of a duration. -/
def toJson (d : Duration) : Value :=
  .ofFields [("secs", .ofInt d.seconds.toNat), ("nanos", .ofInt d.nanos)]

/-- Reads seconds, or nanoseconds. -/
def readSeconds : Value → Reading Int := readInt 0 (UInt64.size - 1) "u64"
def readNanos : Value → Reading Int := readInt 0 (UInt32.size - 1) "u32"

/-- What an error calls a duration. -/
def kindName : String := "struct Duration"

/-- The fields read so far. -/
structure Fields where
  seconds : Option Int
  nanos : Option Int

/-- Reads a member into the fields. -/
def Fields.member (name : List Char) (v : Value) (f : Fields) : Reading Fields :=
  if name = "secs".toList then do return { f with seconds := ← setOnce "secs" f.seconds readSeconds v }
  else if name = "nanos".toList then do
    return { f with nanos := ← setOnce "nanos" f.nanos readNanos v }
  else complain (.unknownField name ["secs", "nanos"])

/-- The duration of some seconds and nanoseconds. -/
def ofFields (seconds nanos : Int) : Reading Duration :=
  match ofParts? (.ofNat seconds.toNat) nanos.toNat with
  | some d => .ok d
  | none => complain .durationOverflow

/-- Reads a duration: an object of its two fields, or a sequence of both. -/
def ofJson (v : Value) : Reading Duration :=
  match v with
  | .sequence items closing => do
    let (seconds, items) ← nextItem readSeconds 0 kindName closing items
    let (nanos, items) ← nextItem readNanos 1 kindName closing items
    let d ← ofFields seconds nanos
    noMore items closing
    return d
  | .object members closing => do
    let f ← readMembers Fields.member members ⟨none, none⟩
    readClosing closing
    let seconds ← required "secs" f.seconds
    let nanos ← required "nanos" f.nanos
    ofFields seconds nanos
  | v => v.wrongKind kindName

end Duration

/-! ## Unwinders -/

namespace UnwinderKind

/-- The JSON form of an unwinder is its name. -/
def toJson (kind : UnwinderKind) : Value := .ofString kind.name

/-- The unwinder of this name. -/
def ofChars (name : List Char) : Reading UnwinderKind :=
  match ofName? (String.ofList name) with
  | some kind => .ok kind
  | none => complain (.unknownVariant name (all.map UnwinderKind.name))

/-- Reads an unwinder: its name, or an object with the name as its only key and nothing under
    it. -/
def ofJson (v : Value) : Reading UnwinderKind :=
  match v with
  | .text q => do ofChars (← formal q.decode)
  | .object members closing => do
    match members with
    | [] => do
      readClosing closing
      refuse .malformed
    | (key, item) :: rest =>
      let kind ← ofChars (← readKey key)
      readUnit item
      noMore rest closing
      return kind
  | .broken fault => refuse fault
  | _ => refuse .malformed

end UnwinderKind

/-! ## Commands -/

namespace CommandConfig

/-- The JSON form of an optional value. -/
def optional {α : Type} (write : α → Value) : Option α → Value
  | none => .ofWord .null
  | some a => write a

/-- The JSON form of some texts. -/
def texts (list : List String) : Value := .ofList (list.map .ofString)

/-- The JSON form of a command. -/
def toJson (c : CommandConfig) : Value :=
  .ofFields [
    ("command", optional .ofString c.command),
    ("argv", optional texts c.argv),
    ("fatal_argv", optional texts c.fatalArgv)]

/-- Reads a text, or texts, that may be missing. -/
def readText : Value → Reading (Option String) := readOption readString
def readTexts : Value → Reading (Option (List String)) := readOption (readList readString)

/-- What an error calls a command. -/
def kindName : String := "struct CommandConfig"

/-- What an error calls a command of the wrong length. -/
def lengthName : String := kindName ++ " with 3 elements"

/-- The fields read so far. -/
structure Fields where
  command : Option (Option String)
  argv : Option (Option (List String))
  fatalArgv : Option (Option (List String))

/-- Reads a member into the fields. A member of another name is passed over. -/
def Fields.member (name : List Char) (v : Value) (f : Fields) : Reading Fields :=
  if name = "command".toList then do
    return { f with command := ← setOnce "command" f.command readText v }
  else if name = "argv".toList then do
    return { f with argv := ← setOnce "argv" f.argv readTexts v }
  else if name = "fatal_argv".toList then do
    return { f with fatalArgv := ← setOnce "fatal_argv" f.fatalArgv readTexts v }
  else do
    formal v.skip
    return f

/-- Reads a command: an object of its fields, or a sequence of all three. -/
def ofJson (v : Value) : Reading CommandConfig :=
  match v with
  | .sequence items closing => do
    let (command, items) ← nextItem readText 0 lengthName closing items
    let (argv, items) ← nextItem readTexts 1 lengthName closing items
    let (fatalArgv, items) ← nextItem readTexts 2 lengthName closing items
    noMore items closing
    return ⟨command, argv, fatalArgv⟩
  | .object members closing => do
    let f ← readMembers Fields.member members ⟨none, none, none⟩
    readClosing closing
    return ⟨f.command.join, f.argv.join, f.fatalArgv.join⟩
  | v => v.wrongKind kindName

end CommandConfig

/-! ## Configurations -/

namespace Config

/-- The JSON form of a configuration. -/
def toJson (c : Config) : Value :=
  .ofFields [
    ("create_alt_stack", .ofBool c.createAltStack),
    ("fatal_stack_logging", .ofBool c.fatalStackLogging),
    ("log_file_prefix", .ofString c.logStem),
    ("postmortem", CommandConfig.optional CommandConfig.toJson c.postmortem),
    ("postmortem_timeout", c.postmortemTimeout.toJson),
    ("session_logger", CommandConfig.optional CommandConfig.toJson c.sessionLogger),
    ("session_timeout", c.sessionTimeout.toJson),
    ("signals", .ofList (c.signals.map .ofInt)),
    ("tmp_dir", CommandConfig.optional .ofString c.tempDirectory),
    ("trap_on_debugger", .ofBool c.trapOnDebugger),
    ("unwinder", c.unwinder.toJson),
    ("use_alt_stack", .ofBool c.useAltStack)]

/-- The JSON text of a configuration. -/
def toText (c : Config) : String := String.ofList c.toJson.spell

/-- Reads a signal number. -/
def readSignal : Value → Reading Int := readInt Int32.minValue.toInt Int32.maxValue.toInt "i32"

/-- Reads a command that may be missing. -/
def readCommand : Value → Reading (Option CommandConfig) := readOption CommandConfig.ofJson

/-- What an error calls a configuration. -/
def kindName : String := "struct StackTraceConfiguration"

/-- What an error calls a configuration of the wrong length. -/
def lengthName : String := kindName ++ " with 12 elements"

/-- The fields read so far. -/
structure Fields where
  createAltStack : Option Bool
  fatalStackLogging : Option Bool
  logStem : Option String
  postmortem : Option (Option CommandConfig)
  postmortemTimeout : Option Duration
  sessionLogger : Option (Option CommandConfig)
  sessionTimeout : Option Duration
  signals : Option (List Int)
  tempDirectory : Option (Option String)
  trapOnDebugger : Option Bool
  unwinder : Option UnwinderKind
  useAltStack : Option Bool

/-- No field read yet. -/
def Fields.none : Fields :=
  ⟨.none, .none, .none, .none, .none, .none, .none, .none, .none, .none, .none, .none⟩

/-- Reads a member into the fields. A member of another name is passed over. -/
def Fields.member (name : List Char) (v : Value) (f : Fields) : Reading Fields := do
  match String.ofList name with
  | "create_alt_stack" =>
    return { f with createAltStack := ← setOnce "create_alt_stack" f.createAltStack readBool v }
  | "fatal_stack_logging" =>
    return { f with
      fatalStackLogging := ← setOnce "fatal_stack_logging" f.fatalStackLogging readBool v }
  | "log_file_prefix" =>
    return { f with logStem := ← setOnce "log_file_prefix" f.logStem readString v }
  | "postmortem" =>
    return { f with postmortem := ← setOnce "postmortem" f.postmortem readCommand v }
  | "postmortem_timeout" =>
    return { f with
      postmortemTimeout := ← setOnce "postmortem_timeout" f.postmortemTimeout Duration.ofJson v }
  | "session_logger" =>
    return { f with sessionLogger := ← setOnce "session_logger" f.sessionLogger readCommand v }
  | "session_timeout" =>
    return { f with
      sessionTimeout := ← setOnce "session_timeout" f.sessionTimeout Duration.ofJson v }
  | "signals" =>
    return { f with signals := ← setOnce "signals" f.signals (readList readSignal) v }
  | "tmp_dir" =>
    return { f with
      tempDirectory := ← setOnce "tmp_dir" f.tempDirectory (readOption readString) v }
  | "trap_on_debugger" =>
    return { f with trapOnDebugger := ← setOnce "trap_on_debugger" f.trapOnDebugger readBool v }
  | "unwinder" =>
    return { f with unwinder := ← setOnce "unwinder" f.unwinder UnwinderKind.ofJson v }
  | "use_alt_stack" =>
    return { f with useAltStack := ← setOnce "use_alt_stack" f.useAltStack readBool v }
  | _ =>
    formal v.skip
    return f

/-- The configuration with these fields; the first that is missing in the fixed order counts, and
    those that may be null may be missing. -/
def Fields.complete (f : Fields) : Reading Config := do
  return {
    createAltStack := ← required "create_alt_stack" f.createAltStack
    fatalStackLogging := ← required "fatal_stack_logging" f.fatalStackLogging
    logStem := ← required "log_file_prefix" f.logStem
    postmortem := f.postmortem.join
    postmortemTimeout := ← required "postmortem_timeout" f.postmortemTimeout
    sessionLogger := f.sessionLogger.join
    sessionTimeout := ← required "session_timeout" f.sessionTimeout
    signals := ← required "signals" f.signals
    tempDirectory := f.tempDirectory.join
    trapOnDebugger := ← required "trap_on_debugger" f.trapOnDebugger
    unwinder := ← required "unwinder" f.unwinder
    useAltStack := ← required "use_alt_stack" f.useAltStack }

/-- Reads a configuration, without checking it: an object of its fields, or a sequence of all of
    them. -/
def ofJson (v : Value) : Reading Config :=
  match v with
  | .sequence items closing => do
    let (createAltStack, items) ← nextItem readBool 0 lengthName closing items
    let (fatalStackLogging, items) ← nextItem readBool 1 lengthName closing items
    let (logStem, items) ← nextItem readString 2 lengthName closing items
    let (postmortem, items) ← nextItem readCommand 3 lengthName closing items
    let (postmortemTimeout, items) ← nextItem Duration.ofJson 4 lengthName closing items
    let (sessionLogger, items) ← nextItem readCommand 5 lengthName closing items
    let (sessionTimeout, items) ← nextItem Duration.ofJson 6 lengthName closing items
    let (signals, items) ← nextItem (readList readSignal) 7 lengthName closing items
    let (tempDirectory, items) ← nextItem (readOption readString) 8 lengthName closing items
    let (trapOnDebugger, items) ← nextItem readBool 9 lengthName closing items
    let (unwinder, items) ← nextItem UnwinderKind.ofJson 10 lengthName closing items
    let (useAltStack, items) ← nextItem readBool 11 lengthName closing items
    noMore items closing
    return {
      createAltStack, fatalStackLogging, logStem, postmortem, postmortemTimeout, sessionLogger
      sessionTimeout, signals, tempDirectory, trapOnDebugger, unwinder, useAltStack }
  | .object members closing => do
    let f ← readMembers Fields.member members .none
    readClosing closing
    f.complete
  | v => v.wrongKind kindName

/-- Why a JSON text is no configuration. -/
inductive TextError where
  | unreadable (e : ReadError)
  | refused (e : ConfigError)
  deriving Repr, DecidableEq

/-- Reads a configuration from a text, which holds nothing else, without checking it. -/
def read (text : String) : Reading Config :=
  let document := Document.ofChars text.toList
  match ofJson document.value with
  | .error e => .error e
  | .ok c => if document.trailing then refuse .malformed else .ok c

/-- The configuration in a JSON text, checked as one that was asked for. -/
def ofText (text : String) : Except TextError Config :=
  match read text with
  | .error e => .error (.unreadable e)
  | .ok c => c.checked.mapError .refused

end Config

end Postmortem

import Postmortem.Proofs.Config
import Postmortem.Proofs.Handlers
import Postmortem.Proofs.RehearsalReports

/-! # How a rehearsal is set up

Whatever the directory and the environment are, the configuration of a rehearsal is accepted and
applied, for none of the texts it is made of has a NUL.
-/

namespace Postmortem

namespace Rehearsal

variable {m : Machine} {mode : Mode} {directory : CString}

/-! ## The configuration -/

/-- The configuration of a rehearsal whose postmortem command appends a line. -/
def echoConfig (directory : Bytes) : Config :=
  { Config.standard with
    createAltStack := true
    useAltStack := true
    postmortem := some echoCommand
    postmortemTimeout := .ofSeconds 30
    tempDirectory := some (String.ofList (Utf8.decodeLossy directory))
    trapOnDebugger := false }

theorem configuration_echo (appends : mode.expectsPostmortem = true) (text : Utf8.Valid directory.bytes)
    (ne : directory.bytes ≠ []) :
    configuration mode directory.bytes = .ok (echoConfig directory.bytes) := by
  have placed : some (String.ofList (Utf8.decodeLossy directory.bytes)) ≠ some "" := by
    obtain ⟨chars, encoded⟩ := text
    rw [encoded, Utf8.decodeLossy_utf8Chars, ne_eq, Option.some.injEq, ← String.toList_eq_nil_iff,
      String.toList_ofList]
    rintro rfl
    exact ne encoded
  have named : Config.defaultLogStem ≠ "" ∧ '/' ∉ Config.defaultLogStem.toList := by decide
  have signals : Signal.defaults.Nodup ∧ ∀ n ∈ Signal.defaults, 1 ≤ n ∧ n ≤ 31 := by decide
  have valid : Config.Valid { echoConfig directory.bytes with trapOnDebugger := true } :=
    ⟨fun _ => rfl, named.1, named.2, placed, signals.1, signals.2⟩
  have checked : (Config.checked { echoConfig directory.bytes with trapOnDebugger := true }).map
      (·.setTrapOnDebugger false) = .ok (echoConfig directory.bytes) := by
    rw [Config.checked_eq_ok_iff.mpr ⟨valid, rfl⟩]
    rfl
  cases mode with
  | postmortemTimeout | logStack => cases appends
  | segfault | fatal | concurrentFatal | nonfatal => exact checked

/-! ## The context -/

theorem ofConfig_echo : CommandTemplate.ofConfig echoCommand = .ok echo := by decide +kernel

theorem foundNames_rehearsal {path : Bytes} (known : m.executable = some path)
    (named : Bytes.baseName (Utf8.repair path) = heading) :
    ∃ temp, Context.foundNames m none = .ok (temp, some programName) := by
  have clean : 0 ∉ m.tempDirectory := by
    rw [Machine.tempDirectory]
    split
    · next dir _ => exact dir.nul_notMem
    · decide
  have program : Context.programOfPath (Utf8.repair path) = .ok programName := by
    rw [Context.programOfPath, named]
    rfl
  refine ⟨⟨Utf8.repair m.tempDirectory, Utf8.nul_notMem_repair clean⟩, ?_⟩
  have temp : CString.ofBytes (Utf8.repair m.tempDirectory) =
      .ok ⟨Utf8.repair m.tempDirectory, Utf8.nul_notMem_repair clean⟩ := by
    rw [CString.ofBytes, dif_neg (Utf8.nul_notMem_repair clean)]
  simp only [Context.foundNames, known, Option.none_or, Option.map_some, temp,
    CommandTemplate.optional, program]
  rfl

/-- The context is set up, and all else is as it was. -/
theorem prepare_echo (mode : Mode) (text : Utf8.Valid directory.bytes) {path : Bytes}
    (known : m.executable = some path) (named : Bytes.baseName (Utf8.repair path) = heading) :
    ∃ w, prepare mode (echoConfig directory.bytes) (.start m) = .ok w ∧ w.machine = m ∧
      w.handlers = .none ∧ w.context.reportLock = .free ∧ w.context.crashing = false ∧
      w.context.loggedAtExit = false ∧ SetUp mode directory w := by
  obtain ⟨temp, found⟩ := foundNames_rehearsal known named
  have commands : Context.commandsOf (echoConfig directory.bytes) =
      .ok ⟨echo, .ofSeconds 30, .empty, Config.defaultSessionTimeout⟩ := by
    simp only [Context.commandsOf, echoConfig, CommandTemplate.optional, ofConfig_echo]
    rfl
  have dir : CommandTemplate.optional CString.ofString (echoConfig directory.bytes).tempDirectory =
      .ok (some directory) := by
    obtain ⟨chars, encoded⟩ := text
    have same : utf8 (String.ofList (Utf8.decodeLossy directory.bytes)) = directory.bytes := by
      rw [encoded, Utf8.decodeLossy_utf8Chars, utf8, String.toList_ofList, utf8Chars]
    simp only [echoConfig, CommandTemplate.optional, CString.ofString, same, CString.ofBytes,
      dif_neg directory.nul_notMem]
    rfl
  have named_stem : CString.ofString (echoConfig directory.bytes).logStem = .ok stem := by
    show CString.ofString Config.defaultLogStem = .ok stem
    decide
  have init : Context.initial.init m none = (.ok (), { Context.initial with
      launchTime := m.epochSeconds
      names := .new ⟨some programName, some temp, none⟩ }) := by
    simp only [Context.init, Context.Setup.init, found]
    rfl
  have configured (c : Context) : c.configure (echoConfig directory.bytes) = .ok { c with
      names := c.names.put { c.names.value with tempDirectory := some directory, logStem := some stem }
      commands := c.commands.put ⟨echo, .ofSeconds 30, .empty, Config.defaultSessionTimeout⟩
      fatalStackLogging := false
      trapOnDebugger := false
      unwinder := .unwindTables } := by
    simp only [Context.configure, Context.Setup.configure, commands, dir, named_stem]
    rfl
  simp only [prepare, World.start, init, configured]
  refine ⟨_, rfl, rfl, rfl, rfl, rfl, rfl, rfl, rfl, rfl, rfl, ?_, ?_, rfl, ?_, ?_⟩
  · show [(ProgramInfo.empty.set (utf8 "mode") (utf8 mode.name)).rendered].flatten = _
    cases mode <;> decide +kernel
  · let lines := LineStore.empty.put heading [utf8 ("running " ++ mode.name)]
    show ((ExtraLines.empty.set heading (lines.find? heading)).emit lines none).flatten = _
    cases mode <;> decide +kernel
  · exact Duration.finite_ofSeconds (by decide)
  · exact Duration.finite_ofSeconds (by decide)

/-! ## The crash handlers -/

theorem register_echo (directory : CString) {w : World} (fresh : w.handlers = .none) :
    ∃ v, Handler.register (echoConfig directory.bytes) w = (.ok (), v) ∧
      Handler.Installs Signal.defaults { w with handlers := ⟨true, []⟩ } v := by
  have catchable : ∀ n ∈ (echoConfig directory.bytes).signals, Handler.Catchable n := by
    intro n member
    obtain ⟨s, found, catchable, -⟩ := Handler.suitable_standard n member
    exact ⟨s, found, catchable⟩
  have unregistered : w.handlers.registered = false := by
    rw [fresh]
    rfl
  obtain ⟨accepted, installs⟩ := Handler.installs_register unregistered catchable
  rw [fresh] at installs
  exact ⟨_, Prod.ext accepted rfl, installs⟩

end Rehearsal

end Postmortem

import Mathlib.Data.List.Basic
import Postmortem.Context
import Postmortem.Proofs.CString

/-! # Set up, or left alone

The calls that set up the context make C strings of the texts they are given. A text with a NUL is
refused, and since all texts are looked at before anything is written, a call that is refused has
not set up anything. What the others write is said once, by `Call.does`.
-/

namespace Postmortem

variable {α β : Type} {s t : List Bytes} {wanted : α → Prop} {wanted' : β → Prop} {n : Nat}

/-! ## Conversions -/

/-- The first of some texts that holds a NUL has its first one at this offset. -/
inductive FirstNul : List Bytes → Nat → Prop where
  | here (front back : Bytes) (rest : List Bytes) (clean : 0 ∉ front) :
      FirstNul ((front ++ 0 :: back) :: rest) front.length
  | later (text : Bytes) (rest : List Bytes) (n : Nat) (clean : 0 ∉ text)
      (first : FirstNul rest n) : FirstNul (text :: rest) n

theorem FirstNul.exists (h : FirstNul s n) : ∃ text ∈ s, 0 ∈ text := by
  induction h with
  | here front back rest clean => exact ⟨_, List.mem_cons_self, by simp⟩
  | later text rest n clean first ih =>
      obtain ⟨other, member, nul⟩ := ih
      exact ⟨other, List.mem_cons_of_mem text member, nul⟩

theorem FirstNul.append_left (h : FirstNul s n) (t : List Bytes) : FirstNul (s ++ t) n := by
  induction h with
  | here front back rest clean => exact .here front back (rest ++ t) clean
  | later text rest n clean first ih => exact .later text (rest ++ t) n clean ih

theorem FirstNul.append_right (clean : ∀ text ∈ s, 0 ∉ text) (h : FirstNul t n) :
    FirstNul (s ++ t) n := by
  induction s with
  | nil => exact h
  | cons text s ih =>
      refine .later text (s ++ t) n (clean text List.mem_cons_self) (ih ?_)
      exact fun other member => clean other (List.mem_cons_of_mem text member)

/-- A conversion of these texts: a NUL in them makes it fail, otherwise the result is as wanted. -/
inductive Converts (texts : List Bytes) (wanted : α → Prop) : Except NulError α → Prop where
  | ok (a : α) (clean : ∀ text ∈ texts, 0 ∉ text) (is : wanted a) : Converts texts wanted (.ok a)
  | error (e : NulError) (first : FirstNul texts e.position) : Converts texts wanted (.error e)

theorem Converts.pure {a : α} (is : wanted a) : Converts [] wanted (pure a) :=
  .ok a (by simp) is

/-- Texts are converted one after another. -/
theorem Converts.bind {x : Except NulError α} {f : α → Except NulError β}
    (h : Converts s wanted x) (then_ : ∀ a, wanted a → Converts t wanted' (f a)) :
    Converts (s ++ t) wanted' (x >>= f) := by
  cases h with
  | error e first => exact .error e (first.append_left t)
  | ok a clean is =>
      show Converts (s ++ t) wanted' (f a)
      have rest := then_ a is
      generalize f a = y at rest
      cases rest with
      | error e first => exact .error e (first.append_right clean)
      | ok b clean' is =>
          refine .ok b (fun text member => ?_) is
          obtain member | member := List.mem_append.mp member
          · exact clean text member
          · exact clean' text member

theorem Converts.map {x : Except NulError α} {f : α → β} (h : Converts s wanted x)
    (then_ : ∀ a, wanted a → wanted' (f a)) : Converts s wanted' (x.map f) := by
  cases h with
  | error e first => exact .error e first
  | ok a clean is => exact .ok (f a) clean (then_ a is)

theorem converts_ofBytes (bytes : Bytes) :
    Converts [bytes] (·.bytes = bytes) (CString.ofBytes bytes) := by
  rw [CString.ofBytes]
  split
  · next nul =>
    obtain ⟨front, back, rfl, clean⟩ := List.eq_append_cons_of_mem nul
    have position : (front ++ 0 :: back).idxOf 0 = front.length := by
      rw [List.idxOf_append_of_notMem clean, List.idxOf_cons_self, Nat.add_zero]
    exact .error _ (position ▸ .here front back [] clean)
  · next clean =>
    exact .ok _ (fun text member => List.mem_singleton.mp member ▸ clean) rfl

/-- A text that may be missing. -/
theorem converts_optional {γ : Type} {convert : γ → Except NulError CString} {view : γ → Bytes}
    (h : ∀ a, Converts [view a] (·.bytes = view a) (convert a)) (given : Option γ) :
    Converts (given.map view).toList (·.map (·.bytes) = given.map view)
      (CommandTemplate.optional convert given) := by
  cases given with
  | none => exact .pure rfl
  | some a => exact (h a).map fun _ is => congrArg some is

theorem converts_text (text : Option String) :
    Converts (text.map utf8).toList (·.map (·.bytes) = text.map utf8)
      (CommandTemplate.optional CString.ofString text) :=
  converts_optional (fun text => converts_ofBytes (utf8 text)) text

theorem converts_cstrings (texts : List String) :
    Converts (texts.map utf8) (·.map (·.bytes) = texts.map utf8)
      (CommandTemplate.cstrings texts) := by
  induction texts with
  | nil => exact .pure rfl
  | cons text rest ih =>
      refine (converts_ofBytes (utf8 text)).bind fun first is => ?_
      rw [← List.append_nil (List.map utf8 rest)]
      refine ih.bind fun others are => .pure ?_
      rw [List.map_cons, List.map_cons, is, are]

/-! ## Commands -/

/-- The texts of a command: its name and its two templates, as far as there are any. -/
structure CommandTexts where
  command : Option Bytes
  argv : Option (List Bytes)
  fatalArgv : Option (List Bytes)
  deriving Repr, DecidableEq

/-- The texts of no command. -/
def CommandTexts.none : CommandTexts := ⟨.none, .none, .none⟩

/-- The texts in the order in which they are converted. -/
def CommandTexts.inOrder (t : CommandTexts) : List Bytes :=
  t.command.toList ++ (t.argv.getD [] ++ t.fatalArgv.getD [])

/-- What is configured as a command. -/
def CommandConfig.encoded (config : CommandConfig) : CommandTexts :=
  ⟨config.command.map utf8, config.argv.map (·.map utf8), config.fatalArgv.map (·.map utf8)⟩

/-- What is stored as a command. -/
def CommandTemplate.encoded (t : CommandTemplate) : CommandTexts :=
  ⟨t.command.map (·.bytes), t.argv.map (·.map (·.bytes)), t.fatalArgv.map (·.map (·.bytes))⟩

/-- What is configured, if it is. -/
def configured (config : Option CommandConfig) : CommandTexts :=
  config.elim .none CommandConfig.encoded

/-- The stored command is known by its texts. -/
theorem encoded_injective : Function.Injective CommandTemplate.encoded := by
  intro a b same
  obtain ⟨command, argv, fatalArgv⟩ := CommandTexts.mk.inj same
  have list := Option.map_injective CString.bytes_injective.list_map
  cases a
  cases b
  rw [CommandTemplate.mk.injEq]
  exact ⟨Option.map_injective CString.bytes_injective command, list argv, list fatalArgv⟩

theorem converts_template (given : Option (List String)) :
    Converts ((given.map (·.map utf8)).getD [])
      (·.map (·.map (·.bytes)) = given.map (·.map utf8))
      (CommandTemplate.optional CommandTemplate.cstrings given) := by
  cases given with
  | none => exact .pure rfl
  | some texts => exact (converts_cstrings texts).map fun _ is => congrArg some is

theorem converts_ofConfig (config : CommandConfig) :
    Converts config.encoded.inOrder (·.encoded = config.encoded) (CommandTemplate.ofConfig config) := by
  refine (converts_text config.command).bind fun command is => ?_
  refine (converts_template config.argv).bind fun argv is' => ?_
  rw [← List.append_nil (Option.getD _ _)]
  refine (converts_template config.fatalArgv).bind fun fatalArgv is'' => .pure ?_
  exact (CommandTexts.mk.injEq ..).mpr ⟨is, is', is''⟩

theorem converts_configured (given : Option CommandConfig) :
    Converts (configured given).inOrder
      (fun t => (t.getD .empty).encoded = configured given)
      (CommandTemplate.optional CommandTemplate.ofConfig given) := by
  cases given with
  | none => exact .pure rfl
  | some config => exact (converts_ofConfig config).map fun _ is => is

namespace Context

theorem converts_commandsOf (config : Config) :
    Converts
      ((configured config.postmortem).inOrder ++ (configured config.sessionLogger).inOrder)
      (fun commands => commands.postmortem.encoded = configured config.postmortem ∧
        commands.session.encoded = configured config.sessionLogger ∧
        commands.postmortemTimeout = config.postmortemTimeout ∧
        commands.sessionTimeout = config.sessionTimeout)
      (commandsOf config) := by
  refine (converts_configured config.postmortem).bind fun postmortem is => ?_
  rw [← List.append_nil (CommandTexts.inOrder _)]
  exact (converts_configured config.sessionLogger).bind fun session is' => .pure ⟨is, is', rfl, rfl⟩

/-- The program name that a start of the process finds, if it finds one. -/
def foundProgram (m : Machine) (path : Option Bytes) : Option Bytes :=
  (path.or (m.executable.map Utf8.repair)).map Bytes.baseName

theorem converts_program (path : Option Bytes) :
    Converts (path.map Bytes.baseName).toList (·.map (·.bytes) = path.map Bytes.baseName)
      (CommandTemplate.optional programOfPath path) :=
  converts_optional (fun path => converts_ofBytes (Bytes.baseName path)) path

theorem converts_foundNames (m : Machine) (path : Option Bytes) :
    Converts (Utf8.repair m.tempDirectory :: (foundProgram m path).toList)
      (fun found => found.1.bytes = Utf8.repair m.tempDirectory ∧
        found.2.map (·.bytes) = foundProgram m path)
      (foundNames m path) := by
  rw [← List.singleton_append]
  refine (converts_ofBytes (Utf8.repair m.tempDirectory)).bind fun directory is => ?_
  rw [← List.append_nil (foundProgram m path).toList]
  exact (converts_program _).bind fun program is' => .pure ⟨is, is'⟩

/-! ## Calls -/

/-- The calls that set up the context. -/
inductive Call where
  /-- A start of the process, with what there is around it at that moment. -/
  | init (m : Machine) (path : Option Bytes)
  | configure (config : Config)
  | setProgramName (path : Option Bytes)
  | setPostmortem (command : Option String) (argv fatalArgv : Option (List String))
  | setSessionLogger (command : Option String) (argv crashArgv : Option (List String))
  | setFatalStackLogging (on : Bool)

namespace Call

/-- What a call does. -/
def setup : Call → Setup Unit
  | init m path => Setup.init m path
  | configure config => Setup.configure config
  | setProgramName path => Setup.programName path
  | setPostmortem command argv fatalArgv => Setup.postmortem command argv fatalArgv
  | setSessionLogger command argv crashArgv => Setup.sessionLogger command argv crashArgv
  | setFatalStackLogging on => modify (·.setFatalStackLogging on)

/-- What comes of a call in this context. -/
def outcome (call : Call) (c : Context) : Except NulError Unit := (make call.setup c).1

/-- The context after a call, also if it was refused. -/
def after (call : Call) (c : Context) : Context := (make call.setup c).2

/-- The texts that a call makes C strings of, in this order. -/
def texts : Call → List Bytes
  | init m path => Utf8.repair m.tempDirectory :: (foundProgram m path).toList
  | configure config =>
    (configured config.postmortem).inOrder ++ (configured config.sessionLogger).inOrder
      ++ ((config.tempDirectory.map utf8).toList ++ [utf8 config.logStem])
  | setProgramName path => (path.map Bytes.baseName).toList
  | setPostmortem command argv fatalArgv => (CommandConfig.encoded ⟨command, argv, fatalArgv⟩).inOrder
  | setSessionLogger command argv crashArgv =>
    (CommandConfig.encoded ⟨command, argv, crashArgv⟩).inOrder
  | setFatalStackLogging _ => []

/-- What a call has done before it looks at any text: a start of the process records the time, if
    none is known. -/
def begun (c : Context) : Call → Context
  | init m _ =>
    { c with launchTime := if c.launchTime = 0 then m.epochSeconds else c.launchTime }
  | _ => c

end Call

/-! ## What calls write -/

/-- What the context was given by these calls. -/
structure Given where
  program : Option Bytes
  directory : Option Bytes
  stem : Option Bytes
  postmortem : CommandTexts
  postmortemTimeout : Duration
  session : CommandTexts
  sessionTimeout : Duration
  fatalStackLogging : Bool
  trapOnDebugger : Bool
  unwinder : UnwinderKind
  launchTime : Int

/-- What a context was given. -/
def given (c : Context) : Given where
  program := c.names.value.program.map (·.bytes)
  directory := c.names.value.tempDirectory.map (·.bytes)
  stem := c.names.value.logStem.map (·.bytes)
  postmortem := c.commands.value.postmortem.encoded
  postmortemTimeout := c.commands.value.postmortemTimeout
  session := c.commands.value.session.encoded
  sessionTimeout := c.commands.value.sessionTimeout
  fatalStackLogging := c.fatalStackLogging
  trapOnDebugger := c.trapOnDebugger
  unwinder := c.unwinder
  launchTime := c.launchTime

/-- What a call gives that is not refused. -/
def Call.gives (g : Given) : Call → Given
  | init m path =>
    { g with
      directory := g.directory.or (some (Utf8.repair m.tempDirectory))
      program := (foundProgram m path).or g.program }
  | configure config =>
    { g with
      directory := (config.tempDirectory.map utf8).or g.directory
      stem := some (utf8 config.logStem)
      postmortem := configured config.postmortem
      postmortemTimeout := config.postmortemTimeout
      session := configured config.sessionLogger
      sessionTimeout := config.sessionTimeout
      fatalStackLogging := config.fatalStackLogging
      trapOnDebugger := config.trapOnDebugger
      unwinder := config.unwinder }
  | setProgramName path => { g with program := path.map Bytes.baseName }
  | setPostmortem command argv fatalArgv =>
    { g with postmortem := CommandConfig.encoded ⟨command, argv, fatalArgv⟩ }
  | setSessionLogger command argv crashArgv =>
    { g with session := CommandConfig.encoded ⟨command, argv, crashArgv⟩ }
  | setFatalStackLogging on => { g with fatalStackLogging := on }

/-- A change that begins with these texts in context `c`: a NUL in them leaves `c` as it is, and
    otherwise the context was given `g` in the end. -/
inductive Does (texts : List Bytes) (g : Given) (c : Context) :
    Except NulError Unit × Context → Prop where
  | done (c' : Context) (clean : ∀ text ∈ texts, 0 ∉ text) (is : c'.given = g) :
      Does texts g c (.ok (), c')
  | refused (e : NulError) (first : FirstNul texts e.position) : Does texts g c (.error e, c)

variable {g : Given} {c c' : Context}

/-- As long as nothing has been written, a text may be refused. -/
theorem Does.take {converted : Except NulError α} {next : α → Setup Unit}
    (h : Converts s wanted converted)
    (then_ : ∀ a, wanted a → Does t g c (make (next a) c)) :
    Does (s ++ t) g c (make (Setup.take converted >>= next) c) := by
  cases h with
  | error e first => exact .refused e (first.append_left t)
  | ok a clean is =>
      show Does (s ++ t) g c (make (next a) c)
      have rest := then_ a is
      generalize make (next a) c = made at rest
      cases rest with
      | refused e first => exact .refused e (first.append_right clean)
      | done c' clean' is =>
          refine .done c' (fun text member => ?_) is
          obtain member | member := List.mem_append.mp member
          · exact clean text member
          · exact clean' text member

theorem Does.write {change : Setup Unit} (ran : make change c = (.ok (), c')) (is : c'.given = g) :
    Does [] g c (make change c) := by
  rw [ran]
  exact .done c' (by simp) is

/-- What a call does: it converts its texts, and writes if none of them is refused. -/
theorem Call.does (call : Call) (c : Context) :
    Does call.texts (call.gives (call.begun c).given) (call.begun c) (make call.setup c) := by
  cases call with
  | init m path =>
      show Does _ _ _ (make _ (Call.begun c (.init m path)))
      rw [← List.append_nil (Call.texts _)]
      refine .take (converts_foundNames m path) ?_
      rintro ⟨directory, program⟩ ⟨is, is'⟩
      refine .write rfl ?_
      dsimp only at is is'
      simp only [given, Guarded.put, gives, Option.map_or, Option.map_some, is, is']
  | configure config =>
      refine .take (converts_commandsOf config) ?_
      rintro commands ⟨postmortem, session, postmortemTimeout, sessionTimeout⟩
      refine .take (converts_text config.tempDirectory) fun directory is => ?_
      rw [← List.append_nil [utf8 config.logStem]]
      refine .take (converts_ofBytes (utf8 config.logStem)) fun stem is' => .write rfl ?_
      simp only [given, Guarded.put, gives, begun, Option.map_or, Option.map_some, is, is',
        postmortem, session, postmortemTimeout, sessionTimeout]
  | setProgramName path =>
      rw [← List.append_nil (Call.texts _)]
      refine .take (converts_program path) fun program is => .write rfl ?_
      simp only [given, Guarded.put, gives, is, begun]
  | setPostmortem command argv fatalArgv =>
      rw [← List.append_nil (Call.texts _)]
      refine .take (converts_ofConfig ⟨command, argv, fatalArgv⟩) fun template is => .write rfl ?_
      simp only [given, Guarded.put, gives, is, begun]
  | setSessionLogger command argv crashArgv =>
      rw [← List.append_nil (Call.texts _)]
      refine .take (converts_ofConfig ⟨command, argv, crashArgv⟩) fun template is => .write rfl ?_
      simp only [given, Guarded.put, gives, is, begun]
  | setFatalStackLogging on => exact .write rfl rfl

/-- A call either finds its texts clean and writes, or is refused before it has written anything. -/
theorem Call.step (call : Call) (c : Context) :
    (call.outcome c = .ok () ∧ (∀ text ∈ call.texts, 0 ∉ text) ∧
      (call.after c).given = call.gives (call.begun c).given) ∨
    ∃ e, call.outcome c = .error e ∧ FirstNul call.texts e.position ∧
      call.after c = call.begun c := by
  have does := call.does c
  rw [Call.outcome, Call.after]
  generalize make call.setup c = made at does
  cases does with
  | done c' clean is => exact .inl ⟨rfl, clean, is⟩
  | refused e first => exact .inr ⟨e, rfl, first, rfl⟩

theorem Call.of_ok {call : Call} (ok : call.outcome c = .ok ()) :
    (∀ text ∈ call.texts, 0 ∉ text) ∧ (call.after c).given = call.gives (call.begun c).given := by
  obtain ⟨-, done⟩ | ⟨e, refused, -⟩ := call.step c
  · exact done
  · rw [ok] at refused
    cases refused

theorem Call.of_error {call : Call} {e : NulError} (refused : call.outcome c = .error e) :
    FirstNul call.texts e.position ∧ call.after c = call.begun c := by
  obtain ⟨ok, -⟩ | ⟨e', refused', done⟩ := call.step c
  · rw [ok] at refused
    cases refused
  · rw [refused] at refused'
    cases refused'
    exact done

theorem Call.ok_iff (call : Call) (c : Context) :
    call.outcome c = .ok () ↔ ∀ text ∈ call.texts, 0 ∉ text := by
  refine ⟨fun ok => (Call.of_ok ok).1, fun clean => ?_⟩
  obtain ⟨ok, -⟩ | ⟨e, -, first, -⟩ := call.step c
  · exact ok
  · obtain ⟨text, member, nul⟩ := first.exists
    exact absurd nul (clean text member)

/-- Of two calls that give a part alike, the one that takes fewer texts succeeds where the other one
    does, in whatever context, and leaves the part as the other one leaves it. -/
theorem Call.alike {call call' : Call} (part : Given → α) (c' : Context)
    (fewer : ∀ text ∈ call'.texts, text ∈ call.texts)
    (same : ∀ g g', part (call'.gives g') = part (call.gives g)) (ok : call.outcome c = .ok ()) :
    call'.outcome c' = .ok () ∧ part (call'.after c').given = part (call.after c).given := by
  have ok' : call'.outcome c' = .ok () :=
    (call'.ok_iff c').mpr fun text member => (Call.of_ok ok).1 text (fewer text member)
  refine ⟨ok', ?_⟩
  rw [(Call.of_ok ok').2, (Call.of_ok ok).2]
  exact same _ _

/-- A call is refused exactly if a text that it makes a C string of holds a NUL. The error is about
    the first of these texts that does and says where in it the first NUL is. A call that is refused
    leaves the context as it was, but for the time that a start of the process records before. A
    command that is configured is stored as if it had been set by itself. -/
theorem Call.all_or_nothing :
    (∀ (call : Call) (c : Context),
      ((∃ e, call.outcome c = .error e) ↔ ∃ text ∈ call.texts, 0 ∈ text) ∧
      ∀ e, call.outcome c = .error e → FirstNul call.texts e.position ∧
        ((∀ m path, call ≠ .init m path) → call.after c = c) ∧
        ∀ m path, call = .init m path → call.after c =
          { c with launchTime := if c.launchTime = 0 then m.epochSeconds else c.launchTime }) ∧
    ∀ (config : Config) (command : CommandConfig) (c c' : Context),
      (Call.configure config).outcome c = .ok () →
      (config.postmortem = some command →
        let call := Call.setPostmortem command.command command.argv command.fatalArgv
        call.outcome c' = .ok () ∧
          (call.after c').commands.value.postmortem =
            ((Call.configure config).after c).commands.value.postmortem) ∧
      (config.sessionLogger = some command →
        let call := Call.setSessionLogger command.command command.argv command.fatalArgv
        call.outcome c' = .ok () ∧
          (call.after c').commands.value.session =
            ((Call.configure config).after c).commands.value.session) := by
  refine ⟨fun call c => ⟨⟨?_, ?_⟩, fun e refused => ?_⟩, fun config command c c' ok => ⟨?_, ?_⟩⟩
  · rintro ⟨e, refused⟩
    exact (Call.of_error refused).1.exists
  · rintro ⟨text, member, nul⟩
    obtain ⟨-, clean, -⟩ | ⟨e, refused, -⟩ := call.step c
    · exact absurd nul (clean text member)
    · exact ⟨e, refused⟩
  · obtain ⟨first, left⟩ := Call.of_error refused
    refine ⟨first, fun other => ?_, fun m path same => ?_⟩
    · rw [left]
      cases call with
      | init m path => exact absurd rfl (other m path)
      | _ => rfl
    · rw [left, same, Call.begun]
  · intro given call
    have fewer : ∀ text ∈ call.texts, text ∈ (Call.configure config).texts := by
      intro text member
      refine List.mem_append_left _ (List.mem_append_left _ ?_)
      rw [given]
      exact member
    have same (g g' : Given) :
        (call.gives g').postmortem = ((Call.configure config).gives g).postmortem := by
      rw [Call.gives, given]
      rfl
    obtain ⟨ok', alike⟩ := Call.alike (·.postmortem) c' fewer same ok
    exact ⟨ok', encoded_injective alike⟩
  · intro given call
    have fewer : ∀ text ∈ call.texts, text ∈ (Call.configure config).texts := by
      intro text member
      refine List.mem_append_left _ (List.mem_append_right _ ?_)
      rw [given]
      exact member
    have same (g g' : Given) :
        (call.gives g').session = ((Call.configure config).gives g).session := by
      rw [Call.gives, given]
      rfl
    obtain ⟨ok', alike⟩ := Call.alike (·.session) c' fewer same ok
    exact ⟨ok', encoded_injective alike⟩

/-- The NUL in an argument of the session logger is found before the one in the directory. -/
theorem Call.refused_in_argument :
    let config := { Config.standard with
      postmortem := some ⟨some "/bin/sh", none, none⟩
      sessionLogger := some ⟨some "log", some ["$cmd", "a\x00b"], none⟩
      tempDirectory := some "\x00" }
    (Call.configure config).outcome .initial = .error ⟨1⟩ ∧
      FirstNul (Call.configure config).texts 1 ∧
      (Call.configure config).after .initial = .initial := by
  intro config
  have refused : (Call.configure config).outcome .initial = .error ⟨1⟩ := by rfl
  obtain ⟨first, kept, -⟩ := (Call.all_or_nothing.1 (.configure config) .initial).2 _ refused
  refine ⟨refused, first, kept ?_⟩
  intro m path same
  cases same

end Context

end Postmortem

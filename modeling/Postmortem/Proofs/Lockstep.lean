import Postmortem.Proofs.Spawn
import Postmortem.Proofs.World

/-! # Processes that differ in what they provide for signals

Two processes that are the same but for what they provide for signals make the same report, step by
step: none of its steps looks at that, but for the signal that tells of the end of a command.
-/

namespace Postmortem

namespace Steps

variable {σ τ α β : Type} {P R : σ → τ → Prop}

/-- Two computations that make the same steps: from states in one relation every step leads to
    states in the other, and goes on alike. -/
inductive Matches (P R : σ → τ → Prop) : Steps σ α → Steps τ α → Prop where
  | done (a : α) : Matches P R (.done a) (.done a)
  | step {effect : σ → σ} {next : σ → Steps σ α} {effect' : τ → τ} {next' : τ → Steps τ α}
      (now : ∀ s t, P s t → R (effect s) (effect' t))
      (later : ∀ s t, P s t → Matches P R (next s) (next' t)) :
      Matches P R (.step effect next) (.step effect' next')

theorem Matches.bind {c : Steps σ α} {d : Steps τ α} {f : α → Steps σ β} {g : α → Steps τ β}
    (h : Matches P R c d) (rest : ∀ a, Matches P R (f a) (g a)) :
    Matches P R (c >>= f) (d >>= g) := by
  show Matches P R (c.bind f) (d.bind g)
  induction h with
  | done a => exact rest a
  | step now later ih => exact .step now ih

theorem Matches.andThen {ε : Type} {c : Steps σ (Except ε α)} {d : Steps τ (Except ε α)}
    {f : α → Steps σ (Except ε β)} {g : α → Steps τ (Except ε β)} (h : Matches P R c d)
    (rest : ∀ a, Matches P R (f a) (g a)) : Matches P R (c.andThen f) (d.andThen g) := by
  apply h.bind
  intro result
  cases result with
  | ok a => exact rest a
  | error e => exact .done _

theorem Matches.act {f : σ → α × σ} {g : τ → α × τ}
    (h : ∀ s t, P s t → (f s).1 = (g t).1 ∧ R (f s).2 (g t).2) : Matches P R (act f) (act g) := by
  refine .step (fun s t related => (h s t related).2) ?_
  intro s t related
  rw [(h s t related).1]
  exact .done _

theorem Matches.change {f : σ → σ} {g : τ → τ} (h : ∀ s t, P s t → R (f s) (g t)) :
    Matches P R (Steps.change f) (Steps.change g) :=
  .act fun s t related => ⟨rfl, h s t related⟩

end Steps

namespace Machine

variable {m : Machine} {d : List (Nat × Disposition)}

/-- The same machine with something else provided for signals. -/
def providing (m : Machine) (dispositions : List (Nat × Disposition)) : Machine :=
  { m with dispositions }

/-! ## What has nothing to do with signals -/

/-- A change that neither looks at what is provided for signals nor touches it. -/
def Aside (f : Machine → Machine) : Prop := ∀ m d, f (m.providing d) = (f m).providing d

theorem Aside.dispositions_eq {f : Machine → Machine} (h : Aside f) (m : Machine) :
    (f m).dispositions = m.dispositions := by
  have same : f m = (f m).providing m.dispositions := h m m.dispositions
  rw [same]
  rfl

theorem aside_say (bytes : Bytes) : Aside (·.say bytes) := fun _ _ => rfl

theorem aside_appendTo (path bytes : Bytes) : Aside (·.appendTo path bytes) := by
  intro m d
  cases appended : m.files.append m.working path bytes with
  | ok files => simp only [appendTo, providing, appended]
  | error e => simp only [appendTo, providing, appended]

theorem aside_setErrno (errno : Errno) : Aside fun m => { m with errno } := fun _ _ => rfl

theorem providing_attempt (path : CString) (m : Machine) (d : List (Nat × Disposition)) :
    LogFile.attempt path (m.providing d) =
      ((LogFile.attempt path m).1, (LogFile.attempt path m).2.providing d) := by
  cases created : m.files.createExclusive m.working path.bytes with
  | ok files => simp only [LogFile.attempt, providing, created]
  | error e => simp only [LogFile.attempt, providing, created]

theorem aside_reportFailure (spawned : Spawned) : Aside (·.reportFailure spawned) := by
  intro m d
  unfold reportFailure
  split
  · rfl
  · rfl

theorem aside_finish (ending : Ending) : Aside (·.finish ending) := by
  intro m d
  cases fate : m.fate with
  | running | suspended | ended => simp only [finish, providing, fate]

theorem aside_defaultEffect (n : Int) : Aside (·.defaultEffect n) := by
  intro m d
  unfold defaultEffect
  split
  · rfl
  · split
    · exact aside_finish _ m d
    · rfl
    · rfl

theorem aside_signalEffect (n : Int) (c : Circumstances) (provided : Disposition) :
    Aside (·.signalEffect n c provided) := by
  cases provided with
  | standard => exact aside_defaultEffect n
  | ignored | handler | infoHandler | crashReport | wakeUp => exact fun _ _ => rfl

/-! ## Starting a program -/

theorem providing_becomeProgram (m : Machine) (d : List (Nat × Disposition)) (path : CString)
    (argv : Argv) :
    (m.providing d).becomeProgram path argv =
      ((m.becomeProgram path argv).1, (m.becomeProgram path argv).2.providing d) := by
  have same : (m.providing d).findProgram path argv.toList = m.findProgram path argv.toList := rfl
  cases found : m.findProgram path argv.toList with
  | ok p =>
      rw [found] at same
      simp only [becomeProgram, same, found]
      rfl
  | error e =>
      rw [found] at same
      simp only [becomeProgram, same, found]
      rfl

/-- What comes of a program does not depend on what is provided for signals, but for the ends of
    children being ignored; and all of that is as before once the program is done with. -/
theorem providing_spawnAndWait (m : Machine) (d : List (Nat × Disposition)) (path : CString)
    (argv : Argv) (timeout : Option Duration)
    (heard : (m.providing d).disposition childSignal = m.disposition childSignal) :
    ((m.providing d).spawnAndWait path argv timeout).1 = (m.spawnAndWait path argv timeout).1 ∧
      ∃ d', ((m.providing d).spawnAndWait path argv timeout).2 =
          (m.spawnAndWait path argv timeout).2.providing d' ∧
        ∀ k, ((m.providing d).spawnAndWait path argv timeout).2.disposition k =
          (m.providing d).disposition k := by
  cases fork : m.forkFailure with
  | some e =>
      have fork' : (m.providing d).forkFailure = some e := fork
      simp only [spawnAndWait, fork, fork']
      exact ⟨trivial, d, rfl, fun _ => trivial⟩
  | none =>
      have fork' : (m.providing d).forkFailure = none := fork
      have hears : (m.providing d).HearsChildren ↔ m.HearsChildren := by
        unfold HearsChildren
        rw [heard]
      refine ⟨?_, ((m.providing d).spawnAndWait path argv timeout).2.dispositions, ?_,
        (machine_spawnAndWait fork' path argv timeout).2.2.2⟩
      · rw [result_spawnAndWait fork, result_spawnAndWait fork', waitFor, waitFor]
        simp only [hears]
        rfl
      · have hearing : (((m.becomeProgram path argv).2.providing d).setDisposition alarmSignal
              .wakeUp).disposition childSignal =
            ((m.becomeProgram path argv).2.setDisposition alarmSignal .wakeUp).disposition
              childSignal := by
          rw [disposition_setDisposition, disposition_setDisposition, if_neg (by decide),
            if_neg (by decide)]
          unfold disposition
          rw [dispositions_becomeProgram]
          exact heard
        simp only [spawnAndWait, fork, fork', providing_becomeProgram]
        rw [hearing]
        rfl

theorem disposition_spawnAndWait (m : Machine) (path : CString) (argv : Argv)
    (timeout : Option Duration) (k : Nat) :
    (m.spawnAndWait path argv timeout).2.disposition k = m.disposition k := by
  cases fork : m.forkFailure with
  | some e => simp only [spawnAndWait, fork]
  | none => exact (machine_spawnAndWait fork path argv timeout).2.2.2 k

theorem providing_start (m : Machine) (d : List (Nat × Disposition)) (t : CommandTemplate)
    (override : CString) (fatal : Bool) (table : Substitutions) (timeout : Duration) (what : String)
    (heard : (m.providing d).disposition childSignal = m.disposition childSignal) :
    (t.start override fatal table timeout what (m.providing d)).1 =
        (t.start override fatal table timeout what m).1 ∧
      ∃ d', (t.start override fatal table timeout what (m.providing d)).2 =
          (t.start override fatal table timeout what m).2.providing d' ∧
        (∀ k, (t.start override fatal table timeout what (m.providing d)).2.disposition k =
          (m.providing d).disposition k) ∧
        ∀ k, (t.start override fatal table timeout what m).2.disposition k = m.disposition k := by
  have same : t.plan ((m.providing d).getenv override) fatal table =
      t.plan (m.getenv override) fatal table := rfl
  cases plan : t.plan (m.getenv override) fatal table with
  | nothing =>
      rw [plan] at same
      simp only [CommandTemplate.start, plan, same]
      exact ⟨trivial, d, rfl, fun _ => trivial, fun _ => trivial⟩
  | tooMany =>
      rw [plan] at same
      simp only [CommandTemplate.start, plan, same]
      exact ⟨trivial, d, rfl, fun _ => rfl, fun _ => rfl⟩
  | program path argv =>
      obtain ⟨result, d', after, kept⟩ := providing_spawnAndWait m d path argv (some timeout) heard
      rw [plan] at same
      simp only [CommandTemplate.start, plan, same]
      exact ⟨congrArg some result, d', after, kept, m.disposition_spawnAndWait path argv _⟩

end Machine

namespace World

/-- The same process with something else provided for signals. -/
def providing (p : World) (dispositions : List (Nat × Disposition)) (handlers : CrashHandlers) :
    World :=
  { p with machine := p.machine.providing dispositions, handlers }

/-- Has the process not ended? -/
def goesOn (w : World) : Bool :=
  match w.machine.fate with
  | .running | .suspended => true
  | .ended _ => false

end World

/-- Is it one of the things that a process can have provided for a signal before there are crash
    handlers? -/
def Disposition.Own : Disposition → Prop
  | .standard | .ignored | .handler | .infoHandler => True
  | .crashReport | .wakeUp => False

namespace Handler

/-- What a process had provided for signals, and the signals for which it has had crash handlers
    since, which know what there was before. -/
structure Arrangement where
  me : ThreadId
  prior : Nat → Disposition
  signals : List Int
  handlers : CrashHandlers
  own : ∀ k, (prior k).Own
  lethal : ∀ n ∈ signals, ∃ s, Signal.ofNumber? n = some s ∧ s.defaultAction = .terminate
  recorded : ∀ n ∈ signals, handlers.previous? n.toNat = some (prior n.toNat)

namespace Arrangement

variable {a : Arrangement} {w p : World} {α : Type}

/-- A process with these crash handlers and one without them, in the same state otherwise; no other
    thread is making a report. -/
structure Alike (a : Arrangement) (w p : World) : Prop where
  same : ∃ d, w = p.providing d a.handlers
  bare : p.handlers = .none
  lock : p.context.reportLock.owner = 0 ∨ p.context.reportLock.owner = a.me.number
  plain : ∀ k, p.machine.disposition k = a.prior k
  installed : p.goesOn = true →
    ∀ k : Nat, w.machine.disposition k = if (k : Int) ∈ a.signals then .crashReport else a.prior k

/-- Neither has ended. -/
def Going (a : Arrangement) (w p : World) : Prop := a.Alike w p ∧ p.goesOn = true

/-- The two processes do the same, as long as they go on. -/
abbrev Matches (a : Arrangement) (c d : Steps World α) : Prop := Steps.Matches a.Going a.Alike c d

/-- A change of the machine that has nothing to do with signals. -/
theorem Going.machine (h : a.Going w p) {n n' : Machine} (same : ∃ d, n' = n.providing d)
    (kept : ∀ k, n.disposition k = p.machine.disposition k)
    (kept' : ∀ k, n'.disposition k = w.machine.disposition k) :
    a.Alike { w with machine := n' } { p with machine := n } := by
  obtain ⟨⟨⟨d, rfl⟩, bare, lock, plain, installed⟩, going⟩ := h
  obtain ⟨d', rfl⟩ := same
  refine ⟨⟨d', rfl⟩, bare, lock, ?_, ?_⟩
  · intro k
    exact (kept k).trans (plain k)
  · intro _ k
    exact (kept' k).trans (installed going k)

theorem Going.aside (h : a.Going w p) {f : Machine → Machine} (aside : Machine.Aside f) :
    a.Alike { w with machine := f w.machine } { p with machine := f p.machine } := by
  have kept (m : Machine) (k : Nat) : (f m).disposition k = m.disposition k := by
    unfold Machine.disposition
    rw [aside.dispositions_eq]
  apply h.machine
  · obtain ⟨d, rfl⟩ := h.1.same
    exact ⟨d, aside p.machine d⟩
  · exact kept p.machine
  · exact kept w.machine

theorem matches_look {f : World → α} (blind : ∀ p d h, f (World.providing p d h) = f p) :
    a.Matches (Steps.look f) (Steps.look f) := by
  refine .act fun w p h => ?_
  obtain ⟨d, rfl⟩ := h.1.same
  exact ⟨blind p d a.handlers, h.1⟩

theorem matches_machineStep {f : Machine → Machine} (aside : Machine.Aside f) :
    a.Matches (World.machineStep f) (World.machineStep f) :=
  .change fun _ _ h => h.aside aside

theorem matches_say (text : Fragments) : a.Matches (World.say text) (World.say text) := by
  induction text with
  | nil => exact .done ()
  | cons fragment rest ih =>
      exact (matches_machineStep (Machine.aside_say fragment)).bind fun _ => ih

theorem matches_append (path : Bytes) (text : Fragments) :
    a.Matches (World.append path text) (World.append path text) := by
  induction text with
  | nil => exact .done ()
  | cons fragment rest ih =>
      exact (matches_machineStep (Machine.aside_appendTo path fragment)).bind fun _ => ih

theorem Going.attempt (h : a.Going w p) (path : CString) :
    (LogFile.attempt path w.machine).1 = (LogFile.attempt path p.machine).1 ∧
      a.Alike { w with machine := (LogFile.attempt path w.machine).2 }
        { p with machine := (LogFile.attempt path p.machine).2 } := by
  have aside : Machine.Aside fun m => (LogFile.attempt path m).2 := fun m d =>
    congrArg Prod.snd (Machine.providing_attempt path m d)
  refine ⟨?_, h.aside aside⟩
  obtain ⟨d, rfl⟩ := h.1.same
  have same := congrArg Prod.fst (Machine.providing_attempt path p.machine d)
  exact same

theorem matches_search (size number : Nat) (name : LogFile.Name) :
    a.Matches (World.onMachine (LogFile.search size number name))
      (World.onMachine (LogFile.search size number name)) := by
  -- Every refusal leaves fewer numbers to try.
  obtain ⟨left, h⟩ : ∃ left, Decimal.tenTo LogFile.nameCapacity - number = left := ⟨_, rfl⟩
  induction left using Nat.strong_induction_on generalizing number name with
  | _ left ih =>
      rw [LogFile.search]
      refine .step (fun w p going => (going.attempt name.asCString).2) ?_
      intro w p going
      dsimp only
      rw [(going.attempt name.asCString).1]
      cases tried : (LogFile.attempt name.asCString p.machine).1 with
      | ok _ => exact .done _
      | error e =>
          dsimp only
          split
          · split
            · next next made =>
              have lt := LogFile.lt_of_numbered made
              exact ih _ (by omega) (number + 1) next rfl
            · exact .done _
          · exact .done _

theorem matches_create (dir stem program : CString) (pid : Int) :
    a.Matches (World.onMachine (LogFile.create dir stem program pid))
      (World.onMachine (LogFile.create dir stem program pid)) := by
  unfold LogFile.create
  split
  · exact matches_search _ _ _
  · exact .done _

/-! ## Commands -/

/-- The signal for the ends of children does not end a process, so it has no crash handler. -/
theorem child_notMem (a : Arrangement) : (Machine.childSignal : Int) ∉ a.signals := by
  intro member
  obtain ⟨s, number, lethal⟩ := a.lethal _ member
  have child : Signal.ofNumber? Machine.childSignal = some ⟨17, by decide⟩ := by decide
  cases child.symm.trans number
  cases lethal

theorem Going.heard (h : a.Going w p) :
    w.machine.disposition Machine.childSignal = p.machine.disposition Machine.childSignal := by
  rw [h.1.installed h.2, h.1.plain, if_neg a.child_notMem]

theorem matches_startCommand (select : Commands → CommandTemplate × Duration) (override : CString)
    (fatal : Bool) {table : World → Substitutions}
    (blind : ∀ p d h, table (World.providing p d h) = table p) (what : String) :
    a.Matches (World.startCommand select override fatal table what)
      (World.startCommand select override fatal table what) := by
  refine .act fun w p h => ?_
  have heard := h.heard
  obtain ⟨d, same⟩ := h.1.same
  have available : w.context.commands.tryRead = p.context.commands.tryRead := by
    rw [same]
    rfl
  have texts : table w = table p := by
    rw [same]
    exact blind p d a.handlers
  have machine : w.machine = p.machine.providing d := by
    rw [same]
    rfl
  rw [available, texts]
  split
  · exact ⟨rfl, h.1⟩
  · next commands _ =>
    rw [machine] at heard
    obtain ⟨result, d', after, kept', kept⟩ := Machine.providing_start p.machine d
      (select commands).1 override fatal (table p) (select commands).2 what heard
    rw [← machine] at result after kept'
    exact ⟨result, h.machine ⟨d', after⟩ kept kept'⟩

theorem matches_childEnded : a.Matches World.childEnded World.childEnded := by
  refine Steps.Matches.bind (.change fun w p h => ?_) fun _ => .done _
  have own := a.own Machine.childSignal
  have heard := h.heard
  have plain := h.1.plain Machine.childSignal
  have number : (Machine.childSignal : Int).toNat = Machine.childSignal := rfl
  have circumstances : w.machine.circumstances = p.machine.circumstances := by
    obtain ⟨d, rfl⟩ := h.1.same
    rfl
  -- Both look at what is provided for this one signal, and find the same.
  unfold World.interrupt
  rw [number, heard, plain, circumstances]
  cases provided : a.prior Machine.childSignal with
  | standard | ignored | handler | infoHandler =>
      exact h.aside (Machine.aside_signalEffect _ _ _)
  | crashReport | wakeUp =>
      rw [provided] at own
      cases own

theorem matches_afterWait (started : Option Spawned) :
    a.Matches (World.afterWait World.childEnded started)
      (World.afterWait World.childEnded started) := by
  cases started with
  | none => exact .done _
  | some spawned =>
      cases result : spawned.result with
      | error halt =>
          rw [World.afterWait_error result]
          exact .done _
      | ok answer =>
          rw [World.afterWait_ok result]
          apply Steps.Matches.andThen
          · split
            · exact matches_childEnded
            · exact .done _
          · intro _
            exact (matches_machineStep (Machine.aside_reportFailure spawned)).bind fun _ => .done _

theorem matches_runCommand (select : Commands → CommandTemplate × Duration) (override : CString)
    (fatal : Bool) {table : World → Substitutions}
    (blind : ∀ p d h, table (World.providing p d h) = table p) (what : String) :
    a.Matches (World.runCommand World.childEnded select override fatal table what)
      (World.runCommand World.childEnded select override fatal table what) :=
  (matches_startCommand select override fatal blind what).bind matches_afterWait

/-! ## Reports -/

theorem matches_finish (program stackFile : CString) :
    a.Matches (Session.finish World.childEnded program stackFile none true)
      (Session.finish World.childEnded program stackFile none true) := by
  have told : a.Matches
      ((Session.invoke World.childEnded program (some stackFile)).andThen fun _ => return .ok ())
      ((Session.invoke World.childEnded program (some stackFile)).andThen fun _ => return .ok ()) :=
    (matches_runCommand _ _ _ (fun _ _ _ => rfl) _).andThen fun _ => .done _
  refine (matches_look (f := (·.context.fatalStackLogging)) fun _ _ _ => rfl).bind fun on => ?_
  split
  · exact told
  · exact .done _

theorem matches_concluded (banner : Banner) (program logName : CString) (ran : Bool) :
    a.Matches (Report.concluded banner program logName ran)
      (Report.concluded banner program logName ran) := by
  refine (matches_look fun _ _ _ => rfl).bind fun text => ?_
  refine (matches_say text).bind fun _ => ?_
  split
  · exact matches_finish _ _
  · exact .done _

theorem matches_announced (r : Report) (program logName : CString) :
    a.Matches (r.announced program logName) (r.announced program logName) := by
  have ran : a.Matches (r.runPostmortem logName) (r.runPostmortem logName) :=
    matches_runCommand _ _ _ (fun _ _ _ => rfl) _
  refine (matches_look fun _ _ _ => rfl).bind fun text => ?_
  refine (matches_say text).bind fun _ => ?_
  exact ran.andThen (matches_concluded _ program logName)

theorem matches_continued (r : Report) (program : CString)
    (result : Except LogFileError CString) :
    a.Matches (r.continued program result) (r.continued program result) := by
  cases result with
  | ok logName =>
      show a.Matches (r.writeTo program logName) (r.writeTo program logName)
      rw [Report.writeTo_eq]
      refine (matches_look fun _ _ _ => rfl).bind fun text => ?_
      exact (matches_append _ text).bind fun _ => matches_announced r program logName
  | error e =>
      refine (matches_say _).bind fun _ => ?_
      exact (matches_machineStep (Machine.aside_setErrno e.errno)).bind fun _ => .done _

theorem matches_written (r : Report) : a.Matches r.written r.written := by
  refine (matches_look (f := (·.context.reportNames)) fun _ _ _ => rfl).bind fun names => ?_
  refine (matches_look (f := (·.machine.pid)) fun _ _ _ => rfl).bind fun pid => ?_
  refine (matches_create _ _ _ _).bind fun result => ?_
  exact matches_continued r names.programName result

theorem matches_unmarked (r : Report) : a.Matches r.unmarked r.unmarked := by
  refine (matches_look (f := World.trapped) fun _ _ _ => rfl).bind fun trapped => ?_
  split
  · exact (matches_machineStep (Machine.aside_finish _)).bind fun _ => .done _
  · exact matches_written r

/-- A change of the context that leaves the report lock with this thread, or free. -/
theorem Going.context (h : a.Going w p) {f : Context → Context}
    (lock : (f p.context).reportLock.owner = 0 ∨ (f p.context).reportLock.owner = a.me.number) :
    a.Alike { w with context := f w.context } { p with context := f p.context } := by
  obtain ⟨⟨⟨d, rfl⟩, bare, -, plain, installed⟩, going⟩ := h
  exact ⟨⟨d, rfl⟩, bare, lock, plain, fun _ => installed going⟩

/-- The two processes make the same report. -/
theorem matches_make (r : Report) : a.Matches r.make r.make := by
  have unmarked : a.Matches r.unmarked r.unmarked := matches_unmarked r
  rw [Report.make_eq]
  split
  · refine Steps.Matches.bind (.change fun w p h => ?_) fun _ => unmarked
    exact h.context (f := fun c => { c with crashing := true }) h.1.lock
  · exact unmarked

/-- And they let go of the lock after it, if they do. -/
theorem matches_makeAndLeave (r : Report) : a.Matches r.makeAndLeave r.makeAndLeave := by
  have left : a.Matches (Steps.change Report.leave) (Steps.change Report.leave) := by
    refine .change fun w p h => ?_
    exact h.context (f := fun c => { c with reportLock := c.reportLock.release }) (.inl rfl)
  refine (matches_make r).bind fun result => ?_
  split
  · exact left.bind fun _ => .done _
  · exact .done _

end Arrangement

end Handler

end Postmortem

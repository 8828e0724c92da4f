import Postmortem.Proofs.Outward
import Postmortem.Proofs.Sequence
import Postmortem.Proofs.Setup
import Postmortem.SessionEnd
import Postmortem.StackLog

/-! # Reports disturb nothing

A report leaves the context as it found it, but for the mark of a crash, and that one is made by the
fatal reports that get the lock and by nothing else. Reports are made where they are asked for, and
in the middle of other calls: a signal may bring about a report, and so may the end of a program
that a stack trace is handed to. So every call of the library is read as steps that have nothing to
do with reports and of the reports between them. A report that does not return is the last one.
-/

namespace Postmortem

variable {α β : Type}

/-! ## One report -/

namespace Report

/-- Did the call get the lock? Only a call that did can be stopped. -/
def gotLock : Except Halt Attempt → Bool
  | .ok attempt => attempt = .acquired
  | .error _ => true

/-- Does the call of a report mark the process as crashing? -/
def marks (r : Report) (result : Except Halt Attempt) : Bool := r.fatal && gotLock result

variable {w : World}

theorem context_entered (r : Report) (me : ThreadId) (w : World) :
    (r.entered me w).context =
      { w.context with reportLock := ⟨me.number⟩, crashing := w.context.crashing || r.fatal } := by
  rw [entered]
  cases r.fatal with
  | true => simp [markCrashing]
  | false => simp

@[simp] theorem handlers_entered (r : Report) (me : ThreadId) (w : World) :
    (r.entered me w).handlers = w.handlers := by
  rw [entered]
  split <;> rfl

/-- What a report has left behind that has got the lock, up to where it lets go of it. -/
theorem context_of_made (r : Report) (me : ThreadId) (w : World) :
    (r.made me w).2.context =
        { w.context with reportLock := ⟨me.number⟩, crashing := w.context.crashing || r.fatal } ∧
      (r.made me w).2.lines = w.lines ∧ (r.made me w).2.handlers = w.handlers := by
  have made := r.outward_unmarked (r.entered me w)
  refine ⟨made.context.trans (context_entered r me w), ?_, ?_⟩
  · exact made.lines.trans (lines_entered r me w)
  · exact made.handlers.trans (handlers_entered r me w)

/-- A report that has not got the lock leaves everything as it is. -/
theorem log_of_held (r : Report) (me : ThreadId) (held : w.context.reportLock ≠ .free) :
    (r.log me).run w = (.ok (w.context.reportLock.attempt me).1, w) ∧
      (w.context.reportLock.attempt me).1 ≠ .acquired := by
  have owned : w.context.reportLock.owner ≠ 0 := fun none => held (congrArg ReportLock.mk none)
  by_cases own : w.context.reportLock.owner = me.number
  · have asked : ask me w = (.refused, w) := by
      simp only [ask, ReportLock.attempt, if_neg owned, if_pos own]
    have attempt : (w.context.reportLock.attempt me).1 = .refused := congrArg Prod.fst asked
    rw [attempt, log_eq, Steps.run, asked]
    exact ⟨rfl, by simp⟩
  · have asked := ask_of_held me owned own
    have attempt : (w.context.reportLock.attempt me).1 = .retry := congrArg Prod.fst asked
    rw [attempt, log_eq, Steps.run, asked]
    exact ⟨rfl, by simp⟩

/-- What the call of a report marks, however it ends. -/
theorem marked_after_log (r : Report) (me : ThreadId) (w : World) :
    ((r.log me).run w).2.context.crashing =
        (w.context.crashing || r.marks ((r.log me).run w).1) ∧
      ((r.log me).run w).2.lines = w.lines ∧ ((r.log me).run w).2.handlers = w.handlers := by
  by_cases free : w.context.reportLock = .free
  · obtain ⟨context, lines, handlers⟩ := context_of_made r me w
    have crashing := congrArg Context.crashing context
    rw [run_log r me free]
    cases (r.made me w).1 with
    | ok _ => simp [leaves, leave, marks, gotLock, Except.map, crashing, lines, handlers]
    | error halt =>
        cases halt <;> simp [leaves, leave, marks, gotLock, Except.map, crashing, lines, handlers]
  · obtain ⟨ran, failed⟩ := log_of_held r me free
    simp [ran, marks, gotLock, failed]

/-- What the call of a report leaves behind that returns. -/
theorem context_after_log (r : Report) (me : ThreadId) (w : World) {attempt : Attempt}
    (returned : ((r.log me).run w).1 = .ok attempt) :
    attempt = (w.context.reportLock.attempt me).1 ∧
      ((r.log me).run w).2.context =
        { w.context with crashing := w.context.crashing || r.marks (.ok attempt) } := by
  by_cases free : w.context.reportLock = .free
  · have made := made_of_returns free ⟨attempt, returned⟩
    obtain ⟨context, -⟩ := context_of_made r me w
    rw [run_log r me free, made] at returned ⊢
    cases returned
    refine ⟨by rw [free]; rfl, ?_⟩
    simp only [leaves, leave, if_true, context, marks, gotLock, decide_true, Bool.and_true, free]
    rfl
  · obtain ⟨ran, failed⟩ := log_of_held r me free
    rw [ran] at returned ⊢
    cases returned
    simp [marks, gotLock, failed]

end Report

/-! ## Readings -/

/-- Neither the report lock nor the mark of a crash is touched. -/
structure Context.Still (c later : Context) : Prop where
  lock : later.reportLock = c.reportLock
  mark : later.crashing = c.crashing

namespace World

def Still (w later : World) : Prop := w.context.Still later.context

theorem still_of_context {w later : World} (h : later.context = w.context) : w.Still later :=
  ⟨by rw [h], by rw [h]⟩

theorem Still.trans {u v w : World} (h : u.Still v) (h' : v.Still w) : u.Still w :=
  ⟨h'.lock.trans h.lock, h'.mark.trans h.mark⟩

theorem covers_still : Covers Still where
  refl _ := still_of_context rfl
  say _ _ := still_of_context rfl
  append _ _ _ := still_of_context rfl
  attempt _ _ := still_of_context rfl
  setErrno _ _ := still_of_context rfl
  start _ _ _ _ _ _ _ := still_of_context rfl
  complain _ _ := still_of_context rfl
  interrupt w n c := still_of_context (outward_interrupt n c w).context
  finish _ _ := still_of_context rfl

theorem still_machineStep (f : Machine → Machine) : (machineStep f).Always Still :=
  Steps.always_change fun _ => still_of_context rfl

end World

/-- A computation that has nothing to do with reports and does not return. -/
def Stops : Steps World (Except Halt α) → Prop
  | .done (.ok _) => False
  | .done (.error _) => True
  | .step effect next => ∀ w : World, w.Still (effect w) ∧ Stops (next w)

namespace Stops

variable {c : Steps World (Except Halt α)}

theorem run (h : Stops c) (w : World) :
    w.Still (c.run w).2 ∧ ∃ halt, (c.run w).1 = .error halt := by
  induction c generalizing w with
  | done result =>
      cases result with
      | ok a => exact absurd h not_false
      | error halt => exact ⟨World.still_of_context rfl, halt, rfl⟩
  | step effect next ih =>
      obtain ⟨still, stops⟩ := h w
      obtain ⟨later, halt, stopped⟩ := ih w stops (effect w)
      exact ⟨still.trans later, halt, stopped⟩

theorem andThen (h : Stops c) (f : α → Steps World (Except Halt β)) : Stops (c.andThen f) := by
  induction c with
  | done result =>
      cases result with
      | ok a => exact absurd h not_false
      | error halt => trivial
  | step effect next ih =>
      intro w
      exact ⟨(h w).1, ih w (h w).2⟩

theorem abandon (halt : Halt) : Stops (Handler.abandon halt) := by
  cases halt with
  | waiting | ended => trivial
  | panicked => exact fun _ => ⟨World.still_of_context rfl, trivial⟩

end Stops

/-- A computation as a sequence of still steps and of calls for reports. One that does not return is
    the last. -/
inductive Reading : Steps World (Except Halt α) → Type where
  | done (result : Except Halt α) : Reading (.done result)
  | step {effect : World → World} {next : World → Steps World (Except Halt α)}
      (still : ∀ w : World, w.Still (effect w)) (rest : ∀ w : World, Reading (next w)) :
      Reading (.step effect next)
  | report (me : ThreadId) (r : Report)
      {next : Except Halt Attempt → Steps World (Except Halt α)}
      (rest : ∀ attempt, Reading (next (.ok attempt)))
      (stops : ∀ halt, Stops (next (.error halt))) : Reading (r.log me >>= next)

namespace Reading

variable {c : Steps World (Except Halt α)}

/-- The reports that a run calls for, and what comes of the calls. -/
def reports {c : Steps World (Except Halt α)} (k : Reading c) (w : World) :
    List (Report × Except Halt Attempt) :=
  match k with
  | done _ => []
  | @step _ effect _ _ rest => (rest w).reports (effect w)
  | report me r rest _ =>
    match (r.log me).run w with
    | (.ok attempt, after) => (r, .ok attempt) :: (rest attempt).reports after
    | (.error halt, _) => [(r, .error halt)]

/-- The mark of a crash after a run is that from before it, or one that a report has made. -/
theorem crashing_run (k : Reading c) (w : World) :
    (c.run w).2.context.crashing =
      (w.context.crashing || (k.reports w).any fun (r, result) => r.marks result) := by
  induction k generalizing w with
  | done result => simp [reports]
  | step still rest ih =>
      rw [reports, ← (still w).mark]
      exact ih w _
  | report me r rest stops ih =>
      have marked := (r.marked_after_log me w).1
      rw [Steps.run_bind, reports]
      generalize (r.log me).run w = course at marked ⊢
      obtain ⟨halt | attempt, later⟩ := course
      · dsimp only at marked ⊢
        rw [((stops halt).run later).1.mark, marked, List.any_cons, List.any_nil, Bool.or_false]
      · dsimp only at marked ⊢
        rw [ih, marked, List.any_cons, Bool.or_assoc]

/-- Where nobody else takes the lock, every report gets it. If the run returns so do the reports, and
    the lock is free again. -/
theorem free_run (k : Reading c) {w : World} (free : w.context.reportLock = .free) :
    (∀ call ∈ k.reports w, Report.gotLock call.2 = true) ∧
      ∀ a, (c.run w).1 = .ok a → (c.run w).2.context.reportLock = .free ∧
        ∀ call ∈ k.reports w, call.2 = .ok .acquired := by
  induction k generalizing w with
  | done result => simp [reports, free]
  | step still rest ih => exact ih w ((still w).lock.trans free)
  | report me r rest stops ih =>
      have course := Report.run_log r me free
      cases made : (r.made me w).1 with
      | ok _ =>
          rw [made] at course
          have unlocked : ((r.log me).run w).2.context.reportLock = .free :=
            Report.free_after_log free ⟨.acquired, congrArg Prod.fst course⟩
          obtain ⟨got, ended⟩ := ih .acquired unlocked
          rw [Steps.run_bind, reports]
          simp only [course, Except.map] at unlocked got ended ⊢
          refine ⟨List.forall_mem_cons.mpr ⟨rfl, got⟩, ?_⟩
          intro a returned
          obtain ⟨free', acquired⟩ := ended a returned
          exact ⟨free', List.forall_mem_cons.mpr ⟨rfl, acquired⟩⟩
      | error halt =>
          rw [made] at course
          rw [Steps.run_bind, reports]
          simp only [course, Except.map]
          refine ⟨List.forall_mem_singleton.mpr rfl, ?_⟩
          intro a returned
          obtain ⟨-, halt', stopped⟩ := (stops halt).run _
          rw [stopped] at returned
          cases returned

/-! ### Putting readings together -/

def andThen {c : Steps World (Except Halt α)} {f : α → Steps World (Except Halt β)} (k : Reading c)
    (j : ∀ a, Reading (f a)) : Reading (c.andThen f) :=
  match k with
  | done (.ok a) => j a
  | done (.error halt) => .done (.error halt)
  | step still rest => .step still fun w => (rest w).andThen j
  | @report _ me r next rest stops =>
    have after : (r.log me >>= next).andThen f = r.log me >>= fun result => (next result).andThen f :=
      Steps.bind_assoc (r.log me) next _
    after ▸ report me r (fun attempt => (rest attempt).andThen j) fun halt => (stops halt).andThen f

/-- What comes after a computation that has nothing to do with reports. -/
def after {f : α → Steps World (Except Halt β)} :
    (c : Steps World α) → c.Always World.Still → (∀ a, Reading (f a)) → Reading (c >>= f)
  | .done a, _, j => j a
  | .step _ next, still, j => step (fun w => (still w).1) fun w => after (next w) (still w).2 j

def look {f : World → β} {next : β → Steps World (Except Halt α)} (j : ∀ b, Reading (next b)) :
    Reading (Steps.look f >>= next) :=
  after _ (World.covers_still.always_look f) j

def machineStep {f : Machine → Machine} {next : Unit → Steps World (Except Halt α)}
    (j : Reading (next ())) : Reading (World.machineStep f >>= next) :=
  after _ (World.still_machineStep f) fun _ => j

def say {text : Fragments} {next : Unit → Steps World (Except Halt α)} (j : Reading (next ())) :
    Reading (World.say text >>= next) :=
  after _ (World.covers_still.always_say text) fun _ => j

def cond {p : Prop} [Decidable p] {c d : Steps World (Except Halt α)} (k : Reading c)
    (j : Reading d) : Reading (if p then c else d) :=
  if h : p then (if_pos h).symm ▸ k else (if_neg h).symm ▸ j

/-! ### Calls of the library -/

variable {childEnded : Steps World (Except Halt Unit)}

def afterWait (ended : Reading childEnded) :
    (started : Option Spawned) → Reading (World.afterWait childEnded started)
  | none => .done (.ok false)
  | some spawned =>
    match result : spawned.result with
    | .error halt => World.afterWait_error result ▸ .done (.error halt)
    | .ok _ =>
      (World.afterWait_ok result).symm ▸ (cond ended (.done (.ok ()))).andThen fun _ =>
        machineStep (.done (.ok true))

def runCommand (ended : Reading childEnded) (select : Commands → CommandTemplate × Duration)
    (override : CString) (fatal : Bool) (table : World → Substitutions) (what : String) :
    Reading (World.runCommand childEnded select override fatal table what) :=
  after _ (World.covers_still.always_startCommand select override fatal table what)
    (afterWait ended)

def invoke (ended : Reading childEnded) (program : CString) (stack : Option CString) :
    Reading (Session.invoke childEnded program stack) :=
  runCommand ended _ _ _ _ _

theorem still_addLog (stackFile : CString) (log : Option Bytes) (crashingHard : Bool) :
    (Session.addLog stackFile log crashingHard).Always World.Still := by
  have looks {β : Type} (f : World → β) : (Steps.look f).Always World.Still :=
    World.covers_still.always_look f
  have writes (out : Place) (bytes : Bytes) : (Session.writeTo out bytes).Always World.Still := by
    refine Steps.always_act fun w => ?_
    split <;> exact World.still_of_context rfl
  cases log with
  | none => trivial
  | some path =>
      cases crashingHard with
      | true => trivial
      | false =>
          refine Steps.always_bind ?_ fun _ => trivial
          refine Steps.always_andThen (looks _) fun out => ?_
          refine Steps.always_andThen (looks _) fun log => ?_
          refine Steps.always_andThen (writes out _) fun _ => ?_
          refine Steps.always_bind (looks _) fun (front, failure) => ?_
          refine Steps.always_andThen (writes out front) fun _ => ?_
          cases failure <;> trivial

def finish (ended : Reading childEnded) (program stackFile : CString) (log : Option Bytes)
    (crashingHard : Bool) : Reading (Session.finish childEnded program stackFile log crashingHard) :=
  after _ (still_addLog stackFile log crashingHard) fun _ =>
    look fun _ => cond ((invoke ended _ _).andThen fun _ => .done (.ok ())) (.done (.ok ()))

def onCrash (me : ThreadId) (n : Int) (c : Circumstances) : Reading (Handler.onCrash me n c) :=
  .report me _
    (fun _ => after _ (Steps.always_change fun w =>
      World.still_of_context (World.outward_forward n c w).context) fun _ => .done (.ok ()))
    Stops.abandon

def deliver (me : ThreadId) (n : Int) (c : Circumstances) : Reading (Handler.deliver me n c) :=
  look fun
    | .crashReport => onCrash me n c
    | .standard | .ignored | .handler | .infoHandler | .wakeUp => machineStep (.done (.ok ()))

def ended (me : ThreadId) : Reading (Handler.childEnded me) :=
  look fun _ => deliver me _ _

def logInfo (me : ThreadId) (stack : Option CString) : Reading (Session.logInfo me stack) :=
  look fun _ => cond
    (look fun _ => (invoke (ended me) _ _).andThen fun _ => .done (.ok ())) (.done (.ok ()))

def atExit (me : ThreadId) : Reading (Session.atExit me) :=
  look fun _ => cond (logInfo me none) (.done (.ok ()))

theorem still_createFile (names : Names) : (StackLog.createFile names).Always World.Still :=
  Steps.always_act fun _ => World.still_of_context rfl

def closed : Reading StackLog.closed := say (.done (.ok ()))

def logStack (me : ThreadId) (reason : Bytes) (fatal : Bool) (sessionLog : Option Bytes) :
    Reading (StackLog.log me reason fatal sessionLog) :=
  look fun names => look fun _ => say (after _ (still_createFile names) fun
    | .ok _ => look fun _ => say (look fun _ =>
        after _ (World.covers_still.always_append _ _) fun _ =>
          (cond (finish (ended me) _ _ _ _) (.done (.ok ()))).andThen fun _ => closed)
    | .error _ => look fun _ => say closed)

def call (me : ThreadId) (r : Report) : Reading ((r.log me).andThen fun _ => pure (.ok ())) :=
  .report me r (fun _ => .done (.ok ())) fun _ => trivial

end Reading

/-! ## Sequences of calls -/

/-- What happens to a process that has to do with this library: the calls, the lines that others
    provide for reports, and what goes on around it. -/
inductive Operation where
  | setUp (call : Context.Call)
  | logAtExit
  | provideSymbolizer (symbolizer : Option Symbolizer)
  | setProgramInfo (key value : Bytes)
  | setExtraLines (key : Bytes) (buffer : Option LineBuffer)
  | changeLines (change : LineStore → LineStore)
  | changeMachine (change : Machine → Machine)
  | registerHandlers (config : Config)
  | report (me : ThreadId) (r : Report)
  | signal (me : ThreadId) (n : Int) (c : Circumstances)
  | logStack (me : ThreadId) (reason : Bytes) (fatal : Bool) (sessionLog : Option Bytes)
  | logSession (me : ThreadId) (stack : Option CString)
  | exit (me : ThreadId)

/-! ### Setting up -/

namespace Context

variable {c : Context}

theorem still_take (converted : Except NulError α) {next : α → Setup Unit}
    (h : ∀ a, c.Still (make (next a) c).2) :
    c.Still (make (Setup.take converted >>= next) c).2 := by
  cases converted with
  | error e => exact ⟨rfl, rfl⟩
  | ok a => exact h a

/-- Setting up has nothing to do with reports, refused or not. -/
theorem Call.still (call : Call) (c : Context) : c.Still (call.after c) := by
  cases call with
  | init m path =>
      have begun : c.Still (Call.begun c (.init m path)) := ⟨rfl, rfl⟩
      have rest : (Call.begun c (.init m path)).Still (Call.after (.init m path) c) := by
        refine still_take (foundNames m path) ?_
        rintro ⟨directory, program⟩
        exact ⟨rfl, rfl⟩
      exact ⟨rest.lock.trans begun.lock, rest.mark.trans begun.mark⟩
  | configure config =>
      exact still_take _ fun _ => still_take _ fun _ => still_take _ fun _ => ⟨rfl, rfl⟩
  | setProgramName path => exact still_take _ fun _ => ⟨rfl, rfl⟩
  | setPostmortem command argv fatalArgv => exact still_take _ fun _ => ⟨rfl, rfl⟩
  | setSessionLogger command argv crashArgv => exact still_take _ fun _ => ⟨rfl, rfl⟩
  | setFatalStackLogging on => exact ⟨rfl, rfl⟩

theorem still_guarded {g : Guarded α} {f : α → Context} {later : Context}
    (h : ∀ a, c.Still (f a)) (done : (g.lock >>= fun a => pure (f a)) = .ok later) :
    c.Still later := by
  rw [Guarded.lock] at done
  split at done
  · cases done
  · cases done
    exact h g.value

end Context

namespace Handler

theorem context_install (n : Int) (w : World) : (install n w).2.context = w.context := by
  rw [install]
  split
  · rfl
  · split <;> rfl

theorem context_installAll (signals : List Int) (w : World) :
    (installAll signals w).2.context = w.context := by
  induction signals generalizing w with
  | nil => rfl
  | cons n rest ih =>
      have first := context_install n w
      have others := ih (install n w).2
      rw [installAll]
      cases failed : (install n w).1 with
      | none => simpa [failed] using others.trans first
      | some e => simpa [failed] using others.trans first

theorem context_register (config : Config) (w : World) :
    (register config w).2.context = w.context := by
  rw [register]
  split
  · rfl
  · exact context_installAll _ _

end Handler

namespace Operation

/-- A change of the context that may be refused. -/
def update (change : Context → Except Poisoned Context) (w : World) : World :=
  match change w.context with
  | .ok context => { w with context }
  | .error _ => w

theorem still_update {change : Context → Except Poisoned Context} {w : World}
    (h : ∀ c later, change c = .ok later → c.Still later) : w.Still (update change w) := by
  rw [update]
  split
  · next changed => exact h _ _ changed
  · exact World.still_of_context rfl

/-- What an operation does that is a single step and returns. -/
def once (f : World → World) : Steps World (Except Halt Unit) := do
  Steps.change f
  return .ok ()

/-- What an operation does. -/
def steps : Operation → Steps World (Except Halt Unit)
  | setUp call => once fun w => { w with context := call.after w.context }
  | logAtExit => once fun w => { w with context := w.context.logAtExit }
  | provideSymbolizer symbolizer => once fun w => { w with context := { w.context with symbolizer } }
  | setProgramInfo key value => once (update (·.setProgramInfo key value))
  | setExtraLines key buffer => once (update (·.setExtraLines key buffer))
  | changeLines change => once fun w => { w with lines := change w.lines }
  | changeMachine change => once fun w => { w with machine := change w.machine }
  | registerHandlers config => once fun w => (Handler.register config w).2
  | report me r => (r.log me).andThen fun _ => pure (.ok ())
  | signal me n c => Handler.deliver me n c
  | logStack me reason fatal sessionLog => StackLog.log me reason fatal sessionLog
  | logSession me stack => Session.logInfo me stack
  | exit me => Session.atExit me

def readOnce {f : World → World} (still : ∀ w : World, w.Still (f w)) : Reading (once f) :=
  .after _ (Steps.always_change still) fun _ => .done (.ok ())

/-- How an operation is read. -/
def reading : (operation : Operation) → Reading operation.steps
  | setUp call => readOnce fun w => call.still w.context
  | logAtExit => readOnce fun _ => ⟨rfl, rfl⟩
  | provideSymbolizer _ => readOnce fun _ => ⟨rfl, rfl⟩
  | setProgramInfo _ _ => readOnce fun _ =>
    still_update fun _ _ => Context.still_guarded fun _ => ⟨rfl, rfl⟩
  | setExtraLines _ _ => readOnce fun _ =>
    still_update fun _ _ => Context.still_guarded fun _ => ⟨rfl, rfl⟩
  | changeLines _ => readOnce fun _ => World.still_of_context rfl
  | changeMachine _ => readOnce fun _ => World.still_of_context rfl
  | registerHandlers config => readOnce fun w =>
    World.still_of_context (Handler.context_register config w)
  | report me r => .call me r
  | signal me n c => .deliver me n c
  | logStack me reason fatal sessionLog => .logStack me reason fatal sessionLog
  | logSession me stack => .logInfo me stack
  | exit me => .atExit me

/-- Operations one after another, until one does not return. -/
def inSequence (operations : List Operation) : Steps World (Except Halt (List Unit)) :=
  Steps.inOrder (operations.map steps)

def readAll : (operations : List Operation) → Reading (inSequence operations)
  | [] => .done (.ok [])
  | operation :: rest => operation.reading.andThen fun _ => (readAll rest).andThen fun _ => .done (.ok _)

/-- The state after operations one after another. -/
def afterAll (operations : List Operation) (w : World) : World := ((inSequence operations).run w).2

/-- All of the operations return. -/
def AllReturn (operations : List Operation) (w : World) : Prop :=
  ∃ results, ((inSequence operations).run w).1 = .ok results

/-- The reports that operations call for, and what comes of the calls. -/
def reports (operations : List Operation) (w : World) : List (Report × Except Halt Attempt) :=
  (readAll operations).reports w

/-- However a report ends that returns, all the context is as before but for the mark of a crash,
    which is set by a fatal report that gets the lock. Over any calls of the library it is set by
    these alone, and it stays. From the start of a process on every report gets the lock, and
    between the calls it is free. -/
theorem reports_disturb_nothing :
    (∀ (w : World) (r : Report) (me : ThreadId) (attempt : Attempt),
      ((r.log me).run w).1 = .ok attempt →
        let after := ((r.log me).run w).2
        attempt = (w.context.reportLock.attempt me).1 ∧
          after.context = { w.context with crashing := w.context.crashing || r.marks (.ok attempt) } ∧
          after.lines = w.lines ∧ after.handlers = w.handlers) ∧
    (∀ (operations : List Operation) (w : World), (afterAll operations w).context.crashing =
      (w.context.crashing || (reports operations w).any fun (r, result) => r.marks result)) ∧
    (∀ (operations : List Operation) (m : Machine),
      (∀ call ∈ reports operations (.start m), Report.gotLock call.2 = true) ∧
        ((afterAll operations (.start m)).context.crashing = true ↔
          ∃ call ∈ reports operations (.start m), call.1.fatal = true) ∧
        (AllReturn operations (.start m) →
          (afterAll operations (.start m)).context.reportLock = .free ∧
            ∀ call ∈ reports operations (.start m), call.2 = .ok .acquired)) := by
  have crashing (operations : List Operation) (w : World) : (afterAll operations w).context.crashing =
      (w.context.crashing || (reports operations w).any fun (r, result) => r.marks result) :=
    (readAll operations).crashing_run w
  refine ⟨?_, crashing, ?_⟩
  · intro w r me attempt returned
    obtain ⟨tried, context⟩ := r.context_after_log me w returned
    obtain ⟨-, lines, handlers⟩ := r.marked_after_log me w
    exact ⟨tried, context, lines, handlers⟩
  · intro operations m
    obtain ⟨got, ended⟩ := (readAll operations).free_run (w := .start m) rfl
    refine ⟨got, ?_, fun ⟨_, returned⟩ => ended _ returned⟩
    rw [crashing]
    simp only [World.start, Context.initial, Bool.false_or, List.any_eq_true, Report.marks,
      Bool.and_eq_true]
    constructor
    · rintro ⟨call, member, fatal, -⟩
      exact ⟨call, member, fatal⟩
    · rintro ⟨call, member, fatal⟩
      exact ⟨call, member, fatal, got call member⟩

end Operation

end Postmortem

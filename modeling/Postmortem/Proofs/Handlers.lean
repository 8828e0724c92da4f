import Postmortem.Handler
import Postmortem.Proofs.Argv
import Postmortem.Proofs.Lockstep

/-! # Crash handlers leave things as they were

With crash handlers for some signals a process does what it would have done without them, but for
the reports: whatever signals come, also while a handler runs, and however often handlers are
registered.
-/

namespace Postmortem

namespace Handler

/-! ## Registering -/

/-- Handlers for these signals have been installed, beside those that there were. -/
structure Installs (signals : List Int) (w v : World) : Prop where
  machine : ∃ d, v.machine = w.machine.providing d
  context : v.context = w.context
  lines : v.lines = w.lines
  registered : v.handlers.registered = w.handlers.registered
  disposition : ∀ k : Nat, v.machine.disposition k =
    if (k : Int) ∈ signals then .crashReport else w.machine.disposition k
  previous : ∀ k : Nat, v.handlers.previous? k = (w.handlers.previous? k).or
    (if (k : Int) ∈ signals then some (w.machine.disposition k) else none)

variable {w v u p : World} {signals more : List Int} {n : Int}

theorem Installs.refl (w : World) : Installs [] w w where
  machine := ⟨w.machine.dispositions, rfl⟩
  context := rfl
  lines := rfl
  registered := rfl
  disposition _ := rfl
  previous _ := Option.or_none.symm

theorem Installs.trans (h : Installs signals w v) (h' : Installs more v u) :
    Installs (signals ++ more) w u where
  machine := by
    obtain ⟨_, first⟩ := h.machine
    obtain ⟨d, second⟩ := h'.machine
    refine ⟨d, ?_⟩
    rw [second, first]
    rfl
  context := h'.context.trans h.context
  lines := h'.lines.trans h.lines
  registered := h'.registered.trans h.registered
  disposition k := by
    rw [h'.disposition, h.disposition]
    by_cases first : (k : Int) ∈ signals
    · simp [first]
    · simp [first]
  previous k := by
    rw [h'.previous, h.previous, h.disposition, Option.or_assoc]
    by_cases first : (k : Int) ∈ signals
    · simp [first]
    · simp [first]

theorem Installs.providing (h : Installs signals w v) : ∃ d, v = w.providing d v.handlers := by
  obtain ⟨d, machine⟩ := h.machine
  have context := h.context
  have lines := h.lines
  cases v
  cases machine
  cases context
  cases lines
  exact ⟨d, rfl⟩

/-- A signal that a process can provide for. -/
def Catchable (n : Int) : Prop := ∃ s, Signal.ofNumber? n = some s ∧ s.catchable = true

theorem number_of_ofNumber? {s : Signal} (found : Signal.ofNumber? n = some s) :
    (s.number : Int) = n := by
  unfold Signal.ofNumber? at found
  split at found
  · next valid =>
    cases found
    exact Int.toNat_of_nonneg (by omega)
  · cases found

theorem toNat_of_ofNumber? {s : Signal} (found : Signal.ofNumber? n = some s) :
    (n.toNat : Int) = n := by
  have number := number_of_ofNumber? found
  omega

theorem installs_install (catchable : Catchable n) (w : World) :
    (install n w).1 = none ∧ Installs [n] w (install n w).2 := by
  obtain ⟨s, found, catchable⟩ := catchable
  have number := number_of_ofNumber? found
  have same (k : Nat) : (k : Int) ∈ [n] ↔ k = s.number := by
    rw [List.mem_singleton, ← number, Nat.cast_inj]
  simp only [install, found, catchable, if_true]
  refine ⟨trivial, ⟨_, rfl⟩, rfl, rfl, rfl, ?_, ?_⟩
  · intro k
    simp only [same, Machine.disposition_setDisposition]
  · intro k
    simp only [same, CrashHandlers.previous?, List.lookup_append]
    by_cases it : k = s.number
    · simp [it]
    · have differs : (k == s.number) = false := beq_eq_false_iff_ne.mpr it
      simp [it, differs, List.lookup_cons]

/-- Signals that can be handled get their handlers. -/
theorem installs_installAll (catchable : ∀ n ∈ signals, Catchable n) (w : World) :
    (installAll signals w).1 = [] ∧ Installs signals w (installAll signals w).2 := by
  induction signals generalizing w with
  | nil => exact ⟨rfl, .refl w⟩
  | cons n rest ih =>
      obtain ⟨done, first⟩ := installs_install (catchable n List.mem_cons_self) w
      obtain ⟨all, others⟩ :=
        ih (fun k member => catchable k (List.mem_cons_of_mem n member)) (install n w).2
      simp only [installAll, done, all]
      exact ⟨trivial, first.trans others⟩

theorem installs_register {config : Config} (fresh : w.handlers.registered = false)
    (catchable : ∀ n ∈ config.signals, Catchable n) :
    (register config w).1 = .ok () ∧
      Installs config.signals { w with handlers := { w.handlers with registered := true } }
        (register config w).2 := by
  obtain ⟨all, installs⟩ := installs_installAll catchable
    { w with handlers := { w.handlers with registered := true } }
  simp only [register, fresh, Bool.false_eq_true, if_false, all]
  exact ⟨rfl, installs⟩

/-! ## One signal -/

/-- Is the thread not making a report? Then it begins with one. -/
def claim (me : ThreadId) (w : World) : Bool × World :=
  if w.context.reportLock.owner = me.number then (false, w)
  else (true, { w with context := { w.context with reportLock := ⟨me.number⟩ } })

/-- A thread makes a report, unless it is making one. -/
def reportOnce (me : ThreadId) (r : Report) : Steps World (Except Halt Unit) := do
  if ← Steps.act (claim me) then r.makeAndLeave else return .ok ()

/-- A signal does what the process has provided for it. If it is one of these, a fatal report that
    names it comes first, unless the thread is making a report; and if that report does not return,
    the signal does nothing more. -/
def foreseen (signals : List Int) (me : ThreadId) (n : Int) (c : Circumstances) :
    Steps World (Except Halt Unit) := do
  let provided ← Steps.look fun w => w.machine.disposition n.toNat
  let report := reportOnce me ⟨true, Signal.reasonOfNumber n, none, none⟩
  match ← (if n ∈ signals then report else pure (.ok ())) with
  | .ok () =>
    World.machineStep (·.signalEffect n c provided)
    return .ok ()
  | .error halt => abandon halt

namespace Arrangement

variable {a : Arrangement}

theorem number_of_mem (a : Arrangement) (member : n ∈ a.signals) : (n.toNat : Int) = n := by
  obtain ⟨s, found, -⟩ := a.lethal n member
  exact toNat_of_ofNumber? found

theorem toNat_mem_iff (a : Arrangement) (n : Int) : (n.toNat : Int) ∈ a.signals ↔ n ∈ a.signals := by
  constructor
  · intro member
    have number := a.number_of_mem member
    obtain ⟨s, found, -⟩ := a.lethal _ member
    have positive := s.valid.1
    have same := number_of_ofNumber? found
    have nonneg : (n.toNat : Int) = n := by omega
    rw [← nonneg]
    exact member
  · intro member
    rw [a.number_of_mem member]
    exact member

/-- The default action of such a signal ends a process. -/
theorem goesOn_of_lethal (a : Arrangement) (member : n ∈ a.signals) (p : World) :
    World.goesOn { p with machine := p.machine.defaultEffect n } = false := by
  obtain ⟨s, found, lethal⟩ := a.lethal n member
  unfold World.goesOn Machine.defaultEffect Machine.finish
  cases fate : p.machine.fate with
  | running | suspended | ended => simp only [found, lethal, fate]

/-- The handler hands the signal on to what there was before. -/
theorem Going.forward (h : a.Going w p) (member : n ∈ a.signals) (c : Circumstances) :
    a.Alike (World.forward n c w)
      { p with machine := p.machine.signalEffect n c (a.prior n.toNat) } := by
  obtain ⟨d, same⟩ := h.1.same
  have recorded : w.handlers.previous? n.toNat = some (a.prior n.toNat) := by
    rw [same]
    exact a.recorded n member
  have own := a.own n.toNat
  unfold World.forward
  rw [recorded]
  cases provided : a.prior n.toNat with
  | standard =>
      -- The process ends here, so that what it provides for signals no longer matters.
      have ended := a.goesOn_of_lethal member p
      have aside := Machine.aside_defaultEffect n
      obtain ⟨d', put⟩ : ∃ d', w.machine.setDisposition n.toNat .standard = p.machine.providing d' :=
        ⟨_, by rw [same]; rfl⟩
      refine ⟨⟨d', ?_⟩, h.1.bare, h.1.lock, ?_, ?_⟩
      · have after : (p.machine.providing d').defaultEffect n =
            (p.machine.defaultEffect n).providing d' := aside p.machine d'
        rw [put, after, same]
        rfl
      · intro k
        rw [← h.1.plain k]
        unfold Machine.disposition
        rw [← aside.dispositions_eq p.machine]
        rfl
      · intro going
        cases ended.symm.trans going
  | ignored | handler | infoHandler => exact h.aside (Machine.aside_signalEffect n c _)
  | crashReport | wakeUp =>
      rw [provided] at own
      cases own

/-- No other thread has the report lock, so it is refused to the thread that has it, and to that
    one only. -/
theorem Going.ask (h : a.Going w p) :
    (∃ w' p', Report.ask a.me w = (.acquired, w') ∧ claim a.me p = (true, p') ∧ a.Alike w' p') ∨
      (Report.ask a.me w = (.refused, w) ∧ claim a.me p = (false, p)) := by
  obtain ⟨d, same⟩ := h.1.same
  have lock : w.context.reportLock = p.context.reportLock := by
    rw [same]
    rfl
  unfold Report.ask ReportLock.attempt claim
  -- A lock held by some other thread would make this one wait; here nobody else has it.
  rcases h.1.lock with free | mine
  · left
    have others : p.context.reportLock.owner ≠ a.me.number := by
      rw [free]
      exact a.me.pos.ne
    rw [lock, if_pos free, if_neg others]
    refine ⟨_, _, rfl, rfl, ?_⟩
    exact h.context (f := fun c => { c with reportLock := ⟨a.me.number⟩ }) (.inr rfl)
  · right
    have taken : p.context.reportLock.owner ≠ 0 := by
      rw [mine]
      exact a.me.pos.ne'
    refine ⟨?_, if_pos mine⟩
    rw [lock, if_neg taken, if_pos mine, ← lock]

theorem matches_abandon (halt : Halt) : a.Matches (abandon halt) (abandon halt) := by
  cases halt with
  | panicked => exact (matches_machineStep (Machine.aside_finish _)).bind fun _ => .done _
  | waiting | ended => exact .done _

/-- What comes after a report is the same if it is the same after each of its outcomes. -/
theorem matches_log (r : Report) {f : Except Halt Attempt → Steps World (Except Halt Unit)}
    {g : Except Halt Unit → Steps World (Except Halt Unit)}
    (returned : ∀ attempt, a.Matches (f (.ok attempt)) (g (.ok ())))
    (stopped : ∀ halt, a.Matches (f (.error halt)) (g (.error halt))) :
    a.Matches (r.log a.me >>= f) (reportOnce a.me r >>= g) := by
  have reports : a.Matches
      ((r.makeAndLeave.andThen fun _ => pure (.ok Attempt.acquired)) >>= f)
      (r.makeAndLeave >>= g) := by
    rw [Steps.andThen, Steps.bind_assoc]
    refine (matches_makeAndLeave r).bind fun result => ?_
    cases result with
    | ok _ => exact returned .acquired
    | error halt => exact stopped halt
  refine .step ?_ ?_
  · intro w p h
    rcases h.ask with ⟨w', p', asked, claimed, alike⟩ | ⟨asked, claimed⟩
    · rw [asked, claimed]
      exact alike
    · rw [asked, claimed]
      exact h.1
  · intro w p h
    rcases h.ask with ⟨w', p', asked, claimed, -⟩ | ⟨asked, claimed⟩
    · dsimp only
      rw [asked, claimed]
      exact reports
    · dsimp only
      rw [asked, claimed]
      exact returned .refused

theorem matches_deliver (a : Arrangement) (n : Int) (c : Circumstances) :
    a.Matches (deliver a.me n c) (foreseen a.signals a.me n c) := by
  refine .step (fun w p h => h.1) ?_
  intro w p h
  have installed := h.1.installed h.2 n.toNat
  have plain := h.1.plain n.toNat
  have own := a.own n.toNat
  dsimp only
  rw [installed, plain]
  simp only [a.toNat_mem_iff]
  by_cases member : n ∈ a.signals
  · rw [if_pos member, if_pos member]
    refine matches_log _ (fun attempt => ?_) matches_abandon
    exact Steps.Matches.bind (.change fun _ _ h => h.forward member c) fun _ => .done _
  · rw [if_neg member, if_neg member]
    cases provided : a.prior n.toNat with
    | standard | ignored | handler | infoHandler =>
        exact (matches_machineStep (Machine.aside_signalEffect n c _)).bind fun _ => .done _
    | crashReport | wakeUp =>
        rw [provided] at own
        cases own

end Arrangement

/-! ## Signals that come while another one is handled -/

/-- When signals come while a computation goes on. -/
inductive Arrivals where
  /-- No more come. -/
  | none
  /-- A step is made before the next one comes. -/
  | later (rest : Arrivals)
  /-- One comes now, with its circumstances, and others while it is handled. -/
  | now (n : Int) (c : Circumstances) (meanwhile rest : Arrivals)

/-- The steps of a computation, up to the end of the process. -/
def runOn : Steps World (Except Halt Unit) → World → Except Halt Unit × World
  | .done result, w => (result, w)
  | .step effect next, w => if w.goesOn then runOn (next w) (effect w) else (.error .ended, w)

/-- What is left of a computation once a signal has been handled: nothing if handling it did not come
    to an end. -/
def resumed (c : Steps World (Except Halt Unit)) : Except Halt Unit → Steps World (Except Halt Unit)
  | .ok () => c
  | .error halt => .done (.error halt)

/-- The steps of a computation and of what handles the signals that come meanwhile, up to the end of
    the process. A thread that waits without end can still be reached by signals. -/
def Arrivals.run (handle : Int → Circumstances → Steps World (Except Halt Unit)) :
    Arrivals → Steps World (Except Halt Unit) → World → Except Halt Unit × World
  | .none, c, w => runOn c w
  | .later rest, .done result, w => rest.run handle (.done result) w
  | .later rest, .step effect next, w =>
    if w.goesOn then rest.run handle (next w) (effect w) else (.error .ended, w)
  | .now n c meanwhile rest, d, w =>
    if w.goesOn then
      let (handled, w) := meanwhile.run handle (handle n c) w
      rest.run handle (resumed d handled) w
    else (.error .ended, w)

namespace Arrangement

variable {a : Arrangement} {c d : Steps World (Except Halt Unit)}

theorem Alike.goesOn_eq (h : a.Alike w p) : w.goesOn = p.goesOn := by
  obtain ⟨d, rfl⟩ := h.same
  rfl

theorem Alike.runOn (h : a.Alike w p) (matched : a.Matches c d) :
    (runOn c w).1 = (runOn d p).1 ∧ a.Alike (runOn c w).2 (runOn d p).2 := by
  induction matched generalizing w p with
  | done result => exact ⟨rfl, h⟩
  | step now later ih =>
      unfold Handler.runOn
      rw [h.goesOn_eq]
      split
      · next going => exact ih w p ⟨h, going⟩ (now w p ⟨h, going⟩)
      · exact ⟨rfl, h⟩

/-- Whatever signals come meanwhile, the two processes stay alike. -/
theorem Alike.run (h : a.Alike w p) (matched : a.Matches c d) (arrivals : Arrivals) :
    (arrivals.run (deliver a.me) c w).1 = (arrivals.run (foreseen a.signals a.me) d p).1 ∧
      a.Alike (arrivals.run (deliver a.me) c w).2
        (arrivals.run (foreseen a.signals a.me) d p).2 := by
  induction arrivals generalizing w p c d with
  | none => exact h.runOn matched
  | later rest ih =>
      cases matched with
      | done result => exact ih h (.done result)
      | step now later =>
          unfold Arrivals.run
          rw [h.goesOn_eq]
          split
          · next going => exact ih (now w p ⟨h, going⟩) (later w p ⟨h, going⟩)
          · exact ⟨rfl, h⟩
  | now n circumstances meanwhile rest ihMeanwhile ih =>
      unfold Arrivals.run
      rw [h.goesOn_eq]
      split
      · obtain ⟨same, alike⟩ := ihMeanwhile h (a.matches_deliver n circumstances)
        dsimp only
        rw [same]
        apply ih alike
        cases (meanwhile.run (foreseen a.signals a.me)
            (foreseen a.signals a.me n circumstances) p).1 with
        | ok _ => exact matched
        | error halt => exact .done _
      · exact ⟨rfl, h⟩

end Arrangement

/-! ## Histories -/

/-- What comes from outside: a registration, or a signal with its circumstances, and others while it
    is handled. -/
inductive Occurrence where
  | register (config : Config)
  | signal (n : Int) (c : Circumstances) (meanwhile : Arrivals)

/-- The answers to registrations. -/
abbrev Answers := List (Except RegisterError Unit)

/-- What comes of an occurrence: the answer, whether it is over, and the state. -/
def Occurrence.happen (me : ThreadId) : Occurrence → World → Answers × Except Halt Unit × World
  | .register config, w =>
    let (answer, w) := Handler.register config w
    ([answer], .ok (), w)
  | .signal n c meanwhile, w => ([], meanwhile.run (deliver me) (deliver me n c) w)

/-- What comes of occurrences one after another, up to the end of the process, or up to one that is
    never over. -/
def afterAll (me : ThreadId) : List Occurrence → World → Answers × World
  | [], w => ([], w)
  | occurrence :: rest, w =>
    if w.goesOn then
      match occurrence.happen me w with
      | (answers, .ok (), w) =>
        let (more, w) := afterAll me rest w
        (answers ++ more, w)
      | (answers, .error _, w) => (answers, w)
    else ([], w)

/-- A process without crash handlers, and the signals that are reported all the same, once there are
    some. -/
structure Plain where
  world : World
  reported : Option (List Int)

/-- What comes of an occurrence if there are no crash handlers but reports of signals. The first
    registration says which, and is the only one that is accepted. -/
def Occurrence.foresee (me : ThreadId) : Occurrence → Plain → Answers × Except Halt Unit × Plain
  | .register config, s =>
    match s.reported with
    | none => ([.ok ()], .ok (), { s with reported := some config.signals })
    | some _ => ([.error .alreadyRegistered], .ok (), s)
  | .signal n c meanwhile, s =>
    let handle := foreseen (s.reported.getD []) me
    let (result, world) := meanwhile.run handle (handle n c) s.world
    ([], result, { s with world })

def foreseeAll (me : ThreadId) : List Occurrence → Plain → Answers × Plain
  | [], s => ([], s)
  | occurrence :: rest, s =>
    if s.world.goesOn then
      match occurrence.foresee me s with
      | (answers, .ok (), s) =>
        let (more, s) := foreseeAll me rest s
        (answers ++ more, s)
      | (answers, .error _, s) => (answers, s)
    else ([], s)

/-- All signals of a configuration can be handled, and end a process by default. -/
def Suitable (config : Config) : Prop :=
  ∀ n ∈ config.signals, ∃ s, Signal.ofNumber? n = some s ∧ s.catchable = true ∧
    s.defaultAction = .terminate

/-- A process with crash handlers, if any were registered, and the one without them. -/
structure Stands (me : ThreadId) (prior : Nat → Disposition) (s : Plain) (w : World) : Prop where
  arranged : ∃ a : Arrangement, a.me = me ∧ a.prior = prior ∧ a.signals = s.reported.getD [] ∧
    a.Alike w s.world
  registered : w.handlers.registered = s.reported.isSome
  recorded : s.reported = none → w.handlers = .none

variable {me : ThreadId} {prior : Nat → Disposition} {s : Plain}

/-- The first registration. -/
theorem Stands.register_first (h : Stands me prior s w) (going : s.world.goesOn = true)
    (first : s.reported = none) {config : Config} (suitable : Suitable config) :
    (register config w).1 = .ok () ∧
      Stands me prior { s with reported := some config.signals } (register config w).2 := by
  obtain ⟨a, rfl, rfl, signals, alike⟩ := h.arranged
  have bare := h.recorded first
  have catchable : ∀ n ∈ config.signals, Catchable n := by
    intro n member
    obtain ⟨number, found, catchable, -⟩ := suitable n member
    exact ⟨number, found, catchable⟩
  have fresh : w.handlers.registered = false := by
    rw [bare]
    rfl
  obtain ⟨accepted, installs⟩ := installs_register fresh catchable
  -- Until now there were no handlers, so those to come will know what there was at first.
  have unhandled (k : Nat) : w.machine.disposition k = a.prior k := by
    rw [alike.installed going k, signals, first]
    rfl
  let after : Arrangement :=
    { me := a.me
      prior := a.prior
      signals := config.signals
      handlers := (register config w).2.handlers
      own := a.own
      lethal := by
        intro n member
        obtain ⟨number, found, -, lethal⟩ := suitable n member
        exact ⟨number, found, lethal⟩
      recorded := by
        intro n member
        obtain ⟨number, found, -⟩ := suitable n member
        rw [installs.previous, toNat_of_ofNumber? found, if_pos member]
        show (w.handlers.previous? n.toNat).or (some (w.machine.disposition n.toNat)) = _
        rw [bare, unhandled]
        rfl }
  have alike' : after.Alike (register config w).2 s.world := by
    obtain ⟨d, same⟩ := alike.same
    obtain ⟨d', later⟩ := installs.providing
    refine ⟨⟨d', ?_⟩, alike.bare, alike.lock, alike.plain, ?_⟩
    · refine later.trans ?_
      show _ = s.world.providing d' (register config w).2.handlers
      generalize (register config w).2.handlers = handlers
      rw [same]
      rfl
    · intro _ k
      rw [installs.disposition]
      show (if (k : Int) ∈ config.signals then _ else w.machine.disposition k) = _
      rw [unhandled]
  exact ⟨accepted, ⟨after, rfl, rfl, rfl, alike'⟩, installs.registered, nofun⟩

theorem Stands.register_again (h : Stands me prior s w) {signals : List Int}
    (before : s.reported = some signals) (config : Config) :
    register config w = (.error .alreadyRegistered, w) := by
  have registered : w.handlers.registered = true := by
    rw [h.registered, before]
    rfl
  unfold register
  rw [if_pos registered]

theorem Stands.signal (h : Stands me prior s w) (n : Int) (c : Circumstances)
    (meanwhile : Arrivals) :
    ((Occurrence.signal n c meanwhile).happen me w).2.1 =
        ((Occurrence.signal n c meanwhile).foresee me s).2.1 ∧
      Stands me prior ((Occurrence.signal n c meanwhile).foresee me s).2.2
        ((Occurrence.signal n c meanwhile).happen me w).2.2 := by
  obtain ⟨a, rfl, rfl, signals, alike⟩ := h.arranged
  obtain ⟨same, later⟩ := alike.run (a.matches_deliver n c) meanwhile
  obtain ⟨d, before⟩ := alike.same
  obtain ⟨d', after⟩ := later.same
  have handlers : (meanwhile.run (deliver a.me) (deliver a.me n c) w).2.handlers = w.handlers := by
    rw [after, before]
    rfl
  rw [signals] at same later
  refine ⟨same, ⟨a, rfl, rfl, signals, later⟩, ?_, ?_⟩
  · exact (congrArg CrashHandlers.registered handlers).trans h.registered
  · intro none
    exact handlers.trans (h.recorded none)

theorem Stands.happen (h : Stands me prior s w) (going : s.world.goesOn = true)
    (occurrence : Occurrence) (suitable : ∀ config, occurrence = .register config → Suitable config) :
    ∃ answers result s' w', occurrence.happen me w = (answers, result, w') ∧
      occurrence.foresee me s = (answers, result, s') ∧ Stands me prior s' w' := by
  cases occurrence with
  | signal n c meanwhile =>
      obtain ⟨same, stands⟩ := h.signal n c meanwhile
      exact ⟨[], _, _, _, rfl, Prod.ext rfl (Prod.ext same.symm rfl), stands⟩
  | register config =>
      cases reported : s.reported with
      | none =>
          obtain ⟨accepted, stands⟩ := h.register_first going reported (suitable config rfl)
          refine ⟨[.ok ()], .ok (), _, _, ?_, ?_, stands⟩
          · simp only [Occurrence.happen, accepted]
          · simp only [Occurrence.foresee, reported]
      | some signals =>
          have refused := h.register_again reported config
          refine ⟨[.error .alreadyRegistered], .ok (), _, _, ?_, ?_, h⟩
          · simp only [Occurrence.happen, refused]
          · simp only [Occurrence.foresee, reported]

theorem Stands.afterAll (h : Stands me prior s w) (history : List Occurrence)
    (suitable : ∀ config, .register config ∈ history → Suitable config) :
    (afterAll me history w).1 = (foreseeAll me history s).1 ∧
      Stands me prior (foreseeAll me history s).2 (afterAll me history w).2 := by
  induction history generalizing s w with
  | nil => exact ⟨rfl, h⟩
  | cons occurrence rest ih =>
      obtain ⟨a, -, -, -, alike⟩ := h.arranged
      unfold Handler.afterAll foreseeAll
      rw [alike.goesOn_eq]
      split
      · next going =>
        obtain ⟨answers, result, s', w', happened, foreseen, stands⟩ :=
          h.happen going occurrence fun config same => suitable config (same ▸ List.mem_cons_self)
        rw [happened, foreseen]
        cases result with
        | error halt => exact ⟨rfl, stands⟩
        | ok _ =>
            obtain ⟨more, last⟩ := ih stands fun config member =>
              suitable config (List.mem_cons_of_mem _ member)
            exact ⟨congrArg (answers ++ ·) more, last⟩
      · exact ⟨rfl, h⟩

/-! ## What registrations come to -/

theorem suitable_standard : Suitable Config.standard := by
  have all : ∀ s ∈ [Signal.bus, .abort, .segmentation, .illegalInstruction, .arithmetic],
      Signal.ofNumber? s.number = some s ∧ s.catchable = true ∧ s.defaultAction = .terminate := by
    decide
  intro n member
  obtain ⟨s, among, rfl⟩ := List.mem_map.mp member
  exact ⟨s, all s among⟩

/-- A process with a handler of its own for one of the signals. -/
def guarded : World := .start { Machine.bare with dispositions := [(11, .infoHandler)] }

/-- The same process, traced by another one. -/
def traced : World :=
  .start { guarded.machine with status := [.ok (utf8 "Name:\tapp\nTracerPid:\t7\n")] }

/-- The same process with a postmortem command that never ends and has no timeout. -/
def held : World :=
  let hang : Program := ⟨[], none, .exited 0, false⟩
  { World.start { guarded.machine with
      files := FileTree.empty.put [utf8 "hang"] (.file [] (.program hang)) } with
    context := { Context.initial with
      names := .new ⟨none, some (.spelled "."), none⟩
      commands := .new { Commands.none with
        postmortem := ⟨some (.spelled "hang"), none, some [.spelled "$cmd"]⟩
        postmortemTimeout := .ofSeconds 0 } } }

end Handler

end Postmortem

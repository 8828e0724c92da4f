import Postmortem.Proofs.Announced
import Postmortem.Proofs.Argv
import Postmortem.Proofs.Spawn

/-! # The programs that a report starts

A report tries to start at most two programs: the postmortem command once its log file is announced,
and the session logger once the announcement has been closed. Which ones, and with which arguments,
is decided by the environment, the configuration and the kind of the report.
-/

namespace Postmortem

variable {m n o : Machine} {w v : World}

/-! ## Templates -/

/-- An attempt to execute a program: the path, and the arguments. -/
abbrev Attempted := CString × List CString

/-- What is tried for a command and a template, `means` being what the template's arguments stand
    for: the first argument is the path of the program, or else the command. -/
def attempted? (command : Option CString) (template : Option (List CString))
    (means : CString → CString → CString) : Option Attempted :=
  match command, template with
  | some command, some template =>
    let arguments := template.map (means command)
    if template.length ≤ 30 then some (arguments.headD command, arguments) else none
  | _, _ => none

namespace CommandTemplate

/-- What a plan comes to. -/
def Plan.attempted? : Plan → Option Attempted
  | .program path argv => some (path, argv.toList)
  | .nothing => none
  | .tooMany => none

theorem attempted?_plan (t : CommandTemplate) (override : Option CString) (fatal : Bool)
    (table : Substitutions) :
    (t.plan override fatal table).attempted? =
      Postmortem.attempted? (override.or t.command) (t.template fatal)
        fun command => Argv.substitute command table := by
  simp only [plan]
  generalize override.or t.command = command
  generalize t.template fatal = template
  cases command with
  | none => rfl
  | some command =>
      cases template with
      | none => rfl
      | some template =>
          simp only [Postmortem.attempted?]
          by_cases short : template.length ≤ 30
          · have fits : template.length < Argv.slotCount := Nat.lt_of_le_of_lt short (by decide)
            have first : (Argv.filled command template table).get? 0 =
                (template.map (Argv.substitute command table)).head? := by
              rw [Argv.get?_filled, List.head?_map, List.head?_eq_getElem?]
            rw [Argv.build_ok command table short, if_pos short, List.headD_eq_head?_getD, ← first,
              ← Argv.toList_filled fits]
            rfl
          · rw [Argv.build_error command table (Nat.lt_of_not_le short), if_neg short]
            rfl

end CommandTemplate

/-! ## The machine -/

namespace Machine

/-- Every attempt to execute a program so far. -/
def attempts (m : Machine) : List Attempted := m.launches.map fun launch =>
  (launch.path, launch.arguments)

/-- These programs are tried, and what arguments are made from stays as it is. -/
structure Tries (m : Machine) (tried : List Attempted) (later : Machine) : Prop where
  attempts : later.attempts = m.attempts ++ tried
  environment : later.environment = m.environment
  pid : later.pid = m.pid
  userSeconds : later.userSeconds = m.userSeconds
  clock : later.clock = m.clock
  forkFailure : later.forkFailure = m.forkFailure

/-- Nothing is tried if no launch is added. -/
theorem Tries.nothing {m later : Machine} (launches : later.launches = m.launches)
    (environment : later.environment = m.environment) (pid : later.pid = m.pid)
    (userSeconds : later.userSeconds = m.userSeconds) (clock : later.clock = m.clock)
    (forkFailure : later.forkFailure = m.forkFailure) : m.Tries [] later where
  attempts := by rw [Machine.attempts, launches, List.append_nil, Machine.attempts]
  environment := environment
  pid := pid
  userSeconds := userSeconds
  clock := clock
  forkFailure := forkFailure

theorem Tries.launched {tried : List Attempted} {m later : Machine} (h : m.Tries tried later) :
    (launchesSince m later).map (fun launch => (launch.path, launch.arguments)) = tried := by
  have attempts := h.attempts
  rw [Machine.attempts, Machine.attempts] at attempts
  rw [launchesSince, List.map_drop, attempts, List.drop_left' (List.length_map _)]

/-- Nothing is launched if nothing is tried. -/
theorem Tries.launches {m later : Machine} (h : m.Tries [] later) (follows : m.Follows later) :
    later.launches = m.launches := by
  have counts := congrArg List.length h.attempts
  rw [Machine.attempts, Machine.attempts, List.append_nil, List.length_map, List.length_map] at counts
  exact (follows.launched.eq_of_length counts.symm).symm

theorem Tries.refl (m : Machine) : m.Tries [] m := .nothing rfl rfl rfl rfl rfl rfl

theorem Tries.trans {tried more : List Attempted} (h : m.Tries tried n) (h' : n.Tries more o) :
    m.Tries (tried ++ more) o where
  attempts := by rw [h'.attempts, h.attempts, List.append_assoc]
  environment := h'.environment.trans h.environment
  pid := h'.pid.trans h.pid
  userSeconds := h'.userSeconds.trans h.userSeconds
  clock := h'.clock.trans h.clock
  forkFailure := h'.forkFailure.trans h.forkFailure

theorem tries_say (m : Machine) (bytes : Bytes) : m.Tries [] (m.say bytes) :=
  .nothing rfl rfl rfl rfl rfl rfl

theorem tries_appendTo (m : Machine) (path bytes : Bytes) : m.Tries [] (m.appendTo path bytes) := by
  rw [appendTo]
  split
  · exact .nothing rfl rfl rfl rfl rfl rfl
  · exact .refl m

theorem tries_finish (m : Machine) (ending : Ending) : m.Tries [] (m.finish ending) := by
  rw [finish]
  split
  · exact .refl m
  · exact .nothing rfl rfl rfl rfl rfl rfl

theorem tries_defaultEffect (m : Machine) (k : Int) : m.Tries [] (m.defaultEffect k) := by
  rw [defaultEffect]
  split
  · exact .refl m
  · split
    · exact m.tries_finish _
    · exact .refl m
    · exact .nothing rfl rfl rfl rfl rfl rfl

theorem tries_signalEffect (m : Machine) (k : Int) (c : Circumstances) (d : Disposition) :
    m.Tries [] (m.signalEffect k c d) := by
  cases d with
  | standard => exact m.tries_defaultEffect k
  | handler | infoHandler => exact .nothing rfl rfl rfl rfl rfl rfl
  | ignored | crashReport | wakeUp => exact .refl m

theorem tries_reportFailure (m : Machine) (spawned : Spawned) :
    m.Tries [] (m.reportFailure spawned) := by
  rw [reportFailure]
  split
  · exact .nothing rfl rfl rfl rfl rfl rfl
  · exact .refl m

theorem tries_becomeProgram (m : Machine) (path : CString) (argv : Argv) :
    m.Tries [(path, argv.toList)] (m.becomeProgram path argv).2 := by
  have recorded (found : Except Errno Program) :
      (m.launches ++ [Launch.mk path argv.toList found]).map
          (fun launch => (launch.path, launch.arguments)) =
        m.attempts ++ [(path, argv.toList)] := by
    rw [List.map_append]
    rfl
  rw [becomeProgram]
  split <;> exact ⟨recorded _, rfl, rfl, rfl, rfl, rfl⟩

/-- A fork that succeeds leads to one attempt. -/
theorem tries_spawnAndWait (fork : m.forkFailure = none) (path : CString) (argv : Argv)
    (timeout : Option Duration) :
    m.Tries [(path, argv.toList)] (m.spawnAndWait path argv timeout).2 := by
  rw [spawnAndWait]
  split
  · next e failed =>
    rw [fork] at failed
    cases failed
  · exact (m.tries_becomeProgram path argv).trans (.nothing rfl rfl rfl rfl rfl rfl)

theorem launches_becomeProgram (m : Machine) (path : CString) (argv : Argv) :
    (m.becomeProgram path argv).2.launches =
      m.launches ++ [⟨path, argv.toList, m.findProgram path argv.toList⟩] := by
  rw [becomeProgram]
  split
  · rfl
  · rfl

theorem launches_spawnAndWait (fork : m.forkFailure = none) (path : CString) (argv : Argv)
    (timeout : Option Duration) :
    (m.spawnAndWait path argv timeout).2.launches =
      m.launches ++ [⟨path, argv.toList, m.findProgram path argv.toList⟩] := by
  rw [← launches_becomeProgram]
  simp only [spawnAndWait, fork]
  rfl

/-- The last program started is one that never ends. -/
def Endless (m later : Machine) : Prop :=
  ∃ launch p, later.launches = m.launches ++ [launch] ∧ launch.found = .ok p ∧ p.lifetime = none

theorem Endless.of_launches {m m' later later' : Machine} (h : m.Endless later)
    (before : m'.launches = m.launches) (after : later'.launches = later.launches) :
    m'.Endless later' := by
  obtain ⟨launch, p, launches, found, lives⟩ := h
  exact ⟨launch, p, by rw [after, launches, before], found, lives⟩

theorem endless_spawnAndWait (fork : m.forkFailure = none) {timeout : Option Duration}
    (fits : ∀ n : ℕ, Duration.limit timeout = n → n < UInt64.size) {path : CString} {argv : Argv}
    {halt : Halt} (stops : (m.spawnAndWait path argv timeout).1.result = .error halt) :
    halt = .waiting ∧ Duration.limit timeout = ⊤ ∧
      m.Endless (m.spawnAndWait path argv timeout).2 := by
  rw [result_spawnAndWait fork] at stops
  obtain ⟨-, overflow⟩ | ⟨waits, timeless, endless⟩ := waitFor_error stops
  · obtain ⟨b, sum, -⟩ := Duration.span_budget fits
    rw [sum] at overflow
    cases overflow
  · obtain ⟨p, found, lives⟩ := program_of_endless endless
    exact ⟨waits, timeless, _, p, launches_spawnAndWait fork path argv timeout, found, lives⟩

theorem waits_spawnAndWait (fork : m.forkFailure = none) {path : CString} {argv : Argv}
    {timeout : Option Duration} (timeless : Duration.limit timeout = ⊤)
    (endless : m.Endless (m.spawnAndWait path argv timeout).2) :
    (m.spawnAndWait path argv timeout).1.result = .error .waiting := by
  obtain ⟨launch, p, launches, found, lives⟩ := endless
  rw [launches_spawnAndWait fork, List.append_cancel_left_eq, List.cons.injEq] at launches
  obtain ⟨rfl, -⟩ := launches
  rw [result_spawnAndWait fork]
  apply waitFor_endless timeless
  simp only at found
  rw [lifetime, child, found]
  simp only [lives]
  rfl

end Machine

theorem CommandTemplate.waits_start (fork : m.forkFailure = none) {t : CommandTemplate}
    {override : CString} {fatal : Bool} {table : Substitutions} {timeout : Duration} {what : String}
    (timeless : Duration.limit (some timeout) = ⊤)
    (endless : m.Endless (t.start override fatal table timeout what m).2) :
    ∃ spawned, (t.start override fatal table timeout what m).1 = some spawned ∧
      spawned.result = .error .waiting := by
  rw [start] at endless ⊢
  split at endless
  · obtain ⟨launch, p, launches, -⟩ := endless
    simp at launches
  · obtain ⟨launch, p, launches, -⟩ := endless
    simp [Machine.say] at launches
  · exact ⟨_, rfl, Machine.waits_spawnAndWait fork timeless endless⟩

theorem CommandTemplate.endless_start (fork : m.forkFailure = none) {t : CommandTemplate}
    {override : CString} {fatal : Bool} {table : Substitutions} {timeout : Duration} {what : String}
    (fits : ∀ n : ℕ, Duration.limit (some timeout) = n → n < UInt64.size) {spawned : Spawned}
    (started : (t.start override fatal table timeout what m).1 = some spawned) {halt : Halt}
    (stops : spawned.result = .error halt) :
    halt = .waiting ∧ Duration.limit (some timeout) = ⊤ ∧
      m.Endless (t.start override fatal table timeout what m).2 := by
  rw [start] at started ⊢
  split at started
  · cases started
  · cases started
  · cases started
    exact Machine.endless_spawnAndWait fork fits stops

/-- A command comes to what is planned for it. -/
theorem CommandTemplate.tries_start (fork : m.forkFailure = none) (t : CommandTemplate)
    (override : CString) (fatal : Bool) (table : Substitutions) (timeout : Duration)
    (what : String) {planned : Option Attempted}
    (plan : (t.plan (m.getenv override) fatal table).attempted? = planned) :
    m.Tries planned.toList (t.start override fatal table timeout what m).2 ∧
      (t.start override fatal table timeout what m).1.isSome = planned.isSome := by
  subst plan
  rw [start]
  split
  · next nothing =>
    rw [nothing]
    exact ⟨.refl m, rfl⟩
  · next tooMany =>
    rw [tooMany]
    exact ⟨m.tries_say _, rfl⟩
  · next path argv program =>
    rw [program]
    exact ⟨Machine.tries_spawnAndWait fork path argv _, rfl⟩

/-! ## The process -/

namespace World

/-- These programs are tried, and everything that decides about others stays as it is. -/
structure Tries (w : World) (tried : List Attempted) (later : World) : Prop where
  machine : w.machine.Tries tried later.machine
  follows : w.Follows later

theorem Tries.trans {u : World} {tried more : List Attempted} (h : u.Tries tried v)
    (h' : v.Tries more w) : u.Tries (tried ++ more) w :=
  ⟨h.machine.trans h'.machine, h.follows.trans h'.follows⟩

theorem tries_interrupt (k : Int) (c : Circumstances) (w : World) :
    w.machine.Tries [] (interrupt k c w).machine := by
  rw [interrupt]
  split
  · rw [forward]
    split
    · exact (w.machine.tries_say _).trans (Machine.tries_finish _ _)
    · have prepared : w.machine.Tries [] (w.machine.setDisposition k.toNat .standard) :=
        .nothing rfl rfl rfl rfl rfl rfl
      exact prepared.trans (Machine.tries_defaultEffect _ k)
    · exact w.machine.tries_signalEffect _ _ _
  · exact w.machine.tries_signalEffect _ _ _

theorem tries_append (path : Bytes) (text : Fragments) (w : World) :
    w.Tries [] ((append path text).run w).2 := by
  refine ⟨?_, follows_run (covers_follows.always_append path text) w⟩
  induction text generalizing w with
  | nil => exact .refl w.machine
  | cons fragment rest ih =>
      simp only [append, machineStep, Steps.run_bind, Steps.run_change]
      have onwards := ih { w with machine := w.machine.appendTo path fragment }
      exact (w.machine.tries_appendTo path fragment).trans onwards

theorem tries_sayAll (text : Fragments) (w : World) : w.Tries [] ((say text).run w).2 := by
  refine ⟨?_, follows_run (covers_follows.always_say text) w⟩
  rw [Report.run_say]
  exact w.machine.tries_say _

theorem tries_waited (spawned : Spawned) (w : World) :
    w.machine.Tries [] (w.waited spawned).machine := by
  rw [waited]
  split
  · exact (tries_interrupt _ _ w).trans (Machine.tries_reportFailure _ spawned)
  · exact w.machine.tries_reportFailure spawned

theorem launches_waited (spawned : Spawned) (w : World) :
    (w.waited spawned).machine.launches = w.machine.launches :=
  (tries_waited spawned w).launches (follows_waited spawned w).machine

/-- What the start of a command comes to if nobody changes the commands. -/
theorem run_startCommand (select : Commands → CommandTemplate × Duration) (override : CString)
    (fatal : Bool) (table : World → Substitutions) (what : String)
    (free : w.context.commands.held = false) :
    (startCommand select override fatal table what).run w =
      (((select w.context.commands.value).1.start override fatal (table w)
          (select w.context.commands.value).2 what w.machine).1,
        { w with machine := ((select w.context.commands.value).1.start override fatal (table w)
          (select w.context.commands.value).2 what w.machine).2 }) := by
  have read : w.context.commands.tryRead = some w.context.commands.value := by
    rw [Guarded.tryRead, free]
    rfl
  simp only [startCommand, Steps.run_act, read]

/-- A command is tried once or not at all, and that does not depend on what comes of it. -/
theorem tries_runCommand (select : Commands → CommandTemplate × Duration) (override : CString)
    (fatal : Bool) (table : World → Substitutions) (what : String)
    (free : w.context.commands.held = false) (fork : w.machine.forkFailure = none)
    {planned : Option Attempted}
    (plan : ((select w.context.commands.value).1.plan (w.machine.getenv override) fatal
      (table w)).attempted? = planned) :
    w.Tries planned.toList ((runCommand childEnded select override fatal table what).run w).2 ∧
      ∀ ran, ((runCommand childEnded select override fatal table what).run w).1 = .ok ran →
        ran = planned.isSome := by
  obtain ⟨tries, started⟩ := CommandTemplate.tries_start fork _ override fatal (table w)
    (select w.context.commands.value).2 what plan
  have follows : w.Follows ((runCommand childEnded select override fatal table what).run w).2 :=
    follows_runCommand _ _ _ _ _ w
  simp only [runCommand, Steps.run_bind, run_startCommand _ _ _ _ _ free] at follows ⊢
  generalize (select w.context.commands.value).1.start override fatal (table w)
    (select w.context.commands.value).2 what w.machine = start at tries started follows ⊢
  obtain ⟨_ | spawned, machine⟩ := start
  · refine ⟨⟨tries, follows⟩, ?_⟩
    rintro ran ⟨⟩
    exact started
  · cases result : spawned.result with
    | error halt =>
        rw [afterWait_error result] at follows ⊢
        exact ⟨⟨tries, follows⟩, by simp⟩
    | ok answer =>
        rw [run_afterWait_ok result] at follows ⊢
        refine ⟨⟨?_, follows⟩, ?_⟩
        · rw [← List.append_nil planned.toList]
          have waited := tries_waited spawned { w with machine }
          exact tries.trans waited
        · rintro ran ⟨⟩
          exact started

/-- A command is waited for without end only if it has no timeout and never ends. -/
theorem endless_runCommand (select : Commands → CommandTemplate × Duration) (override : CString)
    (fatal : Bool) (table : World → Substitutions) (what : String)
    (free : w.context.commands.held = false) (fork : w.machine.forkFailure = none)
    (fits : ∀ n : ℕ, Duration.limit (some (select w.context.commands.value).2) = n →
      n < UInt64.size) {halt : Halt}
    (stops : ((runCommand childEnded select override fatal table what).run w).1 = .error halt) :
    halt = .waiting ∧ Duration.limit (some (select w.context.commands.value).2) = ⊤ ∧
      w.machine.Endless
        ((runCommand childEnded select override fatal table what).run w).2.machine := by
  simp only [runCommand, Steps.run_bind, run_startCommand _ _ _ _ _ free] at stops ⊢
  cases started : ((select w.context.commands.value).1.start override fatal (table w)
      (select w.context.commands.value).2 what w.machine).1 with
  | none =>
      rw [started] at stops
      cases stops
  | some spawned =>
      rw [started] at stops
      cases result : spawned.result with
      | ok answer =>
          rw [run_afterWait_ok result] at stops
          cases stops
      | error halt' =>
          rw [afterWait_error result] at stops ⊢
          cases stops
          exact CommandTemplate.endless_start fork fits started result

/-- A command that is done with had a timeout or has ended. -/
theorem ended_runCommand (select : Commands → CommandTemplate × Duration) (override : CString)
    (fatal : Bool) (table : World → Substitutions) (what : String)
    (free : w.context.commands.held = false) (fork : w.machine.forkFailure = none)
    (timeless : Duration.limit (some (select w.context.commands.value).2) = ⊤) {ran : Bool}
    (ends : ((runCommand childEnded select override fatal table what).run w).1 = .ok ran) :
    ¬ w.machine.Endless
      ((runCommand childEnded select override fatal table what).run w).2.machine := by
  simp only [runCommand, Steps.run_bind, run_startCommand _ _ _ _ _ free] at ends ⊢
  cases started : ((select w.context.commands.value).1.start override fatal (table w)
      (select w.context.commands.value).2 what w.machine).1 with
  | none =>
      intro endless
      obtain ⟨spawned, some, -⟩ := CommandTemplate.waits_start fork timeless endless
      cases started.symm.trans some
  | some spawned =>
      rw [started] at ends
      cases result : spawned.result with
      | error halt =>
          rw [afterWait_error result] at ends
          cases ends
      | ok answer =>
          rw [run_afterWait_ok result]
          intro endless
          have course : w.machine.Endless ((select w.context.commands.value).1.start override fatal
              (table w) (select w.context.commands.value).2 what w.machine).2 :=
            endless.of_launches rfl (launches_waited spawned { w with machine := _ }).symm
          obtain ⟨spawned', some, waits⟩ := CommandTemplate.waits_start fork timeless course
          cases started.symm.trans some
          cases result.symm.trans waits

end World

/-! ## Reports -/

namespace Report

variable {logName : CString}

/-- What the arguments of the postmortem command stand for. -/
def means (r : Report) (logName : CString) (w : World) (command argument : CString) : CString :=
  if argument = .spelled "$cmd" then command
  else if argument = .spelled "$pid" then numberText w.machine.pid
  else if argument = .spelled "$log" then logName
  else if argument = .spelled "$time" then numberText (w.context.elapsed w.machine)
  else if argument = .spelled "$reason" then r.reason
  else argument

/-- What the arguments of the session logger stand for. -/
def sessionMeans (logName : CString) (w : World) (command argument : CString) : CString :=
  if argument = .spelled "$cmd" then command
  else if argument = .spelled "$pid" then numberText w.machine.pid
  else if argument = .spelled "$time" then numberText (w.context.elapsed w.machine)
  else if argument = .spelled "$prog" then w.context.reportNames.programName
  else if argument = .spelled "$stack" then logName
  else argument

/-- The attempt at the postmortem command: that of the environment, or else the configured one, with
    the template for the kind of the report. -/
def postmortem? (r : Report) (logName : CString) (w : World) : Option Attempted :=
  let configured := w.context.commands.value.postmortem
  attempted? ((w.machine.getenv (.spelled "ARCH_POSTMORTEM")).or configured.command)
    (if r.fatal then configured.fatalArgv else configured.argv) (r.means logName w)

/-- The attempt at the session logger, which is told of a report only if the postmortem command was
    tried, and only as long as fatal stack logging is on. -/
def session? (r : Report) (logName : CString) (w : World) : Option Attempted :=
  let configured := w.context.commands.value.session
  if (r.postmortem? logName w).isSome ∧ w.context.fatalStackLogging = true then
    attempted? ((w.machine.getenv (.spelled "ARCH_LOGSESSION")).or configured.command)
      configured.fatalArgv (sessionMeans logName w)
  else none

theorem override_eq : override = .spelled "ARCH_POSTMORTEM" := CString.text_eq_spelled _ _

theorem session_override_eq : Session.override = .spelled "ARCH_LOGSESSION" :=
  CString.text_eq_spelled _ _

theorem substitute_eq_means (r : Report) (logName : CString) (w : World) (command : CString) :
    Argv.substitute command (substitutions logName r.reason w) = r.means logName w command := by
  funext argument
  simp only [substitutions, World.pidEntry, World.timeEntry, Argv.substitute_cons,
    Argv.substitute_nil, CString.text_eq_spelled, means]
  by_cases isCommand : argument = .spelled "$cmd"
  · simp only [if_pos isCommand]
  · simp only [if_neg isCommand]

theorem substitute_eq_sessionMeans (logName : CString) (w : World) (command : CString) :
    Argv.substitute command
        (Session.substitutions w.context.reportNames.programName (some logName) w) =
      sessionMeans logName w command := by
  funext argument
  simp only [Session.substitutions, World.pidEntry, World.timeEntry, List.cons_append,
    List.nil_append, Argv.substitute_cons, Argv.substitute_nil, CString.text_eq_spelled,
    sessionMeans]
  by_cases isCommand : argument = .spelled "$cmd"
  · simp only [if_pos isCommand]
  · simp only [if_neg isCommand]

/-- What is tried does not change while a report is made. -/
theorem means_of_tries {tried : List Attempted} (r : Report) (h : w.Tries tried v) :
    r.postmortem? logName v = r.postmortem? logName w ∧
      r.session? logName v = r.session? logName w := by
  have postmortem : r.postmortem? logName v = r.postmortem? logName w := by
    have means : r.means logName v = r.means logName w := by
      funext command argument
      rw [means, means, h.follows.context, Context.elapsed, Context.elapsed, Machine.usage,
        Machine.usage, h.machine.pid, h.machine.userSeconds, h.machine.clock]
    rw [postmortem?, postmortem?, means, h.follows.context, Machine.getenv, Machine.getenv,
      h.machine.environment]
  have means : sessionMeans logName v = sessionMeans logName w := by
    funext command argument
    rw [sessionMeans, sessionMeans, h.follows.reportNames, h.follows.context, Context.elapsed,
      Context.elapsed, Machine.usage, Machine.usage, h.machine.pid, h.machine.userSeconds,
      h.machine.clock]
  refine ⟨postmortem, ?_⟩
  rw [session?, session?, postmortem, means, h.follows.context, Machine.getenv, Machine.getenv,
    h.machine.environment]

theorem attempted?_postmortem (r : Report) (logName : CString) (w : World) :
    (w.context.commands.value.postmortem.plan (w.machine.getenv override) r.fatal
      (substitutions logName r.reason w)).attempted? = r.postmortem? logName w := by
  rw [CommandTemplate.attempted?_plan]
  simp only [substitute_eq_means, override_eq]
  rfl

theorem tries_runPostmortem (r : Report) (logName : CString) (w : World)
    (settled : w.context.commands.held = false) (fork : w.machine.forkFailure = none) :
    w.Tries (r.postmortem? logName w).toList ((r.runPostmortem logName).run w).2 ∧
      ∀ ran, ((r.runPostmortem logName).run w).1 = .ok ran → ran = (r.postmortem? logName w).isSome :=
  World.tries_runCommand _ _ _ _ _ settled fork (attempted?_postmortem r logName w)

theorem ended_runPostmortem {r : Report} {ran : Bool} (settled : w.context.commands.held = false)
    (fork : w.machine.forkFailure = none)
    (timeless : Duration.limit (some w.context.commands.value.postmortemTimeout) = ⊤)
    (ends : ((r.runPostmortem logName).run w).1 = .ok ran) :
    ¬ w.machine.Endless ((r.runPostmortem logName).run w).2.machine :=
  World.ended_runCommand _ _ _ _ _ settled fork timeless ends

theorem launches_closed (program : CString) (w : World) :
    (closed program w).machine.launches = w.machine.launches := by
  have said := World.tries_sayAll (closing w (.ofProgram program.bytes)) w
  exact said.machine.launches said.follows.machine

theorem tries_session (r : Report) (logName : CString) (w : World)
    (settled : w.context.commands.held = false) (fork : w.machine.forkFailure = none) :
    w.Tries (r.session? logName w).toList
      ((session w.context.reportNames.programName logName (r.postmortem? logName w).isSome).run
        w).2 := by
  by_cases told : (r.postmortem? logName w).isSome ∧ w.context.fatalStackLogging = true
  · have plan : (w.context.commands.value.session.plan (w.machine.getenv Session.override) true
        (Session.substitutions w.context.reportNames.programName (some logName) w)).attempted? =
          r.session? logName w := by
      rw [CommandTemplate.attempted?_plan, session?, if_pos told]
      simp only [substitute_eq_sessionMeans, session_override_eq]
      rfl
    obtain ⟨tries, -⟩ := World.tries_runCommand (fun c => (c.session, c.sessionTimeout))
      Session.override true (Session.substitutions w.context.reportNames.programName (some logName))
      "log session" settled fork plan
    rw [session, if_pos told.1, Session.run_finish, if_pos told.2]
    exact tries
  · rw [session?, if_neg told, session]
    have untold : w.Tries [] w := ⟨.refl w.machine, .refl w⟩
    split
    · next ran =>
      have off : ¬ w.context.fatalStackLogging = true := fun on => told ⟨ran, on⟩
      rw [Session.run_finish, if_neg off]
      exact untold
    · exact untold

/-- What a report tries up to its postmortem command. -/
theorem tries_prepared (r : Report) (program logName : CString) (w : World) :
    w.Tries [] (r.prepared program logName w) :=
  (World.tries_append logName.bytes _ w).trans (World.tries_sayAll _ _)

/-- What a report tries whose wait for the postmortem command does not come to an end. -/
theorem tries_writeTo_of_error (r : Report) (logName : CString) (w : World)
    (settled : w.context.commands.held = false) (fork : w.machine.forkFailure = none)
    (fits : ∀ n : ℕ, Duration.limit (some w.context.commands.value.postmortemTimeout) = n →
      n < UInt64.size) {halt : Halt}
    (stops : ((r.runPostmortem logName).run
      (r.prepared w.context.reportNames.programName logName w)).1 = .error halt) :
    ((r.writeTo w.context.reportNames.programName logName).run w).1 = .error .waiting ∧
      Duration.limit (some w.context.commands.value.postmortemTimeout) = ⊤ ∧
      w.Tries (r.postmortem? logName w).toList
        ((r.writeTo w.context.reportNames.programName logName).run w).2 ∧
      w.machine.Endless
        ((r.writeTo w.context.reportNames.programName logName).run w).2.machine := by
  let v := r.prepared w.context.reportNames.programName logName w
  have announced := tries_prepared r w.context.reportNames.programName logName w
  have commands : v.context.commands = w.context.commands := by rw [announced.follows.context]
  have launches : v.machine.launches = w.machine.launches :=
    announced.machine.launches announced.follows.machine
  have fork' := announced.machine.forkFailure.trans fork
  obtain ⟨attempted, -⟩ := tries_runPostmortem r logName v (commands ▸ settled) fork'
  obtain ⟨rfl, timeless, endless⟩ :=
    World.endless_runCommand _ _ _ _ _ (commands ▸ settled) fork' (commands ▸ fits) stops
  rw [commands] at timeless
  rw [(means_of_tries r announced).1] at attempted
  rw [run_writeTo_of_error stops]
  exact ⟨rfl, timeless, announced.trans attempted, endless.of_launches launches.symm rfl⟩

/-- What a report tries once its log file is there, and what it has said in between, if the wait for
    its postmortem command comes to an end. -/
theorem tries_writeTo (r : Report) (logName : CString) (w : World)
    (settled : w.context.commands.held = false) (fork : w.machine.forkFailure = none) {ran : Bool}
    (ends : ((r.runPostmortem logName).run
      (r.prepared w.context.reportNames.programName logName w)).1 = .ok ran) :
    ∃ closed ∈ (r.writeTo w.context.reportNames.programName logName).states w,
      w.Tries (r.postmortem? logName w).toList closed ∧
      (Duration.limit (some w.context.commands.value.postmortemTimeout) = ⊤ →
        ¬ w.machine.Endless closed.machine) ∧
      (closing w (.ofProgram w.context.reportNames.programName.bytes)).flatten <:+
        closed.machine.stderr ∧
      closed.Tries (r.session? logName w).toList
        ((r.writeTo w.context.reportNames.programName logName).run w).2 := by
  let program := w.context.reportNames.programName
  let v := r.prepared program logName w
  let w₃ := ((r.runPostmortem logName).run v).2
  let w₄ := closed program w₃
  have announced := tries_prepared r program logName w
  have settled₂ : v.context.commands.held = false := by
    rw [announced.follows.context]
    exact settled
  have fork₂ := announced.machine.forkFailure.trans fork
  have commands : v.context.commands = w.context.commands := by rw [announced.follows.context]
  have launches : v.machine.launches = w.machine.launches :=
    announced.machine.launches announced.follows.machine
  obtain ⟨attempted, known⟩ := tries_runPostmortem r logName v settled₂ fork₂
  obtain rfl := known ran ends
  rw [(means_of_tries r announced).1] at attempted
  have closed : w.Tries (r.postmortem? logName w).toList w₄ := by
    have whole := (announced.trans attempted).trans
      (World.tries_sayAll (closing w₃ (.ofProgram program.bytes)) w₃)
    rwa [List.nil_append, List.append_nil] at whole
  have settled₄ : w₄.context.commands.held = false := by
    rw [closed.follows.context]
    exact settled
  have ended := tries_session r logName w₄ settled₄ (closed.machine.forkFailure.trans fork)
  rw [(means_of_tries r closed).1, (means_of_tries r closed).2, closed.follows.reportNames] at ended
  refine ⟨w₄, ?_, closed, ?_, ?_, ?_⟩
  · rw [writeTo]
    -- The state lies behind the postmortem command, and there behind two more parts.
    iterate 4 refine Steps.mem_states_bind_right ?_
    refine Steps.mem_states_andThen_right ends ?_
    iterate 2 refine Steps.mem_states_bind_right ?_
    exact Steps.mem_states_start _ w₄
  · intro timeless endless
    rw [← commands] at timeless
    have ended := ended_runPostmortem settled₂ fork₂ timeless ends
    exact ended (endless.of_launches launches (launches_closed program w₃).symm)
  · rw [stderr_closed (announced.follows.trans attempted.follows)]
    exact List.suffix_append _ _
  · rw [run_writeTo_of_ok ends, (means_of_tries r announced).1]
    exact ended

/-- The search for a name starts no program. -/
theorem tries_search (w : World) : w.machine.Tries [] w.search.2 := by
  obtain ⟨files, errno, machine⟩ : ∃ files errno, w.search.2 = { w.machine with files, errno } :=
    LogFile.machine_of_create _ _ _ _ _
  rw [machine]
  exact .nothing rfl rfl rfl rfl rfl rfl

variable {r : Report} {me : ThreadId}

/-- What decides about the programs is the same once the log file is there. -/
structure Searched (r : Report) (logName : CString) (w u : World) : Prop where
  machine : w.machine.Tries [] u.machine
  commands : u.context.commands = w.context.commands
  names : u.context.reportNames = w.context.reportNames
  postmortem : r.postmortem? logName u = r.postmortem? logName w
  session : r.session? logName u = r.session? logName w
  closing : closing u (.ofProgram w.context.reportNames.programName.bytes) =
    closing w (.ofProgram w.context.reportNames.programName.bytes)

theorem searched_searched (r : Report) (me : ThreadId) (logName : CString) (w : World) :
    r.Searched logName w (r.searched me w) := by
  obtain ⟨files, errno, machine⟩ : ∃ files errno, w.search.2 = { w.machine with files, errno } :=
    LogFile.machine_of_create _ _ _ _ _
  have names := reportNames_entered r me w
  simp only [searched, machine, entered] at names ⊢
  split at names
  · next fatal =>
    simp only [if_pos fatal]
    exact ⟨.nothing rfl rfl rfl rfl rfl rfl, rfl, names, rfl, rfl, rfl⟩
  · next ordinary =>
    simp only [if_neg ordinary]
    exact ⟨.nothing rfl rfl rfl rfl rfl rfl, rfl, names, rfl, rfl, rfl⟩

theorem mem_states_log (r : Report) (me : ThreadId) (free : w.context.reportLock = .free)
    (created : w.logFile? = some logName)
    (h : v ∈ (r.writeTo w.context.reportNames.programName logName).states (r.searched me w)) :
    v ∈ (r.log me).states w := by
  have asked := ask_of_free me (show w.context.reportLock.owner = 0 by rw [free]; rfl)
  have written : v ∈ r.written.states (r.entered me w) := by
    rw [Report.written]
    iterate 3 refine Steps.mem_states_bind_right ?_
    simp only [Steps.run_look, World.run_onMachine]
    show v ∈ (r.continued (r.entered me w).context.reportNames.programName
      (r.entered me w).search.1).states { r.entered me w with machine := (r.entered me w).search.2 }
    rw [reportNames_entered, search_entered, World.search_of_logFile created]
    exact h
  have unmarked : v ∈ r.unmarked.states (r.entered me w) := by
    have untrapped : (r.entered me w).trapped = false := by
      rw [trapped_entered, World.trapped_of_logFile created]
    rw [Report.unmarked]
    refine Steps.mem_states_bind_right ?_
    show v ∈ (if (r.entered me w).trapped then surrender else r.written).states (r.entered me w)
    rw [untrapped]
    exact written
  have made : v ∈ r.make.states (ask me w).2 := by
    rw [make_eq, asked]
    rw [entered] at unmarked
    split
    · next fatal =>
      rw [if_pos fatal] at unmarked
      exact Steps.mem_states_bind_right unmarked
    · next ordinary =>
      rw [if_neg ordinary] at unmarked
      exact unmarked
  refine Steps.mem_states_bind_right (Steps.mem_states_bind_left _ ?_)
  rw [Steps.run_act]
  show v ∈ (r.afterAttempt (ask me w).1).states (ask me w).2
  have acquired : (ask me w).1 = .acquired := by rw [asked]
  rw [acquired]
  exact Steps.mem_states_bind_left _ made

/-- All that a report tries that returns. -/
theorem tries_log (free : w.context.reportLock = .free) (returns : r.Returns me w)
    (settled : w.context.commands.held = false) (fork : w.machine.forkFailure = none)
    (created : w.logFile? = some logName) :
    w.Tries ((r.postmortem? logName w).toList ++ (r.session? logName w).toList)
      ((r.log me).run w).2 := by
  let u := r.searched me w
  have same := searched_searched r me logName w
  have course := made_of_logFile r me created
  have returned := made_of_returns free returns
  rw [course, ← same.names] at returned
  have ended := machine_after_log r me free
  rw [course, ← same.names] at ended
  refine ⟨?_, follows_log free returns⟩
  rw [ended]
  cases result : ((r.runPostmortem logName).run
      (r.prepared u.context.reportNames.programName logName u)).1 with
  | error halt =>
      rw [run_writeTo_of_error result] at returned
      cases returned
  | ok ran =>
      obtain ⟨closed, -, tried, -, -, after⟩ := tries_writeTo r logName u (same.commands ▸ settled)
        (same.machine.forkFailure.trans fork) result
      rw [same.postmortem] at tried
      rw [same.session] at after
      exact same.machine.trans (tried.trans after).machine

/-- A report waits without end: its postmortem command has no timeout, and the program started for
    it, which is the only one tried, never ends. -/
structure Stuck (r : Report) (logName : CString) (w later : World) : Prop where
  timeless : Duration.limit (some w.context.commands.value.postmortemTimeout) = ⊤
  attempts : later.machine.attempts = w.machine.attempts ++ (r.postmortem? logName w).toList
  endless : w.machine.Endless later.machine

/-- A report whose log file is there tries the postmortem command, closes its announcement, and then
    tries the session logger. It tries nothing else. But if its postmortem command has no timeout and
    never ends, the report waits for it without end, and it is all that the report tries. -/
theorem attempts_log (r : Report) (me : ThreadId) {logName : CString}
    (free : w.context.reportLock = .free) (settled : w.context.commands.held = false)
    (fork : w.machine.forkFailure = none) (created : w.logFile? = some logName)
    (fits : ∀ n : ℕ, Duration.limit (some w.context.commands.value.postmortemTimeout) = n →
      n < UInt64.size) :
    (∃ closed ∈ (r.log me).states w,
      closed.machine.attempts = w.machine.attempts ++ (r.postmortem? logName w).toList ∧
      (Duration.limit (some w.context.commands.value.postmortemTimeout) = ⊤ →
        ¬ w.machine.Endless closed.machine) ∧
      (closing w (.ofProgram w.context.reportNames.programName.bytes)).flatten <:+
        closed.machine.stderr ∧
      ((r.log me).run w).2.machine.attempts =
        closed.machine.attempts ++ (r.session? logName w).toList) ∨
    ((r.log me).run w).1 = .error .waiting ∧ r.Stuck logName w ((r.log me).run w).2 := by
  let u := r.searched me w
  have same := searched_searched r me logName w
  have course := made_of_logFile r me created
  have ended := machine_after_log r me free
  have attempts : u.machine.attempts = w.machine.attempts := by
    rw [same.machine.attempts, List.append_nil]
  have before : u.machine.launches = w.machine.launches :=
    same.machine.launches (World.follows_search w)
  have settled' : u.context.commands.held = false := same.commands ▸ settled
  have fork' := same.machine.forkFailure.trans fork
  rw [course, ← same.names] at ended
  cases result : ((r.runPostmortem logName).run
      (r.prepared u.context.reportNames.programName logName u)).1 with
  | ok ran =>
      obtain ⟨closed, member, tried, done, said, after⟩ :=
        tries_writeTo r logName u settled' fork' result
      rw [same.names] at member said
      rw [same.postmortem] at tried
      rw [same.session] at after
      rw [same.commands] at done
      refine .inl ⟨closed, mem_states_log r me free created member, ?_, ?_, same.closing ▸ said, ?_⟩
      · rw [tried.machine.attempts, attempts]
      · intro timeless endless
        exact done timeless (endless.of_launches before rfl)
      · rw [ended]
        exact after.machine.attempts
  | error halt =>
      obtain ⟨waits, timeless, tried, endless⟩ :=
        tries_writeTo_of_error r logName u settled' fork' (same.commands ▸ fits) result
      rw [same.commands] at timeless
      rw [same.postmortem] at tried
      rw [← ended] at endless
      refine .inr ⟨?_, timeless, ?_, endless.of_launches before.symm rfl⟩
      · rw [run_log r me free, course, ← same.names, waits]
        rfl
      · rw [ended, tried.machine.attempts, attempts]

/-- A process with both commands, the first of them replaced by the environment. -/
def launchWorld : World :=
  { World.start { Machine.bare with environment := ⟨[.spelled "ARCH_POSTMORTEM=./pm"]⟩ } with
    context := { Context.initial with
      names := .new ⟨some (.spelled "app"), some (.spelled "."), none⟩
      commands := .new { Commands.none with
        postmortem := ⟨some (.spelled "gdb"), none, some [.spelled "$cmd", .spelled "$log", .spelled "$logs"]⟩
        session := ⟨some (.spelled "tell"), none, some [.spelled "sh", .spelled "$prog", .spelled "$stack"]⟩ }
      fatalStackLogging := true } }

theorem crash_launches :
    ∃ closed ∈ ((⟨true, .text "why", none, none⟩ : Report).log ⟨1, by decide⟩).states launchWorld,
      closed.machine.attempts =
        [(.text "./pm", [.text "./pm", .text "./st_app.42", .text "$logs"])] ∧
      (((⟨true, .text "why", none, none⟩ : Report).log ⟨1, by decide⟩).run
          launchWorld).2.machine.attempts =
        [(.text "./pm", [.text "./pm", .text "./st_app.42", .text "$logs"]),
          (.text "sh", [.text "sh", .text "app", .text "./st_app.42"])] := by
  have created : launchWorld.logFile? = some (.text "./st_app.42") := by decide +kernel
  have limit : Duration.limit (some launchWorld.context.commands.value.postmortemTimeout) =
      (300 : ℕ) := by decide +kernel
  have fits : ∀ n : ℕ, Duration.limit (some launchWorld.context.commands.value.postmortemTimeout) =
      n → n < UInt64.size := by
    intro n same
    rw [limit, Nat.cast_inj] at same
    rw [← same]
    decide
  have none : launchWorld.machine.attempts = [] := rfl
  have postmortem : (⟨true, .text "why", .none, .none⟩ : Report).postmortem? (.text "./st_app.42")
      launchWorld = some (.text "./pm", [.text "./pm", .text "./st_app.42", .text "$logs"]) := by
    decide +kernel
  have session : (⟨true, .text "why", .none, .none⟩ : Report).session? (.text "./st_app.42")
      launchWorld = some (.text "sh", [.text "sh", .text "app", .text "./st_app.42"]) := by
    decide +kernel
  obtain ⟨closed, member, first, -, -, second⟩ | ⟨-, stuck⟩ :=
    attempts_log ⟨true, .text "why", .none, .none⟩ ⟨1, by decide⟩ rfl rfl rfl created fits
  · rw [none, postmortem] at first
    rw [session, first] at second
    exact ⟨closed, member, first, second⟩
  · have timeless := stuck.timeless
    rw [limit] at timeless
    exact absurd timeless (ENat.natCast_ne_top 300)

/-- A process whose postmortem command never ends, with a timeout. -/
def hangingWorld (timeout : Duration) : World :=
  { World.start (Machine.withTool ⟨[], none, .exited 0, false⟩) with
    context := { Context.initial with
      names := .new ⟨some (.spelled "app"), some (.spelled "."), none⟩
      commands := .new { Commands.none with
        postmortem := ⟨some (.spelled "tool"), none, some [.spelled "$cmd", .spelled "$log"]⟩
        postmortemTimeout := timeout
        session := ⟨some (.spelled "tell"), none, some [.spelled "sh", .spelled "$stack"]⟩ }
      fatalStackLogging := true } }

/-- A report may not get as far as the session logger that is configured for it: it does not if there
    is no timeout, and neither if the seconds of the timeout do not fit. -/
theorem session_logger_unreached :
    let r : Report := ⟨true, .text "why", none, none⟩
    let logName : CString := .text "./st_app.42"
    let tool : Attempted := (.text "tool", [.text "tool", logName])
    let w := hangingWorld (.ofSeconds 0)
    let v := hangingWorld ⟨18446744073709551615, 1, by decide⟩
    (w.logFile? = some logName ∧ v.logFile? = some logName) ∧
      (r.postmortem? logName w = some tool ∧ r.postmortem? logName v = some tool) ∧
      (r.session? logName w = some (.text "sh", [.text "sh", logName]) ∧
        r.session? logName v = some (.text "sh", [.text "sh", logName])) ∧
      ((r.log ⟨1, by decide⟩).run w).2.machine.attempts = [tool] ∧
      ((r.log ⟨1, by decide⟩).run v).2.machine.attempts = [tool] := by
  decide +kernel

end Report

end Postmortem

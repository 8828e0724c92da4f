import Postmortem.Proofs.Announced
import Postmortem.Proofs.Watch

/-! # Reports that return

A report can be stopped in three ways: a debugger gets the process, a program is waited for without
end, or the seconds of a timeout do not fit. If no debugger is to have the process and both commands
have a timeout that can be counted, every report returns, and so does every sequence of them.
-/

namespace Postmortem

namespace Duration

/-- A timeout that comes to an end, and whose seconds can be counted. -/
def Finite (timeout : Duration) : Prop := ∃ b, budget (some timeout) = .ok (some b)

theorem finite_ofSeconds {n : UInt64} (pos : 0 < n) : (ofSeconds n).Finite := by
  have time : (ofSeconds n).isZero = false := by
    rw [isZero, ofSeconds, decide_eq_false (UInt64.ne_of_lt pos).symm]
    rfl
  have whole : (ofSeconds n).wholeSeconds = .ok (n + 0) := if_pos n.toNat_lt_size
  exact ⟨n + 0, by rw [budget, if_neg (by simp [time]), whole]; rfl⟩

end Duration

/-- A wait with such a timeout has a result. -/
theorem Machine.result_wait {ignored : Bool} {timeout : Duration} (finite : timeout.Finite)
    (lifetime : Option Nat) (ending : Ending) :
    ∃ answer, (wait ignored (some timeout) lifetime ending).1.result = .ok answer := by
  obtain ⟨b, sum⟩ := finite
  obtain ⟨verdict, finished⟩ := Watch.finished_run (Duration.budget_pos sum) lifetime ending
  rw [wait, sum]
  simp only [Spawned.ofWatch, finished]
  exact ⟨_, rfl⟩

theorem Machine.result_spawnAndWait_of_finite (m : Machine) (path : CString) (argv : Argv)
    {timeout : Duration} (finite : timeout.Finite) :
    ∃ answer, (m.spawnAndWait path argv (some timeout)).1.result = .ok answer := by
  rw [spawnAndWait]
  split
  · exact ⟨_, rfl⟩
  · exact result_wait finite _ _

theorem CommandTemplate.result_start {t : CommandTemplate} {override : CString} {fatal : Bool}
    {table : Substitutions} {timeout : Duration} {what : String} {m : Machine} {spawned : Spawned}
    (finite : timeout.Finite)
    (started : (t.start override fatal table timeout what m).1 = some spawned) :
    ∃ answer, spawned.result = .ok answer := by
  rw [start] at started
  split at started
  · cases started
  · cases started
  · cases started
    exact m.result_spawnAndWait_of_finite _ _ finite

namespace World

/-- Nothing stops a report: no debugger is to have the process, and both commands are waited for
    with a timeout that can be counted. -/
structure Bounded (w : World) : Prop where
  untrapped : w.trapped = false
  postmortem : w.context.commands.value.postmortemTimeout.Finite
  session : w.context.commands.value.sessionTimeout.Finite

variable {w later : World}

theorem Bounded.of_eq (h : w.Bounded) (status : later.machine.status = w.machine.status)
    (commands : later.context.commands = w.context.commands)
    (trap : later.context.trapOnDebugger = w.context.trapOnDebugger) : later.Bounded := by
  refine ⟨?_, commands ▸ h.postmortem, commands ▸ h.session⟩
  rw [trapped, trap, Machine.debugged, status]
  exact h.untrapped

/-- A report does not change any of this. -/
theorem Bounded.of_follows (h : w.Bounded) (follows : w.Follows later) : later.Bounded := by
  apply h.of_eq follows.machine.status
  · rw [follows.context]
  · rw [follows.context]

theorem result_runCommand (select : Commands → CommandTemplate × Duration) (override : CString)
    (fatal : Bool) (table : World → Substitutions) (what : String)
    (finite : (select w.context.commands.value).2.Finite) :
    ∃ ran, ((runCommand childEnded select override fatal table what).run w).1 = .ok ran := by
  rw [runCommand, Steps.run_bind, startCommand, Steps.run_act]
  cases read : w.context.commands.tryRead with
  | none => exact ⟨false, rfl⟩
  | some commands =>
      have same : commands = w.context.commands.value := by
        rw [Guarded.tryRead] at read
        split at read
        · cases read
        · exact (Option.some.inj read).symm
      rw [← same] at finite
      dsimp only
      cases started : ((select commands).1.start override fatal (table w) (select commands).2 what
          w.machine).1 with
      | none => exact ⟨false, rfl⟩
      | some spawned =>
          obtain ⟨answer, result⟩ := CommandTemplate.result_start finite started
          rw [run_afterWait_ok result]
          exact ⟨true, rfl⟩

end World

namespace Report

variable {w : World} {program logName : CString}

theorem result_session (bounded : w.Bounded) (program logName : CString) (ran : Bool) :
    ((session program logName ran).run w).1 = .ok () := by
  rw [session]
  split
  · rw [Session.run_finish]
    split
    · obtain ⟨ran, result⟩ : ∃ ran, ((Session.invoke World.childEnded program (some logName)).run
          w).1 = .ok ran := World.result_runCommand _ _ _ _ _ bounded.session
      rw [result]
      rfl
    · rfl
  · rfl

theorem result_runPostmortem (bounded : w.Bounded) (r : Report) (logName : CString) :
    ∃ ran, ((r.runPostmortem logName).run w).1 = .ok ran :=
  World.result_runCommand _ _ _ _ _ bounded.postmortem

theorem result_writeTo (bounded : w.Bounded) (r : Report) (program logName : CString) :
    ((r.writeTo program logName).run w).1 = .ok () := by
  have prepared := bounded.of_follows (r.follows_prepared program logName w)
  obtain ⟨ran, result⟩ := result_runPostmortem prepared r logName
  have ran_follows : (r.prepared program logName w).Follows
      ((r.runPostmortem logName).run (r.prepared program logName w)).2 :=
    World.follows_runCommand _ _ _ _ _ _
  rw [run_writeTo_of_ok result]
  exact result_session ((prepared.of_follows ran_follows).of_follows (follows_closed _ _)) _ _ _

theorem bounded_searched (bounded : w.Bounded) (r : Report) (me : ThreadId) :
    (r.searched me w).Bounded := by
  apply bounded.of_eq (World.follows_search w).status
  · rw [searched, entered]
    split <;> rfl
  · rw [searched, entered]
    split <;> rfl

/-- What nothing stops returns. -/
theorem returns_of_bounded (free : w.context.reportLock = .free) (bounded : w.Bounded) (r : Report)
    (me : ThreadId) : r.Returns me w := by
  have made : (r.made me w).1 = .ok () := by
    rw [made_of_untrapped r me bounded.untrapped]
    cases w.search.1 with
    | ok logName => exact result_writeTo (bounded_searched bounded r me) r _ logName
    | error e => rfl
  rw [Returns, run_log r me free, made]
  exact ⟨.acquired, rfl⟩

theorem allReturn_of_bounded {calls : List (ThreadId × Report)}
    (free : w.context.reportLock = .free) (bounded : w.Bounded) : AllReturn calls w := by
  induction calls generalizing w with
  | nil => exact allReturn_nil w
  | cons call rest ih =>
      obtain ⟨me, r⟩ := call
      have returns := returns_of_bounded free bounded r me
      exact allReturn_cons.mpr ⟨returns,
        ih (free_after_log free returns) (bounded.of_follows (follows_log free returns))⟩

end Report

end Postmortem

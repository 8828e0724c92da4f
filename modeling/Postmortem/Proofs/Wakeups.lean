import Postmortem.Proofs.Countdown

/-! # Wake-ups

While a program runs, only the alarm gets the parent out of its wait. Arming the alarm and entering
the wait are two moves of the parent. An alarm that goes off between them finds nobody waiting, and
the wait that follows has none: it lasts until the program ends, and the timeout is lost. There is
no other way to lose it, and there is such a moment in each of its seconds.
-/

namespace Postmortem

namespace Watch

variable {budget : Option UInt64} {b : UInt64} {u w w' : Watch}

/-- In the wait for a program that still runs. -/
structure Blocked (w : Watch) : Prop where
  waiting : w.watcher = .waiting
  running : w.child = none

/-- Between the alarm, which is armed, and the wait for a program that still runs. -/
structure Armed (w : Watch) : Prop where
  entering : w.watcher = .entering
  running : w.child = none
  alarm : w.alarm = true

/-- What a wait may have come to if no alarm has gone off before the wait that it was armed for. -/
inductive Punctual (budget : Option UInt64) : Watch → Prop where
  | start : Punctual budget (start budget)
  | move {w w' : Watch} (before : Punctual budget w) (moves : w.move = some w') :
      Punctual budget w'
  | expire {w : Watch} (before : Punctual budget w) (late : ¬ w.Armed) : Punctual budget w.expire
  | childEnds {w : Watch} (before : Punctual budget w) (ending : Ending) :
      Punctual budget (w.childEnds ending)

theorem Punctual.reached (h : Punctual budget w) : Reached budget w := by
  induction h with
  | start => exact .start
  | move before moves ih => exact ih.move moves
  | expire before late ih => exact ih.expire
  | childEnds before ending ih => exact ih.childEnds ending

/-! ## Single steps -/

theorem expire_idle (off : w.alarm = false) : w.expire = w := by
  simp [Watch.expire, off]

theorem expire_blocked (blocked : w.Blocked) (on : w.alarm = true) :
    w.expire = { w with alarm := false, watcher := .woken } := by
  simp [Watch.expire, on, blocked.waiting]

theorem Armed.expire (h : u.Armed) : u.expire = { u with alarm := false } := by
  simp [Watch.expire, h.alarm, h.entering]

theorem move_entering (entering : w.watcher = .entering) (running : w.child = none) :
    w.move = some { w with watcher := .waiting } := by
  simp [Watch.move, entering, running]

theorem Armed.expire_move (h : u.Armed) :
    u.expire.move = some { u with alarm := false, watcher := .waiting } := by
  rw [h.expire]
  exact move_entering h.entering h.running

theorem Blocked.move (h : w.Blocked) : w.move = none := by
  simp [Watch.move, h.waiting]

theorem Blocked.childEnds (h : w.Blocked) (ending : Ending) :
    (w.childEnds ending).watcher = .finished (.ended ending) := by
  simp [Watch.childEnds, h.waiting, h.running]

theorem expire_child (w : Watch) : w.expire.child = w.child := by
  have event := alarmed_expire w
  generalize w.expire = later at event ⊢
  cases event with
  | idle | wakes | early => rfl

theorem childEnds_child (w : Watch) (ending : Ending) :
    (w.childEnds ending).child.isSome = true := by
  have event := left_childEnds w ending
  generalize w.childEnds ending = later at event ⊢
  cases event with
  | before ended => exact ended
  | noticed | unnoticed => rfl

/-- A program that has ended stays so. -/
theorem move_child (moves : w.move = some w') (ended : w.child.isSome = true) :
    w'.child.isSome = true := by
  cases moved_of_move moves with
  | arms | waits | reaps | counts | goesOn | panics => exact ended
  | kills => rfl

/-! ## As long as no alarm is early -/

/-- From when it is armed until the wait is over, the alarm of a running program is pending. -/
def Pending (w : Watch) : Prop :=
  w.child = none → w.watcher = .entering ∨ w.watcher = .waiting → w.alarm = true

theorem Pending.move (h : w.Pending) (timed : w.remaining.isSome = true)
    (moves : w.move = some w') : w'.Pending := by
  intro running place'
  cases moved_of_move moves with
  | arms =>
      show (w.alarm || w.remaining.isSome) = true
      rw [timed, Bool.or_true]
  | waits place _ => exact h running (.inl place)
  | counts place left more => split at place' <;> simp at place'
  | goesOn place endless =>
      rw [endless] at timed
      cases timed
  | reaps | panics | kills => simp at place'

theorem Pending.expire (h : w.Pending) (late : ¬ w.Armed) : w.expire.Pending := by
  have event := alarmed_expire w
  generalize w.expire = later at event ⊢
  intro running place
  cases event with
  | idle => exact h running place
  | wakes => simp at place
  | early on waiting =>
      -- The alarm is gone, and so is every place that it is needed in.
      rcases place with entering | place
      · exact absurd ⟨entering, running, on⟩ late
      · exact absurd place waiting

theorem Pending.childEnds (ending : Ending) : (w.childEnds ending).Pending := by
  intro running
  have ended := childEnds_child w ending
  rw [running] at ended
  cases ended

theorem Punctual.pending (h : Punctual (some b) w) : w.Pending := by
  induction h with
  | start => exact fun _ place => by rcases place with place | place <;> cases place
  | move before moves ih =>
      apply ih.move _ moves
      rw [before.reached.isSome]
      rfl
  | expire before late ih => exact ih.expire late
  | childEnds before ending ih => exact .childEnds ending

/-! ## What an early alarm leaves -/

/-- In a wait that follows an early alarm, the first one. -/
def Missed (budget : Option UInt64) (w : Watch) : Prop :=
  ∃ u, Punctual budget u ∧ u.Armed ∧ u.expire.move = some w

/-- How a wait goes on: as long as the program runs, at most one alarm has been early. -/
inductive Course (budget : Option UInt64) : Watch → Prop where
  | punctual {w : Watch} (h : Punctual budget w) : Course budget w
  | early {u : Watch} (before : Punctual budget u) (armed : u.Armed) : Course budget u.expire
  | missed {w : Watch} (h : Missed budget w) : Course budget w
  | done {w : Watch} (ended : w.child.isSome = true) : Course budget w

theorem Missed.blocked (h : Missed budget w) : w.Blocked ∧ w.alarm = false := by
  obtain ⟨u, -, armed, moves⟩ := h
  cases armed.expire_move.symm.trans moves
  exact ⟨⟨rfl, armed.running⟩, rfl⟩

theorem Course.move (h : Course budget w) (moves : w.move = some w') : Course budget w' := by
  cases h with
  | punctual h => exact .punctual (h.move moves)
  | early before armed => exact .missed ⟨_, before, armed, moves⟩
  | missed h => cases h.blocked.1.move.symm.trans moves
  | done ended => exact .done (move_child moves ended)

theorem Course.expire (h : Course budget w) : Course budget w.expire := by
  cases h with
  | punctual h =>
      by_cases armed : w.Armed
      · exact .early h armed
      · exact .punctual (h.expire armed)
  | @early u before armed =>
      have off : u.expire.alarm = false := by rw [armed.expire]
      rw [expire_idle off]
      exact .early before armed
  | missed h =>
      rw [expire_idle h.blocked.2]
      exact .missed h
  | done ended =>
      apply Course.done
      rw [expire_child]
      exact ended

theorem Reached.course (h : Reached budget w) : Course budget w := by
  induction h with
  | start => exact .punctual .start
  | move before moves ih => exact ih.move moves
  | expire before ih => exact ih.expire
  | childEnds before ending ih => exact .done (childEnds_child _ ending)

/-- The timeout is lost in the waits that follow an early alarm and in no other. -/
theorem Reached.missed_iff (h : Reached (some b) w) (blocked : w.Blocked) :
    w.alarm = false ↔ Missed (some b) w := by
  constructor
  · intro off
    cases h.course with
    | punctual h =>
        have on := h.pending blocked.running (.inr blocked.waiting)
        cases off.symm.trans on
    | early before armed =>
        have waiting := blocked.waiting
        rw [armed.expire] at waiting
        cases armed.entering.symm.trans waiting
    | missed h => exact h
    | done ended =>
        rw [blocked.running] at ended
        cases ended
  · intro missed
    exact missed.blocked.2

/-- In every second of a timeout there is a moment for an early alarm. -/
theorem armed_at (k : Nat) (more : k < b.toNat) :
    ∃ u, Punctual (some b) u ∧ u.Armed ∧ u.ticks = k := by
  induction k with
  | zero => exact ⟨_, Punctual.start.move rfl, ⟨rfl, rfl, rfl⟩, rfl⟩
  | succ k ih =>
      obtain ⟨u, before, armed, ticks⟩ := ih (by omega)
      obtain ⟨⟨left, remaining, total, -⟩, -⟩ := before.reached.counting (Nat.zero_lt_of_lt more)
      obtain ⟨rest, rfl⟩ : ∃ rest, left = rest + 1 + 1 := ⟨left - 2, by omega⟩
      -- The parent waits, is woken and counts, and arms the next alarm.
      have waits := before.move (move_entering armed.entering armed.running)
      have wakes := waits.expire (fun again => nomatch again.entering)
      rw [expire_blocked (w := { u with watcher := .waiting }) ⟨rfl, armed.running⟩ armed.alarm]
        at wakes
      have counts : Punctual (some b)
          { u with
            watcher := .arming, remaining := some (rest + 1), alarm := false, ticks := k + 1 } := by
        apply wakes.move
        simp [Watch.move, remaining, ticks]
      exact ⟨_, counts.move rfl, ⟨rfl, armed.running, rfl⟩, rfl⟩

/-- A timeout that is counted in seconds is kept unless an alarm is early. Whenever the parent waits
    for a running program, its alarm is pending and wakes it up, or it is the wait after an early
    alarm: nothing but the end of the program gets it out of there. This can happen in every second
    of the timeout. -/
theorem timeout_kept_unless_missed (b : UInt64) :
    (∀ w, Punctual (some b) w → w.Blocked → w.alarm = true ∧ w.expire.watcher = .woken) ∧
      (∀ w, Reached (some b) w → w.Blocked →
        (w.alarm = false ↔ Missed (some b) w) ∧
          (w.alarm = false → w.move = none ∧ w.expire = w ∧
            ∀ ending, (w.childEnds ending).watcher = .finished (.ended ending))) ∧
      ∀ k < b.toNat, ∃ w, Missed (some b) w ∧ w.ticks = k := by
  refine ⟨?_, ?_, ?_⟩
  · intro w punctual blocked
    have on := punctual.pending blocked.running (.inr blocked.waiting)
    refine ⟨on, ?_⟩
    rw [expire_blocked blocked on]
  · intro w reached blocked
    refine ⟨reached.missed_iff blocked, ?_⟩
    intro off
    exact ⟨blocked.move, expire_idle off, blocked.childEnds⟩
  · intro k more
    obtain ⟨u, before, armed, ticks⟩ := armed_at k more
    exact ⟨_, ⟨u, before, armed, armed.expire_move⟩, ticks⟩

/-- The wait for a program that is given one second, when the alarm goes off before it. -/
def missedSecond : Watch :=
  { watcher := .waiting, remaining := some 1, alarm := false, child := none, unreaped := true
    ticks := 0 }

/-- The parent waits for a running program and no alarm is pending. -/
theorem waits_without_alarm :
    ¬ ∀ w, Reached (some 1) w → w.watcher = .waiting → w.child = none → w.alarm = true := by
  intro kept
  have armed : Reached (some 1) _ := Reached.start.move rfl
  have missed : Reached (some 1) missedSecond := armed.expire.move rfl
  cases kept missedSecond missed rfl rfl

theorem second_kept_or_missed :
    Punctual (some 1) { missedSecond with alarm := true } ∧
      ({ missedSecond with alarm := true } : Watch).expire.watcher = .woken ∧
      Missed (some 1) missedSecond ∧ missedSecond.expire = missedSecond := by
  have waits : Punctual (some 1) { missedSecond with alarm := true } :=
    (Punctual.start.move rfl).move rfl
  have armed : Reached (some 1) _ := Reached.start.move rfl
  have missed : Reached (some 1) missedSecond := armed.expire.move rfl
  have kept := timeout_kept_unless_missed 1
  have alone := kept.2.1 missedSecond missed ⟨rfl, rfl⟩
  exact ⟨waits, (kept.1 _ waits ⟨rfl, rfl⟩).2, alone.1.mp rfl, (alone.2 rfl).2.1⟩

end Watch

end Postmortem

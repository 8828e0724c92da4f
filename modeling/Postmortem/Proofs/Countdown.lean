import Postmortem.Proofs.ConfigTexts
import Postmortem.Proofs.Spawn

/-! # Counting down a timeout

A timeout is rounded up to whole seconds, and while the program runs they are counted down in 64
bits. This is exact for every timeout that is not longer than the longest one of whole seconds,
whatever the alarm and the program do in the meantime. The longest timeouts of all, rounded up,
do not fit any more; then the parent panics, and its program is left behind.
-/

namespace Postmortem

namespace Watch

variable {budget : Option UInt64} {b : UInt64} {w w' : Watch} {allowed : Nat}

/-! ## Single events -/

/-- What a move of the parent does. -/
inductive Moved (w : Watch) : Watch → Prop where
  | arms (place : w.watcher = .arming) :
      Moved w { w with watcher := .entering, alarm := w.alarm || w.remaining.isSome }
  | waits (place : w.watcher = .entering) (running : w.child = none) :
      Moved w { w with watcher := .waiting }
  | reaps (place : w.watcher = .entering) (ending : Ending) (ended : w.child = some ending) :
      Moved w { w with watcher := .finished (.ended ending), unreaped := false }
  /-- A second is taken away. -/
  | counts (place : w.watcher = .woken) (left : Nat) (more : w.remaining = some (left + 1)) :
      Moved w { w with
        watcher := if left = 0 then .killing else .arming
        remaining := some left
        ticks := w.ticks + 1 }
  /-- There is no timeout. -/
  | goesOn (place : w.watcher = .woken) (endless : w.remaining = none) :
      Moved w { w with watcher := .arming, ticks := w.ticks + 1 }
  | panics (place : w.watcher = .woken) (nothing : w.remaining = some 0) :
      Moved w { w with watcher := .panicked, alarm := false, ticks := w.ticks + 1 }
  | kills (place : w.watcher = .killing) :
      Moved w { w with
        watcher := .finished .timedOut
        alarm := false
        child := some (w.child.getD (.killed killSignal))
        unreaped := false }

theorem moved_of_move (moves : w.move = some w') : Moved w w' := by
  obtain ⟨watcher, remaining, alarm, child, unreaped, ticks⟩ := w
  cases watcher with
  | arming =>
      cases moves
      exact .arms rfl
  | entering =>
      cases child with
      | none =>
          cases moves
          exact .waits rfl rfl
      | some ending =>
          cases moves
          exact .reaps rfl ending rfl
  | woken =>
      cases remaining with
      | none =>
          cases moves
          exact .goesOn rfl rfl
      | some seconds =>
          cases seconds with
          | zero =>
              cases moves
              exact .panics rfl rfl
          | succ left =>
              cases moves
              exact .counts rfl left rfl
  | killing =>
      cases moves
      exact .kills rfl
  | waiting | panicked | finished => cases moves

/-- What an alarm does. -/
inductive Alarmed (w : Watch) : Watch → Prop where
  | idle (off : w.alarm = false) : Alarmed w w
  | wakes (on : w.alarm = true) (place : w.watcher = .waiting) :
      Alarmed w { w with alarm := false, watcher := .woken }
  | early (on : w.alarm = true) (place : w.watcher ≠ .waiting) : Alarmed w { w with alarm := false }

theorem alarmed_expire (w : Watch) : Alarmed w w.expire := by
  unfold Watch.expire
  split
  · next on =>
    by_cases waiting : w.watcher = .waiting
    · rw [if_pos waiting]
      exact .wakes on waiting
    · rw [if_neg waiting]
      exact .early on waiting
  · next off => exact .idle (Bool.eq_false_of_not_eq_true off)

/-- What the end of the program does. -/
inductive Left (w : Watch) (ending : Ending) : Watch → Prop where
  | before (ended : w.child.isSome = true) : Left w ending w
  | noticed (place : w.watcher = .waiting) :
      Left w ending { w with
        child := some ending, watcher := .finished (.ended ending), unreaped := false }
  | unnoticed (place : w.watcher ≠ .waiting) : Left w ending { w with child := some ending }

theorem left_childEnds (w : Watch) (ending : Ending) : Left w ending (w.childEnds ending) := by
  unfold Watch.childEnds
  split
  · next ended => exact .before ended
  · split
    · next waiting => exact .noticed waiting
    · next waiting => exact .unnoticed waiting

/-! ## Courses -/

/-- What a wait may have come to, whenever the alarm goes off and the program ends. -/
inductive Reached (budget : Option UInt64) : Watch → Prop where
  | start : Reached budget (start budget)
  | move {w w' : Watch} (before : Reached budget w) (moves : w.move = some w') : Reached budget w'
  | expire {w : Watch} (before : Reached budget w) : Reached budget w.expire
  | childEnds {w : Watch} (before : Reached budget w) (ending : Ending) :
      Reached budget (w.childEnds ending)

theorem Reached.settle (n : Nat) (h : Reached budget w) : Reached budget (settle n w) := by
  induction n generalizing w with
  | zero => exact h
  | succ n ih =>
      unfold Watch.settle
      cases moves : w.move with
      | none => exact h
      | some w' => exact ih (h.move moves)

theorem Reached.passFrom (lifetime : Option Nat) (ending : Ending) (seconds : Nat)
    (h : Reached budget w) : Reached budget (passFrom lifetime ending seconds w) := by
  induction seconds generalizing w with
  | zero => exact h
  | succ seconds ih =>
      have second := h.expire.settle movesPerSecond
      unfold Watch.passFrom
      split
      · exact h.childEnds ending
      · dsimp only
        split
        · exact ih second
        · exact second

/-- The course of things when the parent is quick is one of those. -/
theorem reached_run (budget : Option UInt64) (lifetime : Option Nat) (ending : Ending) :
    Reached budget (run budget lifetime ending) := by
  have begun : Reached budget (Watch.settle movesPerSecond (Watch.start budget)) :=
    Reached.start.settle movesPerSecond
  unfold run
  cases budget with
  | some seconds => exact begun.passFrom lifetime ending (seconds.toNat + 1)
  | none =>
      cases lifetime with
      | none => exact begun
      | some seconds => exact begun.childEnds ending

/-! ## The count -/

/-- Is the program neither given up nor done with? -/
def goesOn : Watcher → Bool
  | .arming | .entering | .waiting | .woken => true
  | .killing | .panicked | .finished _ => false

/-- The seconds counted and those left make up the ones allowed, and there are some left as long as
    the program goes on. -/
structure Counting (allowed : Nat) (w : Watch) : Prop where
  total : ∃ left, w.remaining = some left ∧ w.ticks + left = allowed ∧
    (goesOn w.watcher = true → 0 < left)
  calm : w.watcher ≠ .panicked

theorem Counting.start (time : 0 < b.toNat) : Counting b.toNat (start (some b)) :=
  ⟨⟨b.toNat, rfl, Nat.zero_add _, fun _ => time⟩, nofun⟩

theorem Counting.move (h : Counting allowed w) (moves : w.move = some w') :
    Counting allowed w' := by
  obtain ⟨⟨left, remaining, total, positive⟩, -⟩ := h
  cases moved_of_move moves with
  | arms place | waits place _ =>
      rw [place] at positive
      exact ⟨⟨left, remaining, total, positive⟩, nofun⟩
  | reaps | kills => exact ⟨⟨left, remaining, total, nofun⟩, nofun⟩
  | counts place rest more =>
      -- Only this move takes a second away, and it goes on only if another one is left.
      cases remaining.symm.trans more
      refine ⟨⟨rest, rfl, show w.ticks + 1 + rest = allowed by omega, ?_⟩, ?_⟩
      · show goesOn (if rest = 0 then .killing else .arming) = true → 0 < rest
        split
        · exact nofun
        · intro on
          omega
      · show (if rest = 0 then Watcher.killing else .arming) ≠ .panicked
        split
        · exact nofun
        · exact nofun
  | goesOn place endless => cases remaining.symm.trans endless
  | panics place nothing =>
      rw [place] at positive
      cases remaining.symm.trans nothing
      exact absurd (positive rfl) (Nat.lt_irrefl 0)

theorem Counting.expire (h : Counting allowed w) : Counting allowed w.expire := by
  obtain ⟨⟨left, remaining, total, positive⟩, calm⟩ := h
  have event := alarmed_expire w
  generalize w.expire = later at event ⊢
  cases event with
  | idle | early => exact ⟨⟨left, remaining, total, positive⟩, calm⟩
  | wakes on place =>
      rw [place] at positive
      exact ⟨⟨left, remaining, total, positive⟩, nofun⟩

theorem Counting.childEnds (h : Counting allowed w) (ending : Ending) :
    Counting allowed (w.childEnds ending) := by
  obtain ⟨⟨left, remaining, total, positive⟩, calm⟩ := h
  have event := left_childEnds w ending
  generalize w.childEnds ending = later at event ⊢
  cases event with
  | before | unnoticed => exact ⟨⟨left, remaining, total, positive⟩, calm⟩
  | noticed => exact ⟨⟨left, remaining, total, nofun⟩, nofun⟩

theorem Reached.counting (h : Reached (some b) w) (time : 0 < b.toNat) :
    Counting b.toNat w := by
  induction h with
  | start => exact .start time
  | move before moves ih => exact ih.move moves
  | expire before ih => exact ih.expire
  | childEnds before ending ih => exact ih.childEnds ending

theorem isSome_move (moves : w.move = some w') : w'.remaining.isSome = w.remaining.isSome := by
  cases moved_of_move moves with
  | arms | waits | reaps | goesOn | panics | kills => rfl
  | counts place left more =>
      rw [more]
      rfl

theorem remaining_expire (w : Watch) : w.expire.remaining = w.remaining := by
  have event := alarmed_expire w
  generalize w.expire = later at event ⊢
  cases event with
  | idle | wakes | early => rfl

theorem remaining_childEnds (w : Watch) (ending : Ending) :
    (w.childEnds ending).remaining = w.remaining := by
  have event := left_childEnds w ending
  generalize w.childEnds ending = later at event ⊢
  cases event with
  | before | noticed | unnoticed => rfl

/-- Seconds are counted down exactly if there is a budget. -/
theorem Reached.isSome (h : Reached budget w) : w.remaining.isSome = budget.isSome := by
  induction h with
  | start => exact Option.isSome_map
  | move before moves ih => exact (isSome_move moves).trans ih
  | expire before ih =>
      rw [remaining_expire]
      exact ih
  | childEnds before ending ih =>
      rw [remaining_childEnds]
      exact ih

/-- A wait of which the seconds counted and those left make up the time, and in which none is taken
    away that is not there. -/
structure Exact (seconds : Nat) (w : Watch) : Prop where
  total : ∀ left, w.remaining = some left → w.ticks + left = seconds
  taken : ∀ w', w.watcher = .woken → w.move = some w' →
    w.remaining ≠ some 0 ∧ w'.remaining = w.remaining.map (· - 1)
  calm : w.watcher ≠ .panicked

theorem Counting.exact (h : Counting allowed w) : w.Exact allowed := by
  obtain ⟨⟨left, remaining, total, positive⟩, calm⟩ := h
  refine ⟨?_, ?_, calm⟩
  · intro left' same
    cases remaining.symm.trans same
    exact total
  · intro w' woken moves
    rw [woken] at positive
    obtain ⟨rest, rfl⟩ := Nat.exists_eq_add_of_le' (positive rfl)
    unfold Watch.move at moves
    rw [woken, remaining] at moves
    cases moves
    rw [remaining]
    exact ⟨nofun, rfl⟩

/-- Without a budget nothing is counted down. -/
theorem Reached.exact_of_none (h : Reached none w) (seconds : Nat) : w.Exact seconds := by
  have uncounted {w : Watch} (h : Reached none w) : w.remaining = none :=
    Option.isSome_eq_false_iff.mp h.isSome |> Option.isNone_iff_eq_none.mp
  have calm : w.watcher ≠ .panicked := by
    induction h with
    | start => exact nofun
    | @move w w' before moves ih =>
        cases moved_of_move moves with
        | arms | waits | reaps | goesOn | kills => exact nofun
        | counts place left more => cases (uncounted before).symm.trans more
        | panics place nothing => cases (uncounted before).symm.trans nothing
    | @expire w before ih =>
        have event := alarmed_expire w
        generalize w.expire = later at event ⊢
        cases event with
        | idle | early => exact ih
        | wakes => exact nofun
    | @childEnds w before ending ih =>
        have event := left_childEnds w ending
        generalize w.childEnds ending = later at event ⊢
        cases event with
        | before | unnoticed => exact ih
        | noticed => exact nofun
  refine ⟨?_, ?_, calm⟩
  · intro left some
    cases (uncounted h).symm.trans some
  · intro w' woken moves
    rw [uncounted h, uncounted (h.move moves)]
    exact ⟨nofun, rfl⟩

end Watch

namespace Duration

open Watch (Reached)

theorem size_le_iff (d : Duration) :
    UInt64.size ≤ d.totalNanos ⌈/⌉ nanosPerSecond ↔
      d.seconds.toNat = UInt64.size - 1 ∧ 0 < d.nanos := by
  have bound := d.seconds.toNat_lt_size
  rw [ceilDiv_totalNanos]
  split <;> omega

theorem budget_of_lt {d : Duration} (fits : d.totalNanos ⌈/⌉ nanosPerSecond < UInt64.size) :
    ∃ b, budget (some d) = .ok b ∧ b.map UInt64.toNat =
      if d.totalNanos = 0 then none else some (d.totalNanos ⌈/⌉ nanosPerSecond) := by
  rw [budget]
  by_cases zero : d.totalNanos = 0
  · rw [if_pos zero, if_pos ((isZero_iff d).mpr zero)]
    exact ⟨none, rfl, rfl⟩
  · rw [if_neg zero, if_neg (mt (isZero_iff d).mp zero)]
    obtain ⟨seconds, sum, count⟩ := wholeSeconds_of_lt fits
    rw [sum]
    exact ⟨some seconds, rfl, congrArg some count⟩

theorem budget_of_le {d : Duration} (long : UInt64.size ≤ d.totalNanos ⌈/⌉ nanosPerSecond) :
    budget (some d) = .error ⟨⟩ := by
  obtain ⟨most, broken⟩ := (size_le_iff d).mp long
  have positive : ¬ d.isZero = true := by
    rw [isZero_iff]
    unfold totalNanos
    omega
  rw [budget, if_neg positive, wholeSeconds_of_le long]
  rfl

end Duration

namespace Machine

variable {m : Machine}

/-- If the seconds do not fit, the parent panics once its program is there. What it had set up for the
    wait is undone, but nobody waits for the program. -/
theorem spawn_of_overflow {timeout : Option Duration} (fork : m.forkFailure = none)
    (overflow : Duration.budget timeout = .error ⟨⟩) (path : CString) (argv : Argv) :
    (m.spawn path argv timeout).1.result = .error .panicked ∧
      (m.spawn path argv timeout).2.children = m.children + 1 ∧
      (m.spawn path argv timeout).2.alarm = false ∧
      ∀ signal, (m.spawn path argv timeout).2.disposition signal = m.disposition signal := by
  have panicked : m.waitFor path argv timeout = (⟨.error .panicked, 0⟩, true) := by
    rw [waitFor, wait, overflow]
  have result : (m.spawn path argv timeout).1.result = .error .panicked := by
    show (m.spawnAndWait path argv timeout).1.result = _
    rw [result_spawnAndWait fork, panicked]
  obtain ⟨alarm, children, dispositions⟩ := spawn_restores fork path argv timeout
  rw [panicked] at children
  exact ⟨result, children, alarm, dispositions⟩

end Machine

namespace Duration

open Watch (Reached)

/-- A timeout that fits, rounded up, is counted down exactly: the seconds counted and those left make
    it up at any time, whenever the alarm goes off and the program ends, and nothing is ever taken
    from what has been used up. Of a timeout that does not fit the seconds cannot be told: the
    parent panics and leaves behind the program that it has started. -/
theorem countdown_exact (d : Duration) :
    let seconds := d.totalNanos ⌈/⌉ nanosPerSecond
    (UInt64.size ≤ seconds ↔ d.seconds.toNat = UInt64.size - 1 ∧ 0 < d.nanos) ∧
    (seconds < UInt64.size → ∃ b, budget (some d) = .ok b ∧
      b.map UInt64.toNat = (if d.totalNanos = 0 then none else some seconds) ∧
      (∀ lifetime ending, Reached b (Watch.run b lifetime ending)) ∧
      ∀ w, Reached b w → w.Exact seconds) ∧
    (UInt64.size ≤ seconds → budget (some d) = .error ⟨⟩ ∧
      ∀ (m : Machine) (path : CString) (argv : Argv), m.forkFailure = none →
        (m.spawn path argv (some d)).1.result = .error .panicked ∧
        (m.spawn path argv (some d)).2.children = m.children + 1) := by
  intro seconds
  refine ⟨size_le_iff d, ?_, ?_⟩
  · intro fits
    obtain ⟨b, counted, value⟩ := budget_of_lt fits
    refine ⟨b, counted, value, Watch.reached_run b, ?_⟩
    intro w reached
    cases b with
    | none => exact reached.exact_of_none seconds
    | some b =>
        rw [Option.map_some] at value
        split at value
        · cases value
        · next time =>
          have whole : b.toNat = seconds := Option.some.inj value
          rw [← whole]
          exact (reached.counting (whole ▸ ceilDiv_pos time)).exact
  · intro long
    have overflow := budget_of_le long
    refine ⟨overflow, ?_⟩
    intro m path argv fork
    obtain ⟨panicked, children, -⟩ := Machine.spawn_of_overflow fork overflow path argv
    exact ⟨panicked, children⟩

/-- The shortest timeout that does not fit. -/
def overlong : Duration := ⟨18446744073709551615, 1, by decide⟩

/-- It can be configured, and then a program that ends at once is started and not waited for. -/
theorem overlong_panics :
    let c := { Config.standard with postmortemTimeout := overlong }
    let m := Machine.withTool Machine.quickTool
    c.Valid ∧ Config.ofText c.toText = .ok c ∧ budget (some c.postmortemTimeout) = .error ⟨⟩ ∧
      (m.spawn (.text "tool") Machine.toolArgv (some c.postmortemTimeout)).1.result =
        .error .panicked ∧
      (m.spawn (.text "tool") Machine.toolArgv (some c.postmortemTimeout)).2.children = 1 := by
  intro c m
  have valid : c.Valid := { Config.valid_standard with }
  obtain ⟨v, sound, stands, laid⟩ := c.laid_toText
  have overflow : budget (some c.postmortemTimeout) = .error ⟨⟩ := by decide
  obtain ⟨panicked, children, -⟩ :=
    Machine.spawn_of_overflow (m := m) rfl overflow (.text "tool") Machine.toolArgv
  have read := (Config.ofText_of_laid sound laid stands).mpr valid
  exact ⟨valid, read, overflow, panicked, children⟩

end Duration

end Postmortem

import Mathlib
import Postmortem.Watch

/-! # The course of a wait

As long as the program runs and time is left, a wait with a timeout goes on from one second to the
next. So a program that ends in time is seen to end, and one that does not is killed as soon as the
time is up; in both cases it has been waited for.
-/

namespace Postmortem

/-- A number of seconds; without a number there is no end. -/
def span : Option Nat → ℕ∞
  | some seconds => seconds
  | none => ⊤

namespace Duration

variable {timeout : Option Duration}

/-- A duration in nanoseconds. -/
def totalNanos (d : Duration) : Nat := d.seconds.toNat * nanosPerSecond + d.nanos

theorem ceilDiv_pos {d : Duration} (time : d.totalNanos ≠ 0) :
    0 < d.totalNanos ⌈/⌉ nanosPerSecond := by
  rw [Nat.ceilDiv_eq_add_pred_div]
  unfold nanosPerSecond
  omega

/-- The time that a timeout allows, rounded up to whole seconds; no timeout and no time at all both
    allow any time. -/
def limit : Option Duration → ℕ∞
  | some d => if d.totalNanos = 0 then ⊤ else (d.totalNanos ⌈/⌉ nanosPerSecond : ℕ)
  | none => ⊤

/-- Every timeout allows some time. -/
theorem limit_pos (timeout : Option Duration) : 0 < limit timeout := by
  cases timeout with
  | none => exact ENat.top_pos
  | some d =>
      rw [limit]
      split
      · exact ENat.top_pos
      · next time => exact Nat.cast_pos.mpr (ceilDiv_pos time)

theorem isZero_iff (d : Duration) : d.isZero = true ↔ d.totalNanos = 0 := by
  have seconds : d.seconds = 0 ↔ d.seconds.toNat = 0 := UInt64.toNat_inj.symm
  simp only [isZero, totalNanos, nanosPerSecond, Bool.and_eq_true, decide_eq_true_eq, seconds]
  omega

theorem ceilDiv_totalNanos (d : Duration) :
    d.totalNanos ⌈/⌉ nanosPerSecond = d.seconds.toNat + if 0 < d.nanos then 1 else 0 := by
  have small := d.nanos_lt
  rw [Nat.ceilDiv_eq_add_pred_div]
  simp only [totalNanos, nanosPerSecond] at small ⊢
  split <;> omega

/-- The seconds are counted up to the whole time, if that fits. -/
theorem wholeSeconds_of_lt {d : Duration} (fits : d.totalNanos ⌈/⌉ nanosPerSecond < UInt64.size) :
    ∃ seconds, d.wholeSeconds = .ok seconds ∧
      seconds.toNat = d.totalNanos ⌈/⌉ nanosPerSecond := by
  rw [ceilDiv_totalNanos] at fits ⊢
  unfold wholeSeconds
  by_cases broken : 0 < d.nanos
  · simp only [if_pos broken] at fits ⊢
    refine ⟨d.seconds + 1, if_pos fits, ?_⟩
    rw [UInt64.toNat_add]
    exact Nat.mod_eq_of_lt fits
  · simp only [if_neg broken] at fits ⊢
    refine ⟨d.seconds + 0, if_pos fits, ?_⟩
    rw [UInt64.toNat_add]
    exact Nat.mod_eq_of_lt fits

/-- If it does not fit, there is nothing to count from. -/
theorem wholeSeconds_of_le {d : Duration}
    (long : UInt64.size ≤ d.totalNanos ⌈/⌉ nanosPerSecond) : d.wholeSeconds = .error ⟨⟩ := by
  rw [ceilDiv_totalNanos] at long
  have bound := d.seconds.toNat_lt_size
  unfold wholeSeconds
  by_cases broken : 0 < d.nanos
  · rw [if_pos broken] at long
    simp only [if_pos broken]
    exact if_neg (Nat.not_lt_of_le long)
  · rw [if_neg broken] at long
    omega

/-- The seconds that are counted are those that the timeout allows, if these can be counted at
    all. -/
theorem span_budget (fits : ∀ n : ℕ, limit timeout = n → n < UInt64.size) :
    ∃ b, budget timeout = .ok b ∧ span (b.map UInt64.toNat) = limit timeout := by
  cases timeout with
  | none => exact ⟨none, rfl, rfl⟩
  | some d =>
      rw [budget, limit] at *
      by_cases zero : d.totalNanos = 0
      · rw [if_pos ((isZero_iff d).mpr zero), if_pos zero]
        exact ⟨none, rfl, rfl⟩
      · rw [if_neg zero] at fits ⊢
        rw [if_neg (mt (isZero_iff d).mp zero)]
        obtain ⟨seconds, sum, count⟩ := wholeSeconds_of_lt (fits _ rfl)
        refine ⟨some seconds, ?_, ?_⟩
        · rw [sum]
          rfl
        · rw [← count]
          rfl

/-- If any time is allowed, there is no budget. -/
theorem budget_of_limit (timeless : limit timeout = ⊤) : budget timeout = .ok none := by
  have fits : ∀ n : ℕ, limit timeout = n → n < UInt64.size := by
    intro n seconds
    exact absurd (timeless.symm.trans seconds) (ENat.top_ne_natCast n)
  obtain ⟨b, sum, count⟩ := span_budget fits
  cases b with
  | none => exact sum
  | some b => exact absurd (count.trans timeless) (ENat.natCast_ne_top b.toNat)

/-- A budget is never empty. -/
theorem budget_pos {b : UInt64} (sum : budget timeout = .ok (some b)) : 0 < b.toNat := by
  cases timeout with
  | none => cases sum
  | some d =>
      rw [budget] at sum
      split at sum
      · cases sum
      · next time =>
        by_cases fits : d.totalNanos ⌈/⌉ nanosPerSecond < UInt64.size
        · obtain ⟨seconds, whole, count⟩ := wholeSeconds_of_lt fits
          rw [whole] at sum
          cases sum
          rw [count]
          exact ceilDiv_pos (mt (isZero_iff d).mpr time)
        · rw [wholeSeconds_of_le (Nat.le_of_not_lt fits)] at sum
          cases sum

/-- There is no budget only if any time is allowed. -/
theorem limit_of_budget (sum : budget timeout = .ok none) : limit timeout = ⊤ := by
  cases timeout with
  | none => rfl
  | some d =>
      rw [budget] at sum
      split at sum
      · next zero => rw [limit, if_pos ((isZero_iff d).mp zero)]
      · cases whole : d.wholeSeconds with
        | error overflow =>
            rw [whole] at sum
            cases sum
        | ok seconds =>
            rw [whole] at sum
            cases sum

end Duration

namespace Watch

variable {lifetime : Option Nat} {ending : Ending} {budget : Option UInt64} {n k t seconds : Nat}

/-- The parent waits, and has counted some of the seconds that it allows. -/
def counted (allowed seconds : Nat) : Watch where
  watcher := .waiting
  remaining := some (allowed - seconds)
  alarm := true
  child := none
  unreaped := true
  ticks := seconds

/-- The parent has killed the program. -/
def expired (allowed : Nat) : Watch where
  watcher := .finished .timedOut
  remaining := some 0
  alarm := false
  child := some (.killed killSignal)
  unreaped := false
  ticks := allowed

@[simp] theorem ticks_counted : (counted n t).ticks = t := rfl

@[simp] theorem watcher_counted : (counted n t).watcher = .waiting := rfl

/-- A second goes by, and it is not the last. -/
theorem second_counted (more : t + 1 < n) :
    settle movesPerSecond (counted n t).expire = counted n (t + 1) := by
  obtain ⟨left, now⟩ : ∃ left, n - t = left + 1 + 1 := ⟨n - t - 2, by omega⟩
  have later : n - (t + 1) = left + 1 := by omega
  simp [counted, expire, movesPerSecond, settle, move, now, later]

/-- The last second goes by. -/
theorem last_second (last : t + 1 = n) :
    settle movesPerSecond (counted n t).expire = expired n := by
  have now : n - t = 0 + 1 := by omega
  simp [counted, expired, expire, movesPerSecond, settle, move, now, last]

/-- The seconds up to the end of a program that ends in time. -/
theorem passFrom_of_lt (begun : t ≤ k) (inTime : k < n) (enough : n ≤ t + seconds) :
    passFrom (some k) ending seconds (counted n t) = (counted n k).childEnds ending := by
  induction seconds generalizing t with
  | zero => omega
  | succ seconds ih =>
      rw [passFrom, ticks_counted]
      by_cases ends : k = t
      · rw [ends, if_pos rfl]
      · have running : ¬ some k = some t := mt Option.some.inj ends
        rw [if_neg running, second_counted (by omega)]
        simp only [watcher_counted, if_true]
        exact ih (by omega) (by omega)

/-- The seconds of a program that does not end in time. -/
theorem passFrom_of_le (begun : t < n) (late : (n : ℕ∞) ≤ span lifetime)
    (enough : n ≤ t + seconds) :
    passFrom lifetime ending seconds (counted n t) = expired n := by
  induction seconds generalizing t with
  | zero => omega
  | succ seconds ih =>
      have running : ¬ lifetime = some t := by
        rintro rfl
        exact absurd (Nat.cast_le.mp late) (Nat.not_le_of_gt begun)
      rw [passFrom, ticks_counted, if_neg running]
      by_cases last : t + 1 = n
      · have killed : ¬ (expired n).watcher = .waiting := by simp [expired]
        rw [last_second last]
        simp only [if_neg killed]
      · rw [second_counted (by omega)]
        simp only [watcher_counted, if_true]
        exact ih (by omega) (by omega)

/-- A program that ends in time is seen to end. With a timeout every second until then is
    counted. -/
theorem run_of_lt (inTime : span lifetime < span (budget.map UInt64.toNat)) :
    (run budget lifetime ending).watcher = .finished (.ended ending) ∧
      (run budget lifetime ending).unreaped = false ∧
      (budget ≠ none → ((run budget lifetime ending).ticks : ℕ∞) = span lifetime) := by
  cases lifetime with
  | none => exact absurd inTime not_top_lt
  | some k =>
      cases budget with
      | none => exact ⟨rfl, rfl, fun given => absurd rfl given⟩
      | some b =>
          have course : run (some b) (some k) ending = (counted b.toNat k).childEnds ending :=
            passFrom_of_lt (Nat.zero_le k) (Nat.cast_lt.mp inTime) (Nat.le_of_lt (by simp))
          rw [course]
          exact ⟨rfl, rfl, fun _ => rfl⟩

/-- A program that does not end in time is killed. -/
theorem run_of_le {b : UInt64} (time : 0 < b.toNat) (late : (b.toNat : ℕ∞) ≤ span lifetime) :
    run (some b) lifetime ending = expired b.toNat :=
  passFrom_of_le time late (Nat.le_of_lt (by simp))

/-- With a budget the parent's wait comes to an end. -/
theorem finished_run {b : UInt64} (time : 0 < b.toNat) (lifetime : Option Nat) (ending : Ending) :
    ∃ verdict, (run (some b) lifetime ending).watcher = .finished verdict := by
  by_cases inTime : span lifetime < b.toNat
  · have inBudget : span lifetime < span ((some b).map UInt64.toNat) := inTime
    exact ⟨_, (run_of_lt inBudget).1⟩
  · rw [run_of_le time (not_lt.mp inTime)]
    exact ⟨.timedOut, rfl⟩

/-- Without a timeout no second is counted, however long the program runs. -/
theorem ticks_run_none (lifetime : Option Nat) (ending : Ending) :
    (run none lifetime ending).ticks = 0 := by
  cases lifetime with
  | none => rfl
  | some seconds => rfl

end Watch

end Postmortem

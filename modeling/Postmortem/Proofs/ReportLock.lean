import Postmortem.ReportLock

/-! # Who holds the report lock

Threads try for the lock in any order, again and again, also while they have it, and let go of it at
any time. Whatever they do, the lock is free or one of them holds it, and then its word is the
number of that thread. An answer to an attempt depends on nothing else.
-/

namespace Postmortem.ReportLock

/-- An attempt that is to be made again has left the word alone. -/
theorem weakAttempt_of_retry {lock lock' : ReportLock} {me : ThreadId} {spurious : Bool}
    (h : lock.weakAttempt me spurious = (.retry, lock')) : lock' = lock := by
  cases spurious with
  | true => exact (Prod.mk.inj h).2.symm
  | false =>
      change lock.attempt me = _ at h
      unfold attempt at h
      split at h
      · cases h
      · split at h
        · cases h
        · exact (Prod.mk.inj h).2.symm

/-- A lock, and the guards there are: the threads that got them and have not dropped them yet. -/
structure Contest where
  lock : ReportLock
  guards : List ThreadId
  deriving Repr, DecidableEq

/-- What a thread can do at the lock. -/
inductive Move where
  | attempt (t : ThreadId) (spurious : Bool)
  | yield (t : ThreadId)
  | drop (t : ThreadId)
  deriving Repr, DecidableEq

/-- Who makes a move. -/
def Move.thread : Move → ThreadId
  | attempt t _ => t
  | yield t => t
  | drop t => t

/-- A move with which nobody can get the lock. -/
def Move.Idle (m : Move) : Prop := ∀ t, m ≠ .attempt t false

namespace Contest

/-- Nobody has been there yet. -/
def start : Contest := ⟨.free, []⟩

/-- The answer to an attempt, and the state after it: an attempt that succeeds makes a guard. -/
def tried (s : Contest) (t : ThreadId) (spurious : Bool) : Attempt × Contest :=
  let (answer, lock) := s.lock.weakAttempt t spurious
  (answer, ⟨lock, if answer = .acquired then t :: s.guards else s.guards⟩)

/-- The state after a thread has dropped a guard. -/
def dropped (s : Contest) (t : ThreadId) : Contest := ⟨s.lock.release, s.guards.erase t⟩

/-- One move. Any thread may try at any time, and a thread that has a guard may drop it. -/
inductive Step : Contest → Move → Contest → Prop where
  | attempt (s : Contest) (t : ThreadId) (spurious : Bool) :
      Step s (.attempt t spurious) (s.tried t spurious).2
  | yield (s : Contest) (t : ThreadId) : Step s (.yield t) s
  | drop (s : Contest) (t : ThreadId) (holds : t ∈ s.guards) : Step s (.drop t) (s.dropped t)

/-- Some moves, by any threads in any order. -/
inductive Run : Contest → List Move → Contest → Prop where
  | none (s : Contest) : Run s [] s
  | move {s s' s'' : Contest} {m : Move} {moves : List Move} (step : Step s m s')
      (rest : Run s' moves s'') : Run s (m :: moves) s''

/-- A thread asks for the lock and is given an answer in the end: it tries again as long as it is
    turned away, and other threads make their moves meanwhile. -/
inductive Asks (t : ThreadId) : Contest → Attempt → Contest → Prop where
  | answered (s : Contest) (spurious : Bool) (final : (s.tried t spurious).1 ≠ .retry) :
      Asks t s (s.tried t spurious).1 (s.tried t spurious).2
  | turnedAway {s s' : Contest} {answer : Attempt} (spurious : Bool)
      (away : (s.tried t spurious).1 = .retry) (rest : Asks t (s.tried t spurious).2 answer s') :
      Asks t s answer s'
  | meanwhile {s s' s'' : Contest} {m : Move} {answer : Attempt} (other : m.thread ≠ t)
      (step : Step s m s') (rest : Asks t s' answer s'') : Asks t s answer s''

/-- The states there are: nobody has the lock, or one thread has it. -/
inductive Sole : Contest → Prop where
  | free : Sole start
  | held (t : ThreadId) : Sole ⟨⟨t.number⟩, [t]⟩

variable {s s' s'' : Contest} {t u : ThreadId} {m : Move} {moves : List Move} {answer : Attempt}

/-! ## Attempts -/

theorem tried_of {spurious : Bool} {lock : ReportLock}
    (h : s.lock.weakAttempt t spurious = (answer, lock)) :
    s.tried t spurious = (answer, ⟨lock, if answer = .acquired then t :: s.guards else s.guards⟩) := by
  simp only [tried, h]

theorem tried_start (t : ThreadId) : start.tried t false = (.acquired, ⟨⟨t.number⟩, [t]⟩) := rfl

/-- An attempt that fails for no reason finds the word 0, which is nobody's. -/
theorem tried_start_spurious (t : ThreadId) : start.tried t true = (.retry, start) := by
  have other : free.owner ≠ t.number := Nat.ne_of_lt t.pos
  have away : start.lock.weakAttempt t true = (.retry, free) := by
    show (if free.owner = t.number then Attempt.refused else .retry, free) = _
    rw [if_neg other]
  exact tried_of away

/-- A thread that is turned away leaves everything as it is. -/
theorem tried_of_away {spurious : Bool} (away : (s.tried t spurious).1 = .retry) :
    (s.tried t spurious).2 = s := by
  cases h : s.lock.weakAttempt t spurious with
  | mk answer lock =>
      rw [tried_of h] at away ⊢
      cases (away : answer = .retry)
      rw [weakAttempt_of_retry h]
      rfl

/-- A thread that has the lock is refused. -/
theorem tried_own (t : ThreadId) (spurious : Bool) :
    tried ⟨⟨t.number⟩, [t]⟩ t spurious = (.refused, ⟨⟨t.number⟩, [t]⟩) := by
  have taken : t.number ≠ 0 := Nat.ne_of_gt t.pos
  cases spurious with
  | false => simp only [tried, weakAttempt, attempt, if_neg taken]; rfl
  | true => simp only [tried, weakAttempt, if_pos]; rfl

/-- A thread is turned away while another one has the lock. -/
theorem tried_other (ne : u ≠ t) (spurious : Bool) :
    tried ⟨⟨t.number⟩, [t]⟩ u spurious = (.retry, ⟨⟨t.number⟩, [t]⟩) := by
  have taken : t.number ≠ 0 := Nat.ne_of_gt t.pos
  have other : t.number ≠ u.number := fun same => ne (ThreadId.number_injective same.symm)
  cases spurious with
  | false => simp only [tried, weakAttempt, attempt, if_neg taken, if_neg other]; rfl
  | true => simp only [tried, weakAttempt, if_neg other]; rfl

/-! ## Every state there is -/

/-- One move keeps the lock free or in the hands of one thread. -/
theorem Sole.step (sole : Sole s) (step : Step s m s') : Sole s' := by
  cases step with
  | yield t => exact sole
  | attempt t spurious =>
      cases sole with
      | free =>
          cases spurious with
          | false => exact .held t
          | true => rw [tried_start_spurious]; exact .free
      | held u =>
          by_cases own : t = u
          · rw [own, tried_own]; exact .held u
          · rw [tried_other own]; exact .held u
  | drop t holds =>
      cases sole with
      | free => cases holds
      | held u =>
          have own : t = u := List.mem_singleton.mp holds
          have gone : [u].erase t = [] := by rw [own, List.erase_cons_head]
          simp only [dropped, gone]
          exact .free

/-- So does any number of moves. -/
theorem Sole.run (sole : Sole s) (run : Run s moves s') : Sole s' := by
  induction run with
  | none _ => exact sole
  | move step _ ih => exact ih (sole.step step)

theorem Sole.owner_iff (sole : Sole s) : t ∈ s.guards ↔ s.lock.owner = t.number := by
  cases sole with
  | free => exact iff_of_false List.not_mem_nil (Nat.ne_of_lt t.pos)
  | held u =>
      rw [List.mem_singleton]
      exact ⟨fun own => by rw [own], fun same => (ThreadId.number_injective same).symm⟩

theorem Sole.refused_iff (sole : Sole s) (spurious : Bool) :
    (s.tried t spurious).1 = .refused ↔ t ∈ s.guards := by
  cases sole with
  | free =>
      refine iff_of_false ?_ List.not_mem_nil
      cases spurious with
      | false => rw [tried_start]; nofun
      | true => rw [tried_start_spurious]; nofun
  | held u =>
      by_cases own : t = u
      · simp [own, tried_own]
      · simp [own, tried_other own]

/-! ## While one thread has the lock, and while nobody has it -/

/-- What other threads do changes nothing while a thread has the lock. -/
theorem Step.of_held (step : Step ⟨⟨t.number⟩, [t]⟩ m s') (other : m.thread ≠ t) :
    s' = ⟨⟨t.number⟩, [t]⟩ := by
  cases step with
  | attempt u spurious => exact congrArg Prod.snd (tried_other other spurious)
  | yield u => rfl
  | drop u holds => exact absurd (List.mem_singleton.mp holds) other

/-- Other threads neither give the lock to a thread nor take it away. -/
theorem Sole.mem_iff_of_other (sole : Sole s) (step : Step s m s') (other : m.thread ≠ t) :
    t ∈ s'.guards ↔ t ∈ s.guards := by
  cases step with
  | yield u => rfl
  | attempt u spurious =>
      have ne : t ≠ u := Ne.symm other
      cases sole with
      | free =>
          cases spurious with
          | false =>
              rw [tried_start]
              exact iff_of_false (fun mine => ne (List.mem_singleton.mp mine)) List.not_mem_nil
          | true => rw [tried_start_spurious]
      | held v =>
          by_cases own : u = v
          · rw [own, tried_own]
          · rw [tried_other own]
  | drop u holds => exact List.mem_erase_of_ne (Ne.symm other)

/-- A thread that has the lock is the only one to be refused it, however long it takes. -/
theorem Asks.refused_iff (asks : Asks t s answer s') (sole : Sole s) :
    answer = .refused ↔ t ∈ s.guards := by
  induction asks with
  | answered s spurious _ => exact sole.refused_iff spurious
  | turnedAway spurious away _ ih =>
      rw [tried_of_away away] at ih
      exact ih sole
  | meanwhile other step _ ih => exact (ih (sole.step step)).trans (sole.mem_iff_of_other step other)

/-- The answer is not to try again. -/
theorem Asks.final (asks : Asks t s answer s') : answer ≠ .retry := by
  induction asks with
  | answered s spurious final => exact final
  | turnedAway _ _ _ ih => exact ih
  | meanwhile _ _ _ ih => exact ih

/-- Asking for a lock that one has leaves everything as it is. -/
theorem Asks.of_held (asks : Asks t ⟨⟨t.number⟩, [t]⟩ answer s') : s' = ⟨⟨t.number⟩, [t]⟩ := by
  generalize held : (⟨⟨t.number⟩, [t]⟩ : Contest) = s at asks
  induction asks with
  | answered s spurious _ => rw [← held, tried_own]
  | turnedAway spurious away _ _ =>
      rw [← held, tried_own] at away
      cases away
  | meanwhile other step _ ih =>
      subst held
      obtain rfl := step.of_held other
      exact ih rfl

theorem Step.of_idle (step : Step start m s') (idle : m.Idle) : s' = start := by
  cases step with
  | attempt t spurious =>
      cases spurious with
      | false => exact absurd rfl (idle t)
      | true => rw [tried_start_spurious]
  | yield t => rfl
  | drop t holds => cases holds

/-- Nobody has the lock as long as nobody makes an attempt that can succeed. -/
theorem Run.of_idle (run : Run start moves s) (idle : ∀ m ∈ moves, m.Idle) : s = start := by
  generalize nobody : start = first at run ⊢
  induction run with
  | none _ => rfl
  | move step rest ih =>
      subst nobody
      have unmoved := step.of_idle (idle _ List.mem_cons_self)
      rw [ih (fun m later => idle m (List.mem_cons_of_mem _ later)) unmoved.symm, unmoved]

/-! ## Mutual exclusion -/

/-- What a lock is for. -/
structure Exclusive (s : Contest) : Prop where
  /-- There is one guard at most. -/
  guards_le : s.guards.length ≤ 1
  /-- The word is the number of the thread that has a guard, -/
  owner_iff : ∀ t, t ∈ s.guards ↔ s.lock.owner = t.number
  /-- and 0 if there is none. -/
  free_iff : s.guards = [] ↔ s.lock.owner = 0
  /-- One attempt is enough to refuse a thread that has a guard, and no attempt refuses another. -/
  tried_iff : ∀ t spurious, (s.tried t spurious).1 = .refused ↔ t ∈ s.guards
  /-- A thread that asks for the lock is refused it if it has a guard, -/
  refused_iff : ∀ t answer s', Asks t s answer s' → (answer = .refused ↔ t ∈ s.guards)
  /-- and is given it otherwise, if it is given an answer. -/
  acquired_iff : ∀ t answer s', Asks t s answer s' → (answer = .acquired ↔ t ∉ s.guards)
  /-- A refusal leaves the guard and the word as they are. -/
  unchanged : ∀ t s', Asks t s .refused s' → s' = s
  /-- Once the guard has been dropped, the next attempt that can succeed does, whoever makes it. -/
  next : ∀ t ∈ s.guards, ∀ idle s', Run (s.dropped t) idle s' → (∀ m ∈ idle, m.Idle) →
    ∀ u, s'.tried u false = (.acquired, ⟨⟨u.number⟩, [u]⟩)

/-- The lock excludes all threads but one, in every state that threads can bring about by attempts,
    which may fail for no reason, by yielding and by dropping guards. -/
theorem exclusive_of_run (run : Run start moves s) : s.Exclusive := by
  have sole : Sole s := Sole.free.run run
  have given : ∀ t answer s', Asks t s answer s' → (answer = .acquired ↔ t ∉ s.guards) := by
    intro t answer s' asks
    rw [← asks.refused_iff sole]
    have final := asks.final
    cases answer with
    | acquired => exact iff_of_true rfl nofun
    | refused => exact iff_of_false nofun (fun h => h rfl)
    | retry => exact absurd rfl final
  refine ⟨?_, fun t => sole.owner_iff, ?_, fun t spurious => sole.refused_iff spurious,
    fun t answer s' asks => asks.refused_iff sole, given, ?_, ?_⟩
  case refine_1 =>
    cases sole with
    | free => exact Nat.zero_le 1
    | held t => exact Nat.le_refl 1
  case refine_2 =>
    cases sole with
    | free => exact iff_of_true rfl rfl
    | held t => exact iff_of_false nofun (Nat.ne_of_gt t.pos)
  case refine_3 =>
    intro t s' asks
    have own : t ∈ s.guards := (asks.refused_iff sole).mp rfl
    cases sole with
    | free => cases own
    | held u =>
        obtain rfl : t = u := List.mem_singleton.mp own
        exact asks.of_held
  case refine_4 =>
    intro t own moves s' rest idle u
    have free : s.dropped t = start := by
      cases sole with
      | free => cases own
      | held v =>
          obtain rfl : t = v := List.mem_singleton.mp own
          show Contest.mk _ ([t].erase t) = start
          rw [List.erase_cons_head]
          rfl
    rw [free] at rest
    rw [rest.of_idle idle]
    exact tried_start u

/-- One thread gets the lock after an attempt that failed for no reason, another one is turned away,
    the first one asks again and drops its guard, and then the other one gets the lock. -/
theorem exclusive_in_turns :
    Run start
      [.attempt ⟨1, Nat.one_pos⟩ true, .attempt ⟨1, Nat.one_pos⟩ false,
        .attempt ⟨2, Nat.two_pos⟩ false, .yield ⟨2, Nat.two_pos⟩, .attempt ⟨1, Nat.one_pos⟩ false,
        .drop ⟨1, Nat.one_pos⟩, .attempt ⟨2, Nat.two_pos⟩ true, .attempt ⟨2, Nat.two_pos⟩ false]
      ⟨⟨2⟩, [⟨2, Nat.two_pos⟩]⟩ ∧
    Exclusive ⟨⟨2⟩, [⟨2, Nat.two_pos⟩]⟩ :=
  have run : Run start _ ⟨⟨2⟩, [⟨2, Nat.two_pos⟩]⟩ :=
    .move (.attempt start ⟨1, Nat.one_pos⟩ true) (.move (.attempt _ ⟨1, Nat.one_pos⟩ false)
      (.move (.attempt _ ⟨2, Nat.two_pos⟩ false) (.move (.yield _ ⟨2, Nat.two_pos⟩)
        (.move (.attempt _ ⟨1, Nat.one_pos⟩ false)
          (.move (.drop _ ⟨1, Nat.one_pos⟩ List.mem_cons_self)
            (.move (.attempt _ ⟨2, Nat.two_pos⟩ true) (.move (.attempt _ ⟨2, Nat.two_pos⟩ false)
              (.none _))))))))
  ⟨run, exclusive_of_run run⟩

end Contest

end Postmortem.ReportLock

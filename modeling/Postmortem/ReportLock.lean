/-! # One report at a time

The lock is one word, which holds the thread that is reporting, or 0. A thread takes it by replacing
0 by itself in one step, so that taking the lock and saying who has it are the same thing. Waiting
is trying again; a thread that asks for the lock while it holds it is refused, for it would wait for
itself.
-/

namespace Postmortem

/-- A thread, by a number other than 0. -/
structure ThreadId where
  number : Nat
  pos : 0 < number
  deriving Repr, DecidableEq

/-- Threads are told apart by their numbers. -/
theorem ThreadId.number_injective {me you : ThreadId} (h : me.number = you.number) : me = you := by
  cases me
  cases you
  cases h
  rfl

/-- The lock word. -/
structure ReportLock where
  owner : Nat
  deriving Repr, DecidableEq

/-- How an attempt to take the lock ends. -/
inductive Attempt where
  | acquired
  | refused
  | retry
  deriving Repr, DecidableEq

namespace ReportLock

/-- The lock that nobody holds. -/
def free : ReportLock := ⟨0⟩

/-- One attempt by a thread. -/
def attempt (lock : ReportLock) (me : ThreadId) : Attempt × ReportLock :=
  if lock.owner = 0 then (.acquired, ⟨me.number⟩)
  else if lock.owner = me.number then (.refused, lock)
  else (.retry, lock)

/-- One attempt with an exchange that may fail for no reason. The thread then goes by the word that
    it finds there all the same: it waits, unless the word is its own. -/
def weakAttempt (lock : ReportLock) (me : ThreadId) (spurious : Bool) : Attempt × ReportLock :=
  if spurious then (if lock.owner = me.number then .refused else .retry, lock)
  else lock.attempt me

/-- The holder lets go. -/
def release (_ : ReportLock) : ReportLock := free

end ReportLock

/-- A value that threads take turns at. While it is `held` somebody is changing it; `poisoned` says
    that somebody failed while doing so. -/
structure Guarded (α : Type) where
  value : α
  held : Bool
  poisoned : Bool

/-- A lock on a value was found poisoned. -/
structure Poisoned where
  deriving Repr, DecidableEq

/-- The wording of the failure. -/
def Poisoned.message : String :=
  "called `Result::unwrap()` on an `Err` value: PoisonError \x7b .. \x7d"

namespace Guarded

variable {α : Type}

/-- A value that nobody holds. -/
def new (value : α) : Guarded α := ⟨value, false, false⟩

/-- The value, unless somebody is changing it. A crash must not wait, and takes what is there. -/
def tryRead (g : Guarded α) : Option α := if g.held then none else some g.value

/-- The value for ordinary use, which a poisoned lock forbids. -/
def lock (g : Guarded α) : Except Poisoned α :=
  if g.poisoned then .error ⟨⟩ else .ok g.value

/-- Somebody takes the lock, which is refused while somebody has it. -/
def hold (g : Guarded α) : Bool × Guarded α :=
  if g.held then (false, g) else (true, { g with held := true })

/-- Whoever has the lock lets go of it, if somebody does. -/
def release (g : Guarded α) : Bool × Guarded α :=
  if g.held then (true, { g with held := false }) else (false, g)

/-- Somebody fails while holding the lock, provided it can be had at all. -/
def poison (g : Guarded α) : Guarded α := if g.held then g else { g with poisoned := true }

/-- The value replaced, who holds the lock being left as it is. -/
def put (g : Guarded α) (value : α) : Guarded α := { g with value := value }

end Guarded

end Postmortem

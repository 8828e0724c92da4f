/-! # Computations in steps

A report is a long sequence of effects on a state that other threads work on too. Such a computation
is a tree: it is done, or it makes one step and goes on in a way that depends on what the step saw.
Running it alone makes all its steps one after another; between any two of them other threads may
make theirs, which is why the steps are kept apart.
-/

namespace Postmortem

/-- A computation on states `σ` that ends with an `α`. A step replaces the state by `effect`, and
    what comes `next` depends on the state that the step found. -/
inductive Steps (σ α : Type) where
  | done (result : α)
  | step (effect : σ → σ) (next : σ → Steps σ α)

namespace Steps

variable {σ τ α β : Type}

/-- One computation after another. -/
def bind : Steps σ α → (α → Steps σ β) → Steps σ β
  | .done result, f => f result
  | .step effect next, f => .step effect fun s => (next s).bind f

instance : Monad (Steps σ) where
  pure := .done
  bind := bind

/-- One computation after another, if the first one comes to its end. -/
def andThen {ε : Type} (c : Steps σ (Except ε α)) (f : α → Steps σ (Except ε β)) :
    Steps σ (Except ε β) :=
  c >>= fun
    | .ok result => f result
    | .error e => pure (.error e)

/-- A computation that makes the single step `f`. -/
def act (f : σ → α × σ) : Steps σ α :=
  .step (fun s => (f s).2) fun s => .done (f s).1

/-- A step that only looks. -/
def look (f : σ → α) : Steps σ α := act fun s => (f s, s)

/-- A step that only changes the state. -/
def change (f : σ → σ) : Steps σ Unit := act fun s => ((), f s)

/-- Makes all steps without a break. -/
def run : Steps σ α → σ → α × σ
  | .done result, s => (result, s)
  | .step effect next, s => (next s).run (effect s)

/-- A computation on a part of the state. -/
def within (part : τ → σ) (replace : τ → σ → τ) : Steps σ α → Steps τ α
  | .done result => .done result
  | .step effect next =>
    .step (fun t => replace t (effect (part t))) fun t => (next (part t)).within part replace

@[simp] theorem run_pure (a : α) (s : σ) : (pure a : Steps σ α).run s = (a, s) := rfl

@[simp] theorem run_done (a : α) (s : σ) : (done a : Steps σ α).run s = (a, s) := rfl

@[simp] theorem run_act (f : σ → α × σ) (s : σ) : (act f).run s = f s := rfl

@[simp] theorem run_look (f : σ → α) (s : σ) : (look f).run s = (f s, s) := rfl

@[simp] theorem run_change (f : σ → σ) (s : σ) : (change f).run s = ((), f s) := rfl

/-- Running one computation after another hands the state on. -/
@[simp] theorem run_bind (c : Steps σ α) (f : α → Steps σ β) (s : σ) :
    (c >>= f).run s = (f (c.run s).1).run (c.run s).2 := by
  show (c.bind f).run s = _
  induction c generalizing s with
  | done result => rfl
  | step effect next ih => exact ih s (effect s)

@[simp] theorem run_andThen {ε : Type} (c : Steps σ (Except ε α))
    (f : α → Steps σ (Except ε β)) (s : σ) :
    (c.andThen f).run s =
      match (c.run s).1 with
      | .ok result => (f result).run (c.run s).2
      | .error e => (.error e, (c.run s).2) := by
  rw [andThen, run_bind]
  split
  · rfl
  · rfl

end Steps

end Postmortem

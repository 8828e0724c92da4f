import Mathlib
import Postmortem.Steps

/-! # Steps one by one

What every single step of a computation does, and what comes of computations whose steps are mixed
in any order.
-/

namespace Postmortem

namespace Steps

variable {σ τ α β : Type} {R : σ → σ → Prop}

/-- Every step leads from a state to one that is in this relation to it, wherever it is made. -/
def Always (R : σ → σ → Prop) : Steps σ α → Prop
  | .done _ => True
  | .step effect next => ∀ s, R s (effect s) ∧ (next s).Always R

theorem Always.imp {S : σ → σ → Prop} {c : Steps σ α} (h : c.Always R) (all : ∀ s t, R s t → S s t) :
    c.Always S := by
  induction c with
  | done a => trivial
  | step effect next ih =>
      intro s
      exact ⟨all s _ (h s).1, ih s (h s).2⟩

theorem always_act {f : σ → α × σ} (h : ∀ s, R s (f s).2) : (act f).Always R :=
  fun s => ⟨h s, trivial⟩

theorem always_look (refl : ∀ s, R s s) (f : σ → α) : (look f).Always R :=
  always_act refl

theorem always_change {f : σ → σ} (h : ∀ s, R s (f s)) : (change f).Always R :=
  always_act h

theorem always_bind {c : Steps σ α} {f : α → Steps σ β} (hc : c.Always R)
    (hf : ∀ a, (f a).Always R) : (c >>= f).Always R := by
  show (c.bind f).Always R
  induction c with
  | done a => exact hf a
  | step effect next ih =>
      intro s
      exact ⟨(hc s).1, ih s (hc s).2⟩

theorem always_andThen {ε : Type} {c : Steps σ (Except ε α)} {f : α → Steps σ (Except ε β)}
    (hc : c.Always R) (hf : ∀ a, (f a).Always R) : (c.andThen f).Always R := by
  apply always_bind hc
  intro result
  cases result with
  | ok a => exact hf a
  | error e => trivial

theorem always_within {S : τ → τ → Prop} {part : τ → σ} {replace : τ → σ → τ} {c : Steps σ α}
    (h : c.Always R) (lift : ∀ t s, R (part t) s → S t (replace t s)) :
    (c.within part replace).Always S := by
  induction c with
  | done a => trivial
  | step effect next ih =>
      intro t
      exact ⟨lift t _ (h (part t)).1, ih (part t) (h (part t)).2⟩

/-- A whole run does what its steps do. -/
theorem Always.run (refl : ∀ s, R s s) (trans : ∀ s t u, R s t → R t u → R s u) {c : Steps σ α}
    (h : c.Always R) (s : σ) : R s (c.run s).2 := by
  induction c generalizing s with
  | done a => exact refl s
  | step effect next ih => exact trans _ _ _ (h s).1 (ih s (h s).2 (effect s))

theorem bind_assoc {γ : Type} (c : Steps σ α) (f : α → Steps σ β) (g : β → Steps σ γ) :
    (c >>= f) >>= g = c >>= fun a => f a >>= g := by
  show (c.bind f).bind g = c.bind fun a => (f a).bind g
  induction c with
  | done a => rfl
  | step effect next ih => simp only [bind, ih]

theorem run_andThen_of_ok {ε : Type} {c : Steps σ (Except ε α)} {s : σ} {a : α}
    (ends : (c.run s).1 = .ok a) (f : α → Steps σ (Except ε β)) :
    (c.andThen f).run s = (f a).run (c.run s).2 := by
  rw [run_andThen]
  simp only [ends]

/-- What is made of the result afterwards does not touch the state. -/
theorem run_andThen_pure {ε : Type} (c : Steps σ (Except ε α)) (f : α → β) (s : σ) :
    (c.andThen fun a => pure (.ok (f a))).run s = ((c.run s).1.map f, (c.run s).2) := by
  rw [run_andThen]
  split
  · next ok =>
    rw [ok]
    rfl
  · next failed =>
    rw [failed]
    rfl

theorem run_within {part : τ → σ} {replace : τ → σ → τ} (get : ∀ t s, part (replace t s) = s)
    (put : ∀ t s s', replace (replace t s) s' = replace t s') (same : ∀ t, replace t (part t) = t)
    (c : Steps σ α) (t : τ) :
    (c.within part replace).run t = ((c.run (part t)).1, replace t (c.run (part t)).2) := by
  induction c generalizing t with
  | done a => simp only [within, Steps.run, same]
  | step effect next ih => simp only [within, Steps.run, ih, get, put]

/-- The states that a run goes through, from the first to the last. -/
def states : Steps σ α → σ → List σ
  | .done _, s => [s]
  | .step effect next, s => s :: (next s).states (effect s)

theorem mem_states_start (c : Steps σ α) (s : σ) : s ∈ c.states s := by
  cases c with
  | done a => exact List.mem_singleton_self s
  | step effect next => exact List.mem_cons_self

/-- The states of a computation are among those of all of it. -/
theorem mem_states_bind_left {c : Steps σ α} {s t : σ} (f : α → Steps σ β) (h : t ∈ c.states s) :
    t ∈ (c >>= f).states s := by
  show t ∈ (c.bind f).states s
  induction c generalizing s with
  | done a =>
      obtain rfl := List.mem_singleton.mp h
      exact mem_states_start (f a) t
  | step effect next ih =>
      obtain rfl | later := List.mem_cons.mp h
      · exact List.mem_cons_self
      · exact List.mem_cons_of_mem s (ih s later)

/-- And so are those of what comes after it. -/
theorem mem_states_bind_right {c : Steps σ α} {s t : σ} {f : α → Steps σ β}
    (h : t ∈ (f (c.run s).1).states (c.run s).2) : t ∈ (c >>= f).states s := by
  show t ∈ (c.bind f).states s
  induction c generalizing s with
  | done a => exact h
  | step effect next ih => exact List.mem_cons_of_mem s (ih s h)

theorem mem_states_andThen_right {ε : Type} {c : Steps σ (Except ε α)} {s t : σ}
    {f : α → Steps σ (Except ε β)} {a : α} (ends : (c.run s).1 = .ok a)
    (h : t ∈ (f a).states (c.run s).2) : t ∈ (c.andThen f).states s := by
  apply mem_states_bind_right
  rw [ends]
  exact h

/-- One computation after another, each to its end. -/
def inTurn : List (Steps σ α) → Steps σ (List α)
  | [] => pure []
  | c :: rest => do
    let a ← c
    let more ← inTurn rest
    return a :: more

/-- One computation after another, each to its end, until one stops. -/
def inOrder {ε : Type} : List (Steps σ (Except ε α)) → Steps σ (Except ε (List α))
  | [] => pure (.ok [])
  | c :: rest => c.andThen fun a => (inOrder rest).andThen fun more => pure (.ok (a :: more))

section InOrder

variable {ε : Type} {c : Steps σ (Except ε α)} {cs : List (Steps σ (Except ε α))} {s : σ} {a : α}

theorem run_inOrder_cons (ends : (c.run s).1 = .ok a) (cs : List (Steps σ (Except ε α))) :
    (inOrder (c :: cs)).run s =
      (((inOrder cs).run (c.run s).2).1.map (a :: ·), ((inOrder cs).run (c.run s).2).2) := by
  rw [inOrder, run_andThen]
  simp only [ends]
  exact run_andThen_pure _ _ _

theorem run_inOrder_cons_error {e : ε} (stops : (c.run s).1 = .error e)
    (cs : List (Steps σ (Except ε α))) : (inOrder (c :: cs)).run s = (.error e, (c.run s).2) := by
  rw [inOrder, run_andThen]
  simp only [stops]

/-- If all of them come to their ends, so does the first one, and then the others. -/
theorem ends_of_inOrder_cons {as : List α} (all : ((inOrder (c :: cs)).run s).1 = .ok as) :
    ∃ a more, (c.run s).1 = .ok a ∧ ((inOrder cs).run (c.run s).2).1 = .ok more ∧ as = a :: more := by
  cases first : (c.run s).1 with
  | error e =>
      rw [run_inOrder_cons_error first] at all
      cases all
  | ok a =>
      rw [run_inOrder_cons first] at all
      cases others : ((inOrder cs).run (c.run s).2).1 with
      | error e =>
          rw [others] at all
          cases all
      | ok more =>
          rw [others] at all
          exact ⟨a, more, rfl, rfl, (Except.ok.inj all).symm⟩

/-- One more, after others that have come to their ends. -/
theorem run_inOrder_concat {as : List α} (all : ((inOrder cs).run s).1 = .ok as)
    (c : Steps σ (Except ε α)) :
    (inOrder (cs ++ [c])).run s =
      ((c.run ((inOrder cs).run s).2).1.map (as ++ [·]), (c.run ((inOrder cs).run s).2).2) := by
  induction cs generalizing s as with
  | nil =>
      cases all
      cases last : (c.run s).1 with
      | error e =>
          rw [List.nil_append, run_inOrder_cons_error last]
          simp only [inOrder, run_pure, last]
          rfl
      | ok a =>
          rw [List.nil_append, run_inOrder_cons last]
          simp only [inOrder, run_pure, last]
          rfl
  | cons first rest ih =>
      obtain ⟨a, more, ends, others, rfl⟩ := ends_of_inOrder_cons all
      rw [List.cons_append, run_inOrder_cons ends, run_inOrder_cons ends, ih others]
      cases (c.run ((inOrder rest).run (first.run s).2).2).1 with
      | error e => rfl
      | ok b => rfl

end InOrder

end Steps

/-- Computations side by side on one state. -/
structure Pool (σ α : Type) where
  state : σ
  running : List (Steps σ α)

namespace Pool

variable {σ α : Type}

/-- One of the computations makes a step. -/
inductive Moves : Pool σ α → Pool σ α → Prop where
  | step (s : σ) (before : List (Steps σ α)) (effect : σ → σ) (next : σ → Steps σ α)
      (after : List (Steps σ α)) :
      Moves ⟨s, before ++ .step effect next :: after⟩ ⟨effect s, before ++ next s :: after⟩

/-- Some steps are made, in any order. -/
def Reaches : Pool σ α → Pool σ α → Prop := Relation.ReflTransGen Moves

theorem reaches_run (s : σ) (before : List (Steps σ α)) (c : Steps σ α)
    (after : List (Steps σ α)) :
    Reaches ⟨s, before ++ c :: after⟩ ⟨(c.run s).2, before ++ .done (c.run s).1 :: after⟩ := by
  induction c generalizing s with
  | done a => exact .refl
  | step effect next ih => exact .head (.step s before effect next after) (ih s (effect s))

/-- Making the computations one after another is one of the orders. -/
theorem reaches_inTurn (s : σ) (before calls : List (Steps σ α)) :
    Reaches ⟨s, before ++ calls⟩
      ⟨((Steps.inTurn calls).run s).2, before ++ ((Steps.inTurn calls).run s).1.map .done⟩ := by
  induction calls generalizing s before with
  | nil => exact .refl
  | cons c rest ih =>
      have first := reaches_run s before c rest
      have others := ih (c.run s).2 (before ++ [.done (c.run s).1])
      simp only [List.append_assoc, List.singleton_append] at others
      simp only [Steps.inTurn, Steps.run_bind, Steps.run_pure, List.map_cons]
      exact first.trans others

end Pool

end Postmortem

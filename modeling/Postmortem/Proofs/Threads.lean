import Postmortem.Proofs.Returning

/-! # Threads that report at the same time

Each thread makes its calls one after another, and the steps of all of them come in any order. The
lock word says how far things are: while it is 0 no report is being made, and the world is as if the
calls that have had the lock had been made one at a time; while it holds a thread, it will be so once
that thread has made the remaining steps of its report. All of this goes for as long as no call is
stopped; a thread whose call is stopped makes no more moves.
-/

namespace Postmortem

/-- A thread. -/
structure Thread where
  me : ThreadId
  /-- The call under way, and what is left of it. -/
  call : Option (Report × Steps World (Except Halt Attempt))
  /-- The calls to be made after that one. -/
  pending : List Report
  /-- The calls that have returned, and how. -/
  returned : List (Report × Attempt)

/-- Threads in one process. -/
structure Threads where
  world : World
  threads : List Thread
  /-- Who has taken the report lock so far, and for which report, in order. -/
  order : List (ThreadId × Report)

namespace Threads

/-- The holder of the report lock, or 0. -/
def owner (w : World) : Nat := w.context.reportLock.owner

/-- What is added to the order by a step of a thread: the call for which the thread took the lock
    in this step, if it did. -/
def taken (me : ThreadId) (r : Report) (before after : World) : List (ThreadId × Report) :=
  if owner before = 0 ∧ owner after = me.number then [(me, r)] else []

/-- One of the threads goes on. -/
inductive Moves : Threads → Threads → Prop where
  /-- It begins its next call. -/
  | call (w : World) (order : List (ThreadId × Report)) (before after : List Thread) (t : Thread)
      (r : Report) (rest : List Report) (idle : t.call = none) (next : t.pending = r :: rest) :
      Moves ⟨w, before ++ t :: after, order⟩
        ⟨w, before ++ { t with call := some (r, r.log t.me), pending := rest } :: after, order⟩
  /-- It makes a step of its call. -/
  | step (w : World) (order : List (ThreadId × Report)) (before after : List Thread) (t : Thread)
      (r : Report) (effect : World → World) (next : World → Steps World (Except Halt Attempt))
      (call : t.call = some (r, .step effect next)) :
      Moves ⟨w, before ++ t :: after, order⟩
        ⟨effect w, before ++ { t with call := some (r, next w) } :: after,
          order ++ taken t.me r w (effect w)⟩
  /-- Its attempt to take the lock fails for no reason. -/
  | spurious (w : World) (order : List (ThreadId × Report)) (before after : List Thread)
      (t : Thread) (r : Report) (call : t.call = some (r, r.log t.me)) :
      Moves ⟨w, before ++ t :: after, order⟩
        ⟨w, before ++ { t with call := some (r, .done (.ok .retry)) } :: after, order⟩
  /-- It asks for the lock again. -/
  | again (w : World) (order : List (ThreadId × Report)) (before after : List Thread) (t : Thread)
      (r : Report) (call : t.call = some (r, .done (.ok .retry))) :
      Moves ⟨w, before ++ t :: after, order⟩
        ⟨w, before ++ { t with call := some (r, r.log t.me) } :: after, order⟩
  /-- Its call returns. -/
  | ret (w : World) (order : List (ThreadId × Report)) (before after : List Thread) (t : Thread)
      (r : Report) (a : Attempt) (call : t.call = some (r, .done (.ok a))) (ended : a ≠ .retry) :
      Moves ⟨w, before ++ t :: after, order⟩
        ⟨w, before ++ { t with call := none, returned := t.returned ++ [(r, a)] } :: after, order⟩

/-- Some steps are made, in any order. -/
def Reaches : Threads → Threads → Prop := Relation.ReflTransGen Moves

/-- The threads before their first calls. -/
def start (w : World) (calls : List (ThreadId × List Report)) : Threads :=
  ⟨w, calls.map fun (me, reports) => ⟨me, none, reports, []⟩, []⟩

/-- All calls have returned. -/
def Finished (s : Threads) : Prop := ∀ t ∈ s.threads, t.call = none ∧ t.pending = []

/-! ## A report under way -/

/-- What a thread has left to do that has the lock: steps that keep the lock as it is, and at last
    one that lets go of it, unless the report is stopped before. -/
def Finishing : Steps World (Except Halt Attempt) → Prop
  | .done (.ok _) => False
  | .done (.error _) => True
  | .step effect next => ∀ w,
    ((effect w).context.reportLock = w.context.reportLock ∧ Finishing (next w)) ∨
      ((effect w).context.reportLock = .free ∧
        (next w = .done (.ok .acquired) ∨ ∃ halt, next w = .done (.error halt)))

theorem finishing_bind {α : Type} {c : Steps World α} {f : α → Steps World (Except Halt Attempt)}
    (hc : c.Always World.Follows) (hf : ∀ a, Finishing (f a)) : Finishing (c >>= f) := by
  show Finishing (c.bind f)
  induction c with
  | done a => exact hf a
  | step effect next ih =>
      intro w
      exact .inl ⟨(hc w).1.reportLock, ih w (hc w).2⟩

/-- What follows a successful attempt is finishing. -/
theorem finishing_after_ask (r : Report) :
    Finishing ((r.afterAttempt .acquired).andThen fun _ => pure (.ok .acquired)) := by
  rw [Report.afterAttempt, Report.makeAndLeave, Steps.andThen, Steps.bind_assoc]
  apply finishing_bind r.make_always
  intro result
  cases result with
  | ok _ => exact fun w => .inr ⟨rfl, .inl rfl⟩
  | error halt =>
      cases halt with
      | panicked => exact fun w => .inr ⟨rfl, .inr ⟨.panicked, rfl⟩⟩
      | waiting | ended => trivial

/-- A call that has yet to ask for the lock is not finishing. -/
theorem not_finishing_log (r : Report) (me : ThreadId) : ¬ Finishing (r.log me) := by
  intro h
  have zero : owner (.start .bare) = 0 := rfl
  have after : owner (Report.ask me (.start .bare)).2 = me.number := by
    rw [Report.ask_of_free me zero]
    rfl
  have pos := me.pos
  obtain ⟨same, -⟩ | ⟨released, -⟩ := h (.start .bare)
  · have unchanged : owner (Report.ask me (.start .bare)).2 = 0 := congrArg ReportLock.owner same
    omega
  · have unlocked : owner (Report.ask me (.start .bare)).2 = 0 := congrArg ReportLock.owner released
    omega

/-! ## The invariant -/

/-- A thread that is between two calls or waits for the lock. -/
inductive Waiting (t : Thread) : Prop where
  | idle (call : t.call = none)
  | asking (r : Report) (call : t.call = some (r, r.log t.me))
  | turnedAway (r : Report) (call : t.call = some (r, .done (.ok .retry)))

/-- Where a thread is that does not have the lock; with the report of the call under way, if that
    has had it. -/
inductive Outside (t : Thread) : List Report → Prop where
  | waiting (waits : Waiting t) : Outside t []
  | left (r : Report) (call : t.call = some (r, .done (.ok .acquired))) : Outside t [r]

/-- What the calls of the order come to if they are made one at a time: they all return, or one of
    them is stopped. -/
inductive OneAtATime (first : World) (order : List (ThreadId × Report)) :
    Except Halt Attempt × World → Prop where
  | all (w : World) (run : (Report.inSequence order).run first =
      (.ok (order.map fun _ => .acquired), w)) : OneAtATime first order (.ok .acquired, w)
  | stopped (w : World) (halt : Halt) (run : (Report.inSequence order).run first =
      (.error halt, w)) : OneAtATime first order (.error halt, w)

/-- Where a thread is that has the lock: with the rest of its report, it will have made the calls
    of the order one at a time. -/
inductive Inside (first w : World) (order : List (ThreadId × Report)) (t : Thread) :
    List Report → Prop where
  | reporting (r : Report) (rest : Steps World (Except Halt Attempt)) (call : t.call = some (r, rest))
      (finishing : Finishing rest) (run : OneAtATime first order (rest.run w)) :
      Inside first w order t [r]

/-- A thread has had the lock for the calls that have returned, all of them with success, and
    perhaps for the one under way; none of its calls is lost. -/
def Sound (first w : World) (order : List (ThreadId × Report)) (all : List Report) (t : Thread) :
    Prop :=
  ∃ done had, t.returned = done.map (·, .acquired) ∧
    (order.filter (·.1 = t.me)).map (·.2) = done ++ had ∧
    done ++ t.call.toList.map (·.1) ++ t.pending = all ∧
    if owner w = t.me.number then Inside first w order t had else Outside t had

/-- The invariant. -/
structure Inv (first : World) (calls : List (ThreadId × List Report)) (s : Threads) : Prop where
  ids : s.threads.map (·.me) = calls.map (·.1)
  known : ∀ entry ∈ s.order, entry.1 ∈ calls.map (·.1)
  sound : ∀ t ∈ s.threads, ∃ all, (t.me, all) ∈ calls ∧ Sound first s.world s.order all t
  free : owner s.world = 0 → OneAtATime first s.order (.ok .acquired, s.world)
  held : owner s.world ≠ 0 → ∃ t ∈ s.threads, owner s.world = t.me.number

/-- The call of a thread has been stopped, and so it would have been if calls had been made one at a
    time. -/
def Stopped (first : World) (s : Threads) : Prop :=
  ∃ t ∈ s.threads, (∃ r halt, t.call = some (r, .done (.error halt))) ∧
    ∃ order, ¬ Report.AllReturn order first

variable {first w w' : World} {order order' : List (ThreadId × Report)} {all : List Report}
  {calls : List (ThreadId × List Report)} {before after : List Thread} {t t' u : Thread}

/-- Unless a call is stopped, the last one has had the lock. -/
theorem OneAtATime.acquired {last : Except Halt Attempt × World} (h : OneAtATime first order last)
    (returning : Report.AllReturn order first) : last.1 = .ok .acquired := by
  cases h with
  | all w run => rfl
  | stopped w halt run =>
      obtain ⟨attempts, returned⟩ := returning
      rw [run] at returned
      cases returned

/-- One more call, by a thread that has found the lock free. -/
theorem OneAtATime.concat (h : OneAtATime first order (.ok .acquired, w)) (r : Report)
    (me : ThreadId) (unlocked : w.context.reportLock = .free) :
    OneAtATime first (order ++ [(me, r)]) ((r.log me).run w) := by
  cases h with
  | all w run =>
      have more : (Report.inSequence (order ++ [(me, r)])).run first =
          (((r.log me).run w).1.map (order.map (fun _ => Attempt.acquired) ++ [·]),
            ((r.log me).run w).2) := by
        rw [Report.inSequence] at run ⊢
        rw [List.map_append]
        refine (Steps.run_inOrder_concat (congrArg Prod.fst run) (r.log me)).trans ?_
        rw [run]
      rw [Report.run_log r me unlocked] at more ⊢
      cases made : (r.made me w).1 with
      | ok _ =>
          rw [made] at more
          refine .all _ (more.trans ?_)
          rw [List.map_append]
          rfl
      | error halt =>
          rw [made] at more
          exact .stopped _ halt more

/-- What a thread does that takes the lock, holds it or lets go of it is nothing to the others. -/
theorem Sound.other (h : Sound first w order all u) (out : owner w ≠ u.me.number)
    (out' : owner w' ≠ u.me.number)
    (same : order'.filter (·.1 = u.me) = order.filter (·.1 = u.me)) :
    Sound first w' order' all u := by
  obtain ⟨done, had, returned, counted, total, place⟩ := h
  rw [if_neg out] at place
  refine ⟨done, had, returned, same ▸ counted, total, ?_⟩
  rw [if_neg out']
  exact place

/-- A step of one thread keeps the invariant if it keeps what concerns this thread, the others and
    the lock. -/
theorem Inv.change (distinct : (calls.map (·.1)).Nodup)
    (h : Inv first calls ⟨w, before ++ t :: after, order⟩) (me : t'.me = t.me)
    (known : ∀ entry ∈ order', entry ∈ order ∨ entry.1 = t.me)
    (others : ∀ u all, u.me ≠ t.me → Sound first w order all u → Sound first w' order' all u)
    (this : ∀ all, Sound first w order all t → Sound first w' order' all t')
    (free : owner w' = 0 → OneAtATime first order' (.ok .acquired, w'))
    (held : owner w' ≠ 0 → owner w' = t.me.number ∨ owner w' = owner w) :
    Inv first calls ⟨w', before ++ t' :: after, order'⟩ := by
  have ids : (before ++ t :: after).map (·.me) = calls.map (·.1) := h.ids
  have nodup : ((before ++ t :: after).map (·.me)).Nodup := ids ▸ distinct
  have elsewhere : ∀ u ∈ before ++ after, u.me ≠ t.me := by
    have middle := (List.perm_middle.map Thread.me).nodup_iff.mp nodup
    rw [List.map_cons, List.nodup_cons] at middle
    intro u member same
    exact middle.1 (List.mem_map.mpr ⟨u, member, same⟩)
  have mem_iff (v x : Thread) : v ∈ before ++ x :: after ↔ v = x ∨ v ∈ before ++ after := by
    rw [List.perm_middle.mem_iff, List.mem_cons]
  have member : t ∈ before ++ t :: after := (mem_iff t t).mpr (.inl rfl)
  refine ⟨?_, ?_, ?_, free, ?_⟩
  · rw [← ids, List.map_append, List.map_append, List.map_cons, List.map_cons, me]
  · intro entry inOrder
    obtain old | own := known entry inOrder
    · exact h.known entry old
    · rw [own, ← ids]
      exact List.mem_map.mpr ⟨t, member, rfl⟩
  · intro v inThreads
    obtain rfl | other := (mem_iff v t').mp inThreads
    · obtain ⟨all, inCalls, sound⟩ := h.sound t member
      exact ⟨all, me ▸ inCalls, this all sound⟩
    · obtain ⟨all, inCalls, sound⟩ := h.sound v ((mem_iff v t).mpr (.inr other))
      exact ⟨all, inCalls, others v all (elsewhere v other) sound⟩
  · intro locked
    obtain own | same := held locked
    · exact ⟨t', (mem_iff t' t').mpr (.inl rfl), me ▸ own⟩
    · obtain ⟨v, inThreads, holds⟩ := h.held (same ▸ locked)
      obtain rfl | other := (mem_iff v t).mp inThreads
      · exact ⟨t', (mem_iff t' t').mpr (.inl rfl), me ▸ same.trans holds⟩
      · exact ⟨v, (mem_iff v t').mpr (.inr other), same.trans holds⟩

theorem Waiting.not_finishing (waits : Waiting t) {r : Report} {rest : Steps World (Except Halt Attempt)}
    (call : t.call = some (r, rest)) : ¬ Finishing rest := by
  cases waits with
  | idle call' =>
      rw [call'] at call
      cases call
  | asking r' call' =>
      rw [call'] at call
      cases call
      exact not_finishing_log r t.me
  | turnedAway r' call' =>
      rw [call'] at call
      cases call
      exact not_false

/-- All that a thread can do without the lock is ask for it. -/
theorem Outside.asks {had : List Report} (outside : Outside t had) {r : Report}
    {effect : World → World} {next : World → Steps World (Except Halt Attempt)}
    (call : t.call = some (r, .step effect next)) : t.call = some (r, r.log t.me) := by
  cases outside with
  | waiting waits =>
      cases waits with
      | asking r' call' =>
          obtain ⟨rfl, -⟩ := Prod.mk.inj (Option.some.inj (call'.symm.trans call))
          exact call'
      | idle call' => cases call'.symm.trans call
      | turnedAway r' call' => cases call'.symm.trans call
  | left r' call' => cases call'.symm.trans call

/-- A thread that waits does not have the lock, and has had it for the calls that have returned. -/
theorem Sound.waiting (h : Sound first w order all t) (waits : Waiting t) :
    ∃ done, t.returned = done.map (·, .acquired) ∧
      (order.filter (·.1 = t.me)).map (·.2) = done ∧
      done ++ t.call.toList.map (·.1) ++ t.pending = all ∧ owner w ≠ t.me.number := by
  obtain ⟨done, had, returned, counted, total, place⟩ := h
  split at place
  · obtain ⟨r, rest, call, finishing, -⟩ := place
    exact absurd finishing (waits.not_finishing call)
  · next out =>
    cases place with
    | waiting _ => exact ⟨done, returned, by rw [counted, List.append_nil], total, out⟩
    | left r call =>
        cases waits with
        | idle call' =>
            rw [call'] at call
            cases call
        | asking r' call' =>
            rw [call'] at call
            cases call
        | turnedAway r' call' =>
            rw [call'] at call
            cases call

/-- A thread that has the lock is in the middle of a report. -/
theorem Sound.inside (h : Sound first w order all t) (inside : owner w = t.me.number) {r : Report}
    {rest : Steps World (Except Halt Attempt)} (call : t.call = some (r, rest)) :
    ∃ done, t.returned = done.map (·, .acquired) ∧
      (order.filter (·.1 = t.me)).map (·.2) = done ++ [r] ∧ done ++ [r] ++ t.pending = all ∧
      Finishing rest ∧ OneAtATime first order (rest.run w) := by
  obtain ⟨done, had, returned, counted, total, place⟩ := h
  rw [if_pos inside] at place
  obtain ⟨r', rest', call', finishing, run⟩ := place
  rw [call] at call' total
  cases call'
  exact ⟨done, returned, counted, total, finishing, run⟩

/-- Steps in which a thread goes on by itself, without the lock. -/
theorem Inv.waits (distinct : (calls.map (·.1)).Nodup)
    (h : Inv first calls ⟨w, before ++ t :: after, order⟩) (me : t'.me = t.me)
    (waits : Waiting t) (waits' : Waiting t') (returned : t'.returned = t.returned)
    (total : t'.call.toList.map (·.1) ++ t'.pending = t.call.toList.map (·.1) ++ t.pending) :
    Inv first calls ⟨w, before ++ t' :: after, order⟩ := by
  refine h.change distinct me (fun _ inOrder => .inl inOrder) (fun _ _ _ sound => sound) ?_ h.free
    fun _ => .inr rfl
  intro all sound
  obtain ⟨done, done_eq, counted, sum, out⟩ := sound.waiting waits
  refine ⟨done, [], returned.trans done_eq, ?_, ?_, ?_⟩
  · rw [me, List.append_nil]
    exact counted
  · rw [List.append_assoc, total, ← List.append_assoc]
    exact sum
  · rw [me, if_neg out]
    exact .waiting waits'

theorem filter_taken {me you : ThreadId} (ne : you ≠ me) (r : Report) (w w' : World) :
    (order ++ taken me r w w').filter (·.1 = you) = order.filter (·.1 = you) := by
  rw [taken]
  split
  · simp [Ne.symm ne]
  · simp

/-- A step of the report under way. -/
theorem Inv.reporting (distinct : (calls.map (·.1)).Nodup)
    (h : Inv first calls ⟨w, before ++ t :: after, order⟩) (inside : owner w = t.me.number)
    {r : Report} {effect : World → World} {next : World → Steps World (Except Halt Attempt)}
    (call : t.call = some (r, .step effect next)) :
    let s' : Threads := ⟨effect w, before ++ { t with call := some (r, next w) } :: after,
      order ++ taken t.me r w (effect w)⟩
    Inv first calls s' ∨ s'.Stopped first := by
  have pos := t.me.pos
  have nothing : taken t.me r w (effect w) = [] := by
    rw [taken, if_neg (by omega)]
  rw [nothing, List.append_nil]
  obtain ⟨all, -, sound⟩ := h.sound t (by simp)
  obtain ⟨_, -, -, -, finishing, run⟩ := sound.inside inside call
  have elsewhere (u : Thread) (ne : u.me ≠ t.me) : t.me.number ≠ u.me.number :=
    fun same => ne (ThreadId.number_injective same.symm)
  obtain ⟨kept, finishing⟩ | ⟨freed, ended | ⟨halt, stopped⟩⟩ := finishing w
  · have same : owner (effect w) = owner w := congrArg ReportLock.owner kept
    refine .inl (h.change distinct rfl (fun _ inOrder => .inl inOrder) ?_ ?_ ?_ fun _ => .inr same)
    · intro u all ne sound
      have out := elsewhere u ne
      exact sound.other (inside ▸ out) (same ▸ inside ▸ out) rfl
    · intro all sound
      obtain ⟨done, returned, counted, total, -⟩ := sound.inside inside call
      refine ⟨done, [r], returned, counted, total, ?_⟩
      rw [if_pos (same.trans inside)]
      exact ⟨r, next w, rfl, finishing, run⟩
    · intro unlocked
      omega
  · have zero : owner (effect w) = 0 := congrArg ReportLock.owner freed
    refine .inl (h.change distinct rfl (fun _ inOrder => .inl inOrder) ?_ ?_ ?_
      fun locked => absurd zero locked)
    · intro u all ne sound
      have out := elsewhere u ne
      have pos := u.me.pos
      exact sound.other (inside ▸ out) (by omega) rfl
    · intro all sound
      obtain ⟨done, returned, counted, total, -⟩ := sound.inside inside call
      refine ⟨done, [r], returned, counted, total, ?_⟩
      have out : owner (effect w) ≠ t.me.number := by omega
      rw [if_neg out, ended]
      exact .left r rfl
    · intro _
      rw [Steps.run, ended] at run
      exact run
  · refine .inr ⟨{ t with call := some (r, next w) }, by simp, ⟨r, halt, by rw [stopped]⟩, order, ?_⟩
    intro returning
    rw [Steps.run, stopped] at run
    cases run.acquired returning

/-- An attempt to take the lock. -/
theorem Inv.attempt (distinct : (calls.map (·.1)).Nodup)
    (h : Inv first calls ⟨w, before ++ t :: after, order⟩) (outside : owner w ≠ t.me.number)
    {r : Report} (call : t.call = some (r, r.log t.me)) :
    Inv first calls
      ⟨(Report.ask t.me w).2,
        before ++ { t with call := some (r, (r.afterAttempt (Report.ask t.me w).1).andThen fun _ =>
          pure (.ok (Report.ask t.me w).1)) } :: after,
        order ++ taken t.me r w (Report.ask t.me w).2⟩ := by
  have pos := t.me.pos
  by_cases free : owner w = 0
  · have asked := Report.ask_of_free t.me free
    have got : owner (Report.ask t.me w).2 = t.me.number := by rw [asked]; rfl
    have taken_eq : taken t.me r w (Report.ask t.me w).2 = [(t.me, r)] := by
      rw [taken, if_pos ⟨free, got⟩]
    have unlocked : w.context.reportLock = .free := congrArg ReportLock.mk free
    have known : ∀ entry ∈ order ++ [(t.me, r)], entry ∈ order ∨ entry.1 = t.me := by
      intro entry inOrder
      obtain old | new := List.mem_append.mp inOrder
      · exact .inl old
      · exact .inr (congrArg Prod.fst (List.mem_singleton.mp new))
    rw [taken_eq]
    refine h.change distinct rfl known ?_ ?_ ?_ fun _ => .inl got
    · intro u all ne sound
      have upos := u.me.pos
      refine sound.other (by omega) ?_ ?_
      · rw [got]
        exact fun same => ne (ThreadId.number_injective same.symm)
      · rw [← taken_eq, filter_taken ne]
    · intro all sound
      obtain ⟨done, returned, counted, total, -⟩ := sound.waiting (.asking r call)
      rw [call] at total
      refine ⟨done, [r], returned, ?_, total, ?_⟩
      · show ((order ++ [(t.me, r)]).filter (·.1 = t.me)).map (·.2) = _
        rw [List.filter_append, List.map_append, counted]
        simp
      · rw [if_pos got]
        refine ⟨r, _, rfl, ?_, ?_⟩
        · rw [asked]
          exact finishing_after_ask r
        · exact (h.free free).concat r t.me unlocked
    · intro zero
      omega
  · have asked := Report.ask_of_held t.me free outside
    have nothing : taken t.me r w (Report.ask t.me w).2 = [] := by
      rw [taken, if_neg fun both => free both.1]
    rw [nothing, List.append_nil, asked]
    refine h.waits distinct rfl (.asking r call) (.turnedAway r rfl) rfl ?_
    rw [call]
    rfl

/-- A call returns. -/
theorem Inv.ret (distinct : (calls.map (·.1)).Nodup)
    (h : Inv first calls ⟨w, before ++ t :: after, order⟩) {r : Report} {a : Attempt}
    (call : t.call = some (r, .done (.ok a))) (ended : a ≠ .retry) :
    Inv first calls
      ⟨w, before ++ { t with call := none, returned := t.returned ++ [(r, a)] } :: after, order⟩ := by
  refine h.change distinct rfl (fun _ inOrder => .inl inOrder) (fun _ _ _ sound => sound) ?_ h.free
    fun _ => .inr rfl
  rintro all ⟨done, had, returned, counted, total, place⟩
  split at place
  · obtain ⟨r', rest, call', finishing, -⟩ := place
    rw [call] at call'
    cases call'
    exact absurd finishing not_false
  · next out =>
    cases place with
    | waiting waits =>
        cases waits with
        | idle call' =>
            rw [call] at call'
            cases call'
        | asking r' call' =>
            rw [call] at call'
            cases call'
        | turnedAway r' call' =>
            rw [call] at call'
            cases call'
            exact absurd rfl ended
    | left r' call' =>
        rw [call] at call' total
        cases call'
        refine ⟨done ++ [r], [], ?_, ?_, ?_, ?_⟩
        · rw [returned, List.map_append]
          rfl
        · rw [List.append_nil]
          exact counted
        · show done ++ [r] ++ [] ++ t.pending = all
          rw [List.append_nil]
          exact total
        · rw [if_neg out]
          exact .waiting (.idle rfl)

/-- Every step keeps the invariant, unless it stops the call. -/
theorem Inv.moves {s s' : Threads} (distinct : (calls.map (·.1)).Nodup) (h : Inv first calls s)
    (move : s.Moves s') : Inv first calls s' ∨ s'.Stopped first := by
  cases move with
  | call w order before after t r rest idle next =>
      refine .inl (h.waits distinct rfl (.idle idle) (.asking r rfl) rfl ?_)
      rw [idle, next]
      rfl
  | step w order before after t r effect next call =>
      by_cases inside : owner w = t.me.number
      · exact h.reporting distinct inside call
      · obtain ⟨all, -, sound⟩ := h.sound t (by simp)
        obtain ⟨_, _, -, -, -, place⟩ := sound
        rw [if_neg inside] at place
        have asks := call.symm.trans (place.asks call)
        rw [Report.log_eq] at asks
        cases asks
        exact .inl (h.attempt distinct inside call)
  | spurious w order before after t r call =>
      refine .inl (h.waits distinct rfl (.asking r call) (.turnedAway r rfl) rfl ?_)
      rw [call]
      rfl
  | again w order before after t r call =>
      refine .inl (h.waits distinct rfl (.turnedAway r call) (.asking r rfl) rfl ?_)
      rw [call]
      rfl
  | ret w order before after t r a call ended => exact .inl (h.ret distinct call ended)

/-- A move is one of a single thread, and not of one whose call has been stopped. -/
theorem Moves.moved {s s' : Threads} (move : s.Moves s') :
    ∃ before after t t', s.threads = before ++ t :: after ∧ s'.threads = before ++ t' :: after ∧
      ∀ r halt, t.call ≠ some (r, .done (.error halt)) := by
  cases move with
  | call w order before after t r rest idle next =>
      exact ⟨before, after, t, _, rfl, rfl, by simp [idle]⟩
  | step w order before after t r effect next call =>
      exact ⟨before, after, t, _, rfl, rfl, by simp [call]⟩
  | spurious w order before after t r call =>
      exact ⟨before, after, t, _, rfl, rfl, by simp [call, Report.log_eq]⟩
  | again w order before after t r call =>
      exact ⟨before, after, t, _, rfl, rfl, by simp [call]⟩
  | ret w order before after t r a call ended =>
      exact ⟨before, after, t, _, rfl, rfl, by simp [call]⟩

/-- A thread whose call has been stopped stays where it is. -/
theorem Moves.stopped {s s' : Threads} {r : Report} {halt : Halt} (move : s.Moves s')
    (inThreads : u ∈ s.threads) (call : u.call = some (r, .done (.error halt))) :
    u ∈ s'.threads := by
  obtain ⟨before, after, t, t', threads, threads', going⟩ := move.moved
  have other : u ≠ t := by
    rintro rfl
    exact going r halt call
  rw [threads] at inThreads
  rw [threads']
  simp only [List.mem_append, List.mem_cons, other, false_or] at inThreads ⊢
  exact inThreads.imp_right .inr

theorem Stopped.moves {s s' : Threads} (h : s.Stopped first) (move : s.Moves s') :
    s'.Stopped first := by
  obtain ⟨t, inThreads, ⟨r, halt, call⟩, never⟩ := h
  exact ⟨t, move.stopped inThreads call, ⟨r, halt, call⟩, never⟩

theorem Stopped.not_finished {s : Threads} (h : s.Stopped first) : ¬ s.Finished := by
  intro finished
  obtain ⟨t, inThreads, ⟨r, halt, call⟩, -⟩ := h
  rw [(finished t inThreads).1] at call
  cases call

theorem Stopped.not_returning {s : Threads} (h : s.Stopped first) :
    ¬ ∀ order, Report.AllReturn order first := by
  intro returning
  obtain ⟨_, -, -, order, never⟩ := h
  exact never (returning order)

theorem Inv.reaches {s s' : Threads} (distinct : (calls.map (·.1)).Nodup) (h : Inv first calls s)
    (moves : s.Reaches s') : Inv first calls s' ∨ s'.Stopped first := by
  induction moves with
  | refl => exact .inl h
  | tail _ move ih =>
      obtain inv | stopped := ih
      · exact inv.moves distinct move
      · exact .inr (stopped.moves move)

theorem Inv.start (first : World) (calls : List (ThreadId × List Report))
    (free : first.context.reportLock = .free) : Inv first calls (start first calls) := by
  have zero : owner first = 0 := congrArg ReportLock.owner free
  refine ⟨?_, ?_, ?_, fun _ => .all first rfl, fun held => absurd zero held⟩
  · rw [Threads.start, List.map_map]
    rfl
  · intro entry inOrder
    cases inOrder
  · intro t inThreads
    obtain ⟨⟨me, all⟩, inCalls, rfl⟩ := List.mem_map.mp inThreads
    refine ⟨all, inCalls, [], [], rfl, rfl, rfl, ?_⟩
    have pos := me.pos
    have out : owner first ≠ me.number := by omega
    exact (if_neg out).mpr (.waiting (.idle rfl))

/-! ## Nothing gets stuck -/

/-- What is left of a call can be run to its end. -/
theorem reaches_run (w : World) (order : List (ThreadId × Report)) (before after : List Thread)
    (t : Thread) (r : Report) (c : Steps World (Except Halt Attempt)) (call : t.call = some (r, c)) :
    ∃ order', Reaches ⟨w, before ++ t :: after, order⟩
      ⟨(c.run w).2, before ++ { t with call := some (r, .done (c.run w).1) } :: after, order'⟩ := by
  induction c generalizing w order t with
  | done a =>
      have same : { t with call := some (r, .done a) } = t := by rw [← call]
      exact ⟨order, by rw [Steps.run, same]; exact .refl⟩
  | step effect next ih =>
      obtain ⟨order', reached⟩ := ih w (effect w) (order ++ taken t.me r w (effect w))
        { t with call := some (r, next w) } rfl
      exact ⟨order', .head (.step w order before after t r effect next call) reached⟩

/-- How many calls have not returned. -/
def left (s : Threads) : Nat :=
  (s.threads.map fun t => t.call.toList.length + t.pending.length).sum

theorem left_middle (w : World) (order : List (ThreadId × Report)) (before after : List Thread)
    (t : Thread) : left ⟨w, before ++ t :: after, order⟩ =
      t.call.toList.length + t.pending.length + left ⟨w, before ++ after, order⟩ := by
  simp only [left, List.map_append, List.map_cons, List.sum_append, List.sum_cons]
  omega

/-- A call under way that can be run to its end returns. -/
theorem returns (w : World) (order : List (ThreadId × Report)) (before after : List Thread)
    (t : Thread) {r : Report} {c : Steps World (Except Halt Attempt)} (call : t.call = some (r, c))
    (gets : (c.run w).1 = .ok .acquired) :
    ∃ s', Reaches ⟨w, before ++ t :: after, order⟩ s' ∧
      s'.left < left ⟨w, before ++ t :: after, order⟩ := by
  obtain ⟨order', reached⟩ := reaches_run w order before after t r c call
  rw [gets] at reached
  have ended : Attempt.acquired ≠ .retry := by decide
  refine ⟨_, reached.tail (.ret _ order' before after _ r .acquired rfl ended), ?_⟩
  rw [left_middle, left_middle, call]
  simp only [left, Option.toList, List.length_cons, List.length_nil]
  omega

/-- As long as calls are left, another one can return. -/
theorem Inv.progress {s : Threads} (returning : ∀ order, Report.AllReturn order first)
    (h : Inv first calls s) (unfinished : ¬ s.Finished) :
    ∃ s', s.Reaches s' ∧ s'.left < s.left := by
  obtain ⟨w, threads, order⟩ := s
  by_cases free : owner w = 0
  · obtain ⟨t, inThreads, busy⟩ : ∃ t ∈ threads, ¬ (t.call = none ∧ t.pending = []) := by
      simpa only [Finished, not_forall, exists_prop] using unfinished
    obtain ⟨before, after, rfl⟩ := List.append_of_mem inThreads
    obtain ⟨all, -, sound⟩ := h.sound t inThreads
    obtain ⟨_, _, -, -, -, place⟩ := sound
    have pos := t.me.pos
    have out : owner w ≠ t.me.number := by omega
    have unlocked : w.context.reportLock = .free := congrArg ReportLock.mk free
    have gets (r : Report) : ((r.log t.me).run w).1 = .ok .acquired :=
      ((h.free free).concat r t.me unlocked).acquired (returning _)
    replace place : Outside t _ := (if_neg out).mp place
    cases place with
    | waiting waits =>
        cases waits with
        | idle idle =>
            cases pending : t.pending with
            | nil => exact absurd ⟨idle, pending⟩ busy
            | cons r rest =>
                have begun := Moves.call w order before after t r rest idle pending
                obtain ⟨s', reached, fewer⟩ := returns w order before after
                  { t with call := some (r, r.log t.me), pending := rest } rfl (gets r)
                refine ⟨s', .head begun reached, fewer.trans_le (Nat.le_of_eq ?_)⟩
                rw [left_middle, left_middle, idle, pending]
                simp only [Option.toList, List.length_cons, List.length_nil]
                omega
        | asking r call => exact returns w order before after t call (gets r)
        | turnedAway r call =>
            have again := Moves.again w order before after t r call
            obtain ⟨s', reached, fewer⟩ := returns w order before after
              { t with call := some (r, r.log t.me) } rfl (gets r)
            refine ⟨s', .head again reached, fewer.trans_le (Nat.le_of_eq ?_)⟩
            rw [left_middle, left_middle, call]
            rfl
    | left r call => exact returns w order before after t call rfl
  · obtain ⟨t, inThreads, inside⟩ := h.held free
    obtain ⟨before, after, rfl⟩ := List.append_of_mem inThreads
    obtain ⟨all, -, sound⟩ := h.sound t inThreads
    obtain ⟨_, _, -, -, -, place⟩ := sound
    rw [if_pos inside] at place
    obtain ⟨r, rest, call, -, run⟩ := place
    exact returns w order before after t call (run.acquired (returning order))

/-- Wherever the threads are, all calls can still return, if they return when made one at a time. -/
theorem Inv.can_finish {s : Threads} (distinct : (calls.map (·.1)).Nodup)
    (returning : ∀ order, Report.AllReturn order first) (h : Inv first calls s) :
    ∃ s', s.Reaches s' ∧ s'.Finished := by
  obtain ⟨n, hn⟩ : ∃ n, s.left = n := ⟨_, rfl⟩
  induction n using Nat.strong_induction_on generalizing s with
  | _ n ih =>
      by_cases finished : s.Finished
      · exact ⟨s, .refl, finished⟩
      · obtain ⟨middle, reached, fewer⟩ := h.progress returning finished
        have inv : Inv first calls middle :=
          (h.reaches distinct reached).resolve_right fun stopped => stopped.not_returning returning
        obtain ⟨s', reached', finished'⟩ := ih _ (hn ▸ fewer) inv rfl
        exact ⟨s', reached.trans reached', finished'⟩

/-- Once all calls have returned, each thread has had the lock for its calls, and nobody has it. -/
theorem Inv.finished {s : Threads} (distinct : (calls.map (·.1)).Nodup) (h : Inv first calls s)
    (finished : s.Finished) :
    (Report.inSequence s.order).run first = (.ok (s.order.map fun _ => .acquired), s.world) ∧
      ∀ call ∈ calls, (s.order.filter (·.1 = call.1)).map (·.2) = call.2 ∧
        ∃ t ∈ s.threads, t.me = call.1 ∧ t.returned = call.2.map (·, .acquired) := by
  constructor
  · -- The lock is free, for whoever had it would not have finished.
    have unlocked : owner s.world = 0 := by
      by_contra held
      obtain ⟨t, inThreads, holds⟩ := h.held held
      obtain ⟨all, -, sound⟩ := h.sound t inThreads
      obtain ⟨-, -, -, -, out⟩ := sound.waiting (.idle (finished t inThreads).1)
      exact out holds
    cases h.free unlocked with
    | all _ run => exact run
  · intro call inCalls
    obtain ⟨t, inThreads, me⟩ : ∃ t ∈ s.threads, t.me = call.1 := by
      rw [← List.mem_map, h.ids]
      exact List.mem_map.mpr ⟨call, inCalls, rfl⟩
    obtain ⟨all, inCalls', sound⟩ := h.sound t inThreads
    have same : (t.me, all) = call := List.inj_on_of_nodup_map distinct inCalls' inCalls me
    obtain ⟨idle, nothing⟩ := finished t inThreads
    obtain ⟨done, returned, counted, total, -⟩ := sound.waiting (.idle idle)
    have all_eq : done = all := by simpa [idle, nothing] using total
    rw [← same, ← all_eq]
    exact ⟨counted, t, inThreads, rfl, returned⟩

/-! ## Serializability -/

/-- Once all calls have returned, everything is as if they had been made one at a time, in the order
    in which they got the lock. This order has all calls, those of each thread in the thread's own
    order, and none was refused. So the reports stand one after another on the error stream, each
    with a log file of its own. -/
theorem serializable {first : World} {calls : List (ThreadId × List Report)} {s : Threads}
    (free : first.context.reportLock = .free) (distinct : (calls.map (·.1)).Nodup)
    (reached : (start first calls).Reaches s) (finished : s.Finished) :
    (s.order.map (·.1) ⊆ calls.map (·.1) ∧
      ∀ call ∈ calls, (s.order.filter (·.1 = call.1)).map (·.2) = call.2) ∧
    (∀ call ∈ calls, ∃ t ∈ s.threads, t.me = call.1 ∧ t.returned = call.2.map (·, .acquired)) ∧
    (Report.inSequence s.order).run first = (.ok (s.order.map fun _ => .acquired), s.world) ∧
    s.world.machine.stderr = first.machine.stderr ++ (Report.saidBy s.order first).flatten ∧
    (Report.logFiles s.order first).Nodup := by
  have inv : Inv first calls s := ((Inv.start first calls free).reaches distinct reached).resolve_right
    fun stopped => stopped.not_finished finished
  obtain ⟨run, own⟩ := inv.finished distinct finished
  have all : Report.AllReturn s.order first := ⟨_, congrArg Prod.fst run⟩
  have world : s.world = Report.afterAll s.order first := (congrArg Prod.snd run).symm
  refine ⟨⟨?_, fun call inCalls => (own call inCalls).1⟩,
    fun call inCalls => (own call inCalls).2, run, ?_, Report.logFiles_nodup free all⟩
  · intro id inOrder
    obtain ⟨entry, member, rfl⟩ := List.mem_map.mp inOrder
    exact inv.known entry member
  · rw [world]
    exact Report.stderr_afterAll free all

theorem two_threads_serializable :
    let calls : List (ThreadId × List Report) :=
      [(⟨1, by decide⟩, [⟨true, .text "first", none, none⟩, ⟨false, .text "second", none, none⟩]),
        (⟨2, by decide⟩, [⟨false, .text "other", none, none⟩])]
    ∃ s, (start (.start .bare) calls).Reaches s ∧ s.Finished ∧
      (Report.inSequence s.order).run (.start .bare) =
        (.ok (s.order.map fun _ => .acquired), s.world) := by
  intro calls
  have distinct : (calls.map (·.1)).Nodup := by decide
  have bounded : (World.start .bare).Bounded :=
    ⟨by decide +kernel, Duration.finite_ofSeconds (by decide), Duration.finite_ofSeconds (by decide)⟩
  have returning (order : List (ThreadId × Report)) : Report.AllReturn order (World.start .bare) :=
    Report.allReturn_of_bounded rfl bounded
  obtain ⟨s, reached, finished⟩ :=
    (Inv.start (.start .bare) calls rfl).can_finish distinct returning
  exact ⟨s, reached, finished, (serializable rfl distinct reached finished).2.2.1⟩

end Threads

end Postmortem

import Postmortem.Proofs.Buffer

/-! # What becomes of a buffer

A buffer may be pushed to, written to, cut and emptied in any order. All the time it is a string of
limited length: every operation gives the answer that the string gives, and has the effect that it
has on the string. Bytes that were cut off are never seen again, and no cell is addressed that is
not there.
-/

namespace Postmortem

namespace FixedBuffer

variable {capacity room : Nat} {b : FixedBuffer capacity} {s t : Bytes}

/-- What can be done to a buffer. -/
inductive Operation where
  | push (bytes : Bytes)
  | pushText (text : String)
  | pushNumber (x : Int)
  | write (fragments : List Bytes)
  | truncate (size : Nat)
  | clear

/-- The answer to an operation that may fail, and the buffer after it. -/
def settle (b : FixedBuffer capacity) :
    Except PushError (FixedBuffer capacity) → Except PushError Unit × FixedBuffer capacity
  | .ok later => (.ok (), later)
  | .error e => (.error e, b)

namespace Operation

def perform : Operation → FixedBuffer capacity → Except PushError Unit × FixedBuffer capacity
  | push bytes, b => settle b (b.push bytes)
  | pushText text, b => settle b (b.push (utf8 text))
  | pushNumber x, b => settle b (b.pushNumber x)
  | write fragments, b => ((b.write fragments).2, (b.write fragments).1)
  | truncate size, b => (.ok (), b.truncate size)
  | clear, b => (.ok (), b.clear)

/-- The answers to operations one after another, and the buffer after all of them. -/
def performAll : List Operation → FixedBuffer capacity →
    List (Except PushError Unit) × FixedBuffer capacity
  | [], b => ([], b)
  | operation :: rest, b =>
    let (answer, b) := operation.perform b
    let (answers, b) := performAll rest b
    (answer :: answers, b)

/-! ## Strings of limited length -/

/-- A string with another one appended, if it is allowed that many bytes. -/
def appended (room : Nat) (s t : Bytes) : Except PushError Unit × Bytes :=
  if s.length + t.length ≤ room then (.ok (), s ++ t) else (.error .outOfSpace, s)

/-- The fragments before the first one that does not fit any more. -/
def fitting : (room : Nat) → List Bytes → List Bytes
  | _, [] => []
  | room, t :: rest => if t.length ≤ room then t :: fitting (room - t.length) rest else []

/-- What an operation means for a string that may have `room` bytes. -/
def onString (room : Nat) : Operation → Bytes → Except PushError Unit × Bytes
  | push bytes, s => appended room s bytes
  | pushText text, s => appended room s (utf8 text)
  | pushNumber x, s => appended room s (utf8 (toString x))
  | write fragments, s =>
    let taken := fitting (room - s.length) fragments
    (if taken = fragments then .ok () else .error .outOfSpace, s ++ taken.flatten)
  | truncate size, s => (.ok (), s.take size)
  | clear, _ => (.ok (), [])

def onStringAll (room : Nat) : List Operation → Bytes → List (Except PushError Unit) × Bytes
  | [], s => ([], s)
  | operation :: rest, s =>
    let (answer, s) := operation.onString room s
    let (answers, s) := onStringAll room rest s
    (answer :: answers, s)

/-! ## Checked accesses -/

/-- The cells with these bytes from `start` on, unless one of them is not there. -/
def store (start : Nat) (bytes cells : Bytes) : Except PushError Bytes :=
  if start + bytes.length ≤ cells.length then .ok (overwrite cells start bytes)
  else .error (.outOfBounds (start + bytes.length) cells.length)

def pushChecked (b : FixedBuffer capacity) (bytes : Bytes) :
    Except PushError (FixedBuffer capacity) :=
  if b.remaining < bytes.length then .error .outOfSpace
  else do
    let cells ← store b.size bytes b.cells
    let cells ← store (b.size + bytes.length) [0] cells
    return ⟨cells, b.size + bytes.length⟩

def writeChecked (b : FixedBuffer capacity) :
    List Bytes → Except PushError Unit × FixedBuffer capacity
  | [] => (.ok (), b)
  | fragment :: rest =>
    match pushChecked b fragment with
    | .ok b => writeChecked b rest
    | .error e => (.error e, b)

def truncateChecked (b : FixedBuffer capacity) (size : Nat) :
    Except PushError (FixedBuffer capacity) :=
  if size < b.size then do
    let cells ← store size [0] b.cells
    return ⟨cells, size⟩
  else return b

/-- The operation as it is if every access to the cells is checked. -/
def checked : Operation → FixedBuffer capacity → Except PushError Unit × FixedBuffer capacity
  | push bytes, b => settle b (pushChecked b bytes)
  | pushText text, b => settle b (pushChecked b (utf8 text))
  | pushNumber x, b => settle b (pushChecked b (Decimal.ofInt x))
  | write fragments, b => writeChecked b fragments
  | truncate size, b => settle b (truncateChecked b size)
  | clear, b => settle b (truncateChecked b 0)

theorem store_nul {cells : Bytes} {i : Nat} (inside : i < cells.length) :
    store i [0] cells = .ok (cells.set i 0) := by
  unfold store overwrite
  rw [if_pos (by simpa using inside), List.set_eq_take_append_cons_drop, if_pos inside,
    List.append_assoc]
  rfl

theorem pushChecked_eq (h : b.Holds s) (bytes : Bytes) : pushChecked b bytes = b.push bytes := by
  have length := h.length
  have size := h.size
  have bound := h.length_lt
  unfold pushChecked FixedBuffer.push
  split
  · rfl
  · next fits =>
    unfold remaining at fits
    have first : b.size + bytes.length ≤ b.cells.length := by omega
    have kept : (overwrite b.cells b.size bytes).length = capacity := by
      unfold overwrite
      simp only [List.length_append, List.length_take, List.length_drop]
      omega
    have last : b.size + bytes.length < (overwrite b.cells b.size bytes).length := by omega
    have stored : store b.size bytes b.cells = .ok (overwrite b.cells b.size bytes) := if_pos first
    unfold terminate
    rw [if_pos last]
    simp only [stored, bind, Except.bind, store_nul last]
    rfl

theorem pushChecked_number (h : b.Holds s) (x : Int) :
    pushChecked b (Decimal.ofInt x) = b.pushNumber x := by
  have length := h.length
  have size := h.size
  have bound := h.length_lt
  have width := Decimal.length_ofInt x
  rw [pushChecked_eq h]
  unfold FixedBuffer.push FixedBuffer.pushNumber
  rw [width]
  split
  · rfl
  · next fits =>
    unfold remaining at fits
    have space : Decimal.width x ≤ (b.cells.drop b.size).length := by
      rw [List.length_drop]
      omega
    rw [Decimal.put_eq space]
    unfold overwrite
    simp only [List.drop_drop, width, List.append_assoc]

theorem truncateChecked_eq (h : b.Holds s) (size : Nat) :
    truncateChecked b size = .ok (b.truncate size) := by
  have length := h.length
  have bound := h.length_lt
  have filled := h.size
  unfold truncateChecked FixedBuffer.truncate
  split
  · next shorter =>
    have inside : size < b.cells.length := by omega
    simp only [store_nul inside, bind, Except.bind]
    rfl
  · rfl

/-! ## One operation -/

theorem settle_of_builds {b : FixedBuffer (room + 1)} {r : Except PushError (FixedBuffer (room + 1))}
    (h : b.Holds s) (built : Builds (s ++ t) r) :
    (settle b r).1 = (appended room s t).1 ∧ (settle b r).2.Holds (appended room s t).2 := by
  unfold Builds at built
  unfold appended
  rw [List.length_append] at built
  split at built
  · next fits =>
    obtain ⟨later, rfl, holds⟩ := built
    rw [if_pos (Nat.le_of_lt_succ fits)]
    exact ⟨rfl, holds⟩
  · next full =>
    subst built
    rw [if_neg (by omega)]
    exact ⟨rfl, h⟩

theorem write_of_holds {b : FixedBuffer (room + 1)} (h : b.Holds s) (fragments : List Bytes) :
    ((write fragments).perform b).1 = ((write fragments).onString room s).1 ∧
      ((write fragments).perform b).2.Holds ((write fragments).onString room s).2 := by
  induction fragments generalizing b s with
  | nil =>
      refine ⟨rfl, ?_⟩
      show b.Holds (s ++ [])
      rw [List.append_nil]
      exact h
  | cons t rest ih =>
      have bound := h.length_lt
      have built := h.push t
      unfold Builds at built
      rw [List.length_append] at built
      split at built
      · next fits =>
        obtain ⟨later, pushed, holds⟩ := built
        have step := ih holds
        have space : t.length ≤ room - s.length := by omega
        have left : room - s.length - t.length = room - (s ++ t).length := by
          rw [List.length_append]
          omega
        simp only [perform, onString, fitting, FixedBuffer.write, pushed, if_pos space, left,
          List.cons.injEq, true_and, List.flatten_cons] at step ⊢
        rw [← List.append_assoc]
        exact step
      · next full =>
        have tooLong : ¬ t.length ≤ room - s.length := by omega
        simp only [perform, onString, fitting, FixedBuffer.write, built, if_neg tooLong]
        refine ⟨rfl, ?_⟩
        simpa using h

/-- Every operation gives the answer that the string gives, and has the same effect on both. -/
theorem perform_of_holds {b : FixedBuffer (room + 1)} (h : b.Holds s) (operation : Operation) :
    (operation.perform b).1 = (operation.onString room s).1 ∧
      (operation.perform b).2.Holds (operation.onString room s).2 := by
  cases operation with
  | push bytes => exact settle_of_builds h (h.push bytes)
  | pushText text => exact settle_of_builds h (h.push (utf8 text))
  | pushNumber x =>
      have built := h.pushNumber x
      rw [← Decimal.utf8_toString_int] at built
      exact settle_of_builds h built
  | write fragments => exact write_of_holds h fragments
  | truncate size => exact ⟨rfl, h.truncate size⟩
  | clear => exact ⟨rfl, h.truncate 0⟩

theorem checked_eq (h : b.Holds s) (operation : Operation) :
    operation.checked b = operation.perform b := by
  cases operation with
  | push bytes => exact congrArg (settle b) (pushChecked_eq h bytes)
  | pushText text => exact congrArg (settle b) (pushChecked_eq h (utf8 text))
  | pushNumber x => exact congrArg (settle b) (pushChecked_number h x)
  | truncate size => exact congrArg (settle b) (truncateChecked_eq h size)
  | clear => exact congrArg (settle b) (truncateChecked_eq h 0)
  | write fragments =>
      show writeChecked b fragments = ((b.write fragments).2, (b.write fragments).1)
      induction fragments generalizing b s with
      | nil => rfl
      | cons t rest ih =>
          have built := h.push t
          unfold Builds at built
          unfold writeChecked FixedBuffer.write
          rw [pushChecked_eq h]
          split at built
          · obtain ⟨later, pushed, holds⟩ := built
            rw [pushed]
            exact ih holds
          · rw [built]

/-! ## Any number of them -/

theorem performAll_of_holds {b : FixedBuffer (room + 1)} (h : b.Holds s)
    (operations : List Operation) :
    (performAll operations b).1 = (onStringAll room operations s).1 ∧
      (performAll operations b).2.Holds (onStringAll room operations s).2 := by
  induction operations generalizing b s with
  | nil => exact ⟨rfl, h⟩
  | cons operation rest ih =>
      obtain ⟨answer, holds⟩ := perform_of_holds h operation
      obtain ⟨answers, last⟩ := ih holds
      exact ⟨congrArg₂ List.cons answer answers, last⟩

end Operation

/-- What can be seen of a buffer that holds a string, and that it is safe to go on with it. -/
structure Shows (b : FixedBuffer (room + 1)) (s : Bytes) : Prop where
  content : b.content = s
  size : b.size = s.length
  isEmpty : b.isEmpty = s.isEmpty
  length_le : s.length ≤ room
  remaining : b.remaining = room - s.length
  /-- There is a NUL right after the content, -/
  terminated : b.cells[s.length]? = some 0
  /-- so that C sees the content up to the first NUL that is in it, and nothing else. -/
  asCString : b.asCString.bytes = s.takeWhile (· ≠ 0)
  /-- No operation addresses a cell that is not there. -/
  checked : ∀ operation : Operation, operation.checked b = operation.perform b

theorem Holds.shows {b : FixedBuffer (room + 1)} (h : b.Holds s) : b.Shows s := by
  have filled := h.size
  have bound := h.length_lt
  obtain ⟨rest, cells⟩ := h.front
  refine ⟨h.content, filled, ?_, by omega, ?_, ?_, ?_, Operation.checked_eq h⟩
  · unfold FixedBuffer.isEmpty
    rw [filled]
    cases s with
    | nil => rfl
    | cons x rest => rfl
  · unfold FixedBuffer.remaining
    omega
  · rw [cells]
    simp
  · have ends : (0 : UInt8) ∈ b.cells := by simp [cells]
    unfold FixedBuffer.asCString
    rw [if_pos ends, cells]
    show (s ++ 0 :: rest).takeWhile _ = _
    rw [List.takeWhile_append]
    split
    · next whole =>
      have all := (List.takeWhile_prefix _).eq_of_length whole
      simpa using all.symm
    · rfl

/-- After any operations a buffer with at least one cell shows the string that the same operations
    make of the empty one, when one byte less is allowed than there are cells; and all answers are
    those that the string gives. -/
theorem performAll_as_string (room : Nat) (operations : List Operation) :
    (Operation.performAll operations (empty (room + 1))).1 =
        (Operation.onStringAll room operations []).1 ∧
      (Operation.performAll operations (empty (room + 1))).2.Shows
        (Operation.onStringAll room operations []).2 := by
  have start : (empty (room + 1)).Holds [] := empty_holds (Nat.succ_pos room)
  obtain ⟨answers, holds⟩ := Operation.performAll_of_holds start operations
  exact ⟨answers, holds.shows⟩

end FixedBuffer

end Postmortem

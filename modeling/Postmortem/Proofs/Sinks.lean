import Postmortem.Banner
import Postmortem.Frames
import Postmortem.Registry.ExtraLines

/-! # Writing to a sink that fails

What a computation writes does not depend on the sink. A sink with room for all of it takes it all,
however little it takes at once; a sink with less room takes as much of the beginning as it has room
for, and then the computation fails and writes nothing more. This holds of a single write, it is
kept where one computation goes on from another, and so it holds of everything that is made of
writes.
-/

namespace Postmortem

namespace Sink

variable {sink : Sink} {s t : Bytes}

/-- The sink has room for the bytes. -/
def Fits (sink : Sink) (bytes : Bytes) : Prop := ∀ room ∈ sink.room, bytes.length ≤ room

theorem take_nil (sink : Sink) : sink.take [] = sink := by
  cases sink
  simp [take]

theorem take_take (sink : Sink) (s t : Bytes) : (sink.take s).take t = sink.take (s ++ t) := by
  simp [take, Function.comp_def, Nat.sub_sub]

theorem Fits.left (h : sink.Fits (s ++ t)) : sink.Fits s := by
  intro room limit
  have whole := h room limit
  rw [List.length_append] at whole
  omega

theorem Fits.right (h : sink.Fits (s ++ t)) : (sink.take s).Fits t := by
  intro room limit
  obtain ⟨before, limit', rfl⟩ := Option.map_eq_some_iff.mp limit
  have whole := h before limit'
  rw [List.length_append] at whole
  omega

/-- A sink that has room left takes at least one byte, and no more than it has room for. -/
theorem call_of_room {offered : Bytes} (ne : offered ≠ []) (left : sink.room ≠ some 0) :
    ∃ count, 0 < count ∧ (∀ room ∈ sink.room, count ≤ room) ∧
      sink.call offered = (.ok count, sink.take (offered.take count)) := by
  have pos : 0 < offered.length := List.length_pos_iff.mpr ne
  refine ⟨min (sink.portion offered) (sink.room.getD offered.length), ?_, ?_, ?_⟩
  · cases limit : sink.room with
    | none =>
        simp only [portion, Option.getD_none]
        omega
    | some room =>
        have more : room ≠ 0 := fun zero => left (by rw [limit, zero])
        simp only [portion, Option.getD_some]
        omega
  · intro room limit
    rw [Option.mem_def.mp limit, Option.getD_some]
    exact Nat.min_le_right _ _
  · rw [call, if_neg left]

end Sink

namespace Writing

variable {α β : Type} {w : Writing α} {a : α} {s t : Bytes}

/-- The computation writes this text and ends with this result, unless the sink has no room for it
    all: then the sink is full before the end, and the computation fails. -/
structure Sends (w : Writing α) (text : Bytes) (result : α) : Prop where
  fits : ∀ sink : Sink, sink.Fits text → w.run.run sink = (.ok result, sink.take text)
  fails : ∀ (sink : Sink) (room : Nat), sink.room = some room → room < text.length →
    w.run.run sink = (.error .full, sink.take (text.take room))

theorem sends_pure (a : α) : Sends (pure a) [] a where
  fits sink _ := by
    rw [sink.take_nil]
    rfl
  fails _ _ _ less := absurd less (Nat.not_lt_zero _)

theorem run_bind_ok {f : α → Writing β} {sink after : Sink}
    (h : w.run.run sink = (.ok a, after)) : (w >>= f).run.run sink = (f a).run.run after := by
  rw [ExceptT.run_bind, StateT.run_bind, h]
  rfl

theorem run_bind_error {f : α → Writing β} {sink after : Sink} {e : SinkError}
    (h : w.run.run sink = (.error e, after)) : (w >>= f).run.run sink = (.error e, after) := by
  rw [ExceptT.run_bind, StateT.run_bind, h]
  rfl

theorem Sends.bind {f : α → Writing β} {b : β} (h : Sends w s a) (h' : Sends (f a) t b) :
    Sends (w >>= f) (s ++ t) b where
  fits sink room := by
    rw [run_bind_ok (h.fits sink room.left), h'.fits _ room.right, sink.take_take]
  fails sink room limit less := by
    rw [List.length_append] at less
    by_cases first : room < s.length
    · rw [run_bind_error (h.fails sink room limit first),
        List.take_append_of_le_length (Nat.le_of_lt first)]
    · have fits : sink.Fits s := by
        intro room' limit'
        cases limit.symm.trans limit'
        exact Nat.le_of_not_lt first
      have left : (sink.take s).room = some (room - s.length) := by
        rw [Sink.take, limit]
        rfl
      rw [run_bind_ok (h.fits sink fits), h'.fails _ _ left (by omega), sink.take_take,
        List.take_append, List.take_of_length_le (Nat.le_of_not_lt first)]

theorem Sends.andThen {v : Writing β} {b : β} (h : Sends w s a) (h' : Sends v t b) :
    Sends (do let _ ← w; v) (s ++ t) b :=
  h.bind h'

/-- One write, from what the sink made of its first call. -/
theorem run_put {bytes : Bytes} {sink after : Sink} {count : Nat} (ne : bytes ≠ [])
    (pos : 0 < count) (taken : sink.call bytes = (.ok count, after)) :
    (put bytes).run.run sink = (put (bytes.drop count)).run.run after := by
  have step : ((ExceptT.mk fun sink => sink.call bytes : Writing Nat)).run.run sink =
      (.ok count, after) := taken
  rw [put, dif_pos ne, run_bind_ok step, dif_neg (Nat.ne_of_gt pos)]

theorem run_put_full {bytes : Bytes} {sink : Sink} (ne : bytes ≠ []) (full : sink.room = some 0) :
    (put bytes).run.run sink = (.error .full, sink) := by
  have step : ((ExceptT.mk fun sink => sink.call bytes : Writing Nat)).run.run sink =
      (.error .full, sink) := if_pos full
  rw [put, dif_pos ne, run_bind_error step]

theorem put_fits (bytes : Bytes) (sink : Sink) (fits : sink.Fits bytes) :
    (put bytes).run.run sink = (.ok (), sink.take bytes) := by
  by_cases ne : bytes = []
  · rw [ne, put, dif_neg (by simp)]
    exact (sends_pure ()).fits sink (ne ▸ fits)
  · have pos : 0 < bytes.length := List.length_pos_iff.mpr ne
    have left : sink.room ≠ some 0 := fun full => absurd (fits 0 full) (Nat.not_le_of_lt pos)
    obtain ⟨count, progress, -, taken⟩ := Sink.call_of_room ne left
    have split : bytes.take count ++ bytes.drop count = bytes := List.take_append_drop count bytes
    have fits' : (sink.take (bytes.take count)).Fits (bytes.drop count) := by
      apply Sink.Fits.right
      rwa [split]
    rw [run_put ne progress taken, put_fits (bytes.drop count) _ fits', sink.take_take, split]
termination_by bytes.length
decreasing_by
  rw [List.length_drop]
  omega

theorem put_fails (bytes : Bytes) (sink : Sink) (room : Nat) (limit : sink.room = some room)
    (less : room < bytes.length) :
    (put bytes).run.run sink = (.error .full, sink.take (bytes.take room)) := by
  have ne : bytes ≠ [] := by
    rintro rfl
    cases less
  by_cases full : room = 0
  · rw [full, List.take_zero, sink.take_nil]
    exact run_put_full ne (full ▸ limit)
  · have left : sink.room ≠ some 0 := by
      rw [limit, ne_eq, Option.some.injEq]
      exact full
    obtain ⟨count, progress, within, taken⟩ := Sink.call_of_room ne left
    have le : count ≤ room := within room limit
    have short : (bytes.take count).length = count := by
      rw [List.length_take]
      omega
    have limit' : (sink.take (bytes.take count)).room = some (room - count) := by
      rw [Sink.take, limit, short]
      rfl
    have less' : room - count < (bytes.drop count).length := by
      rw [List.length_drop]
      omega
    rw [run_put ne progress taken, put_fails (bytes.drop count) _ _ limit' less', sink.take_take,
      ← List.take_add, Nat.add_sub_cancel' le]
termination_by bytes.length
decreasing_by
  rw [List.length_drop]
  omega

/-- A single write sends its bytes. -/
theorem sends_put (bytes : Bytes) : Sends (put bytes) bytes () where
  fits := put_fits bytes
  fails := put_fails bytes

/-- Whatever amounts a sink takes at once: without a limit it gets this text, and with one as much
    of the beginning as the limit allows, with a failure exactly if that is not all. -/
def Cut (w : Writing Unit) (text : Bytes) : Prop :=
  ∀ appetite, w.into ⟨[], none, appetite⟩ = ⟨text, false⟩ ∧
    ∀ limit, w.into ⟨[], some limit, appetite⟩ = ⟨text.take limit, decide (limit < text.length)⟩

theorem Sends.cut {w : Writing Unit} {text : Bytes} (h : Sends w text ()) : Cut w text := by
  intro appetite
  constructor
  · have unlimited : (⟨[], none, appetite⟩ : Sink).Fits text := by
      intro room limit
      cases limit
    rw [into, h.fits _ unlimited]
    rfl
  · intro limit
    by_cases less : limit < text.length
    · rw [into, h.fails _ limit rfl less, decide_eq_true less]
      rfl
    · have fits : (⟨[], some limit, appetite⟩ : Sink).Fits text := by
        intro room same
        cases same
        exact Nat.le_of_not_lt less
      rw [into, h.fits _ fits, decide_eq_false less,
        List.take_of_length_le (Nat.le_of_not_lt less)]
      rfl

end Writing

open Writing (Sends sends_pure sends_put)

/-! ## Banners -/

namespace Banner

theorem sends_dashes (n : Nat) : Sends (writeDashes n) (dashes n).flatten () := by
  induction n using writeDashes.induct with
  | case1 =>
      rw [writeDashes, dashes]
      exact sends_pure ()
  | case2 n more size ih =>
      rw [writeDashes, dashes, if_neg more, if_neg more, List.flatten_cons]
      exact (sends_put _).bind ih

theorem sends_header (banner : Banner) (program : Bytes) :
    Sends (banner.writeHeader program) (banner.header program).flatten () := by
  have text : (banner.header program).flatten =
      [Bytes.newline] ++ ((dashes banner.leading).flatten ++ (utf8 " " ++ (program ++ (verdict ++
        (utf8 " " ++ ((dashes banner.trailing).flatten ++ [Bytes.newline])))))) := by
    simp only [header, List.flatten_append, List.flatten_cons, List.flatten_nil, List.append_nil,
      List.append_assoc]
  rw [text]
  exact (sends_put _).andThen <| (sends_dashes _).andThen <| (sends_put _).andThen <|
    (sends_put _).andThen <| (sends_put _).andThen <| (sends_put _).andThen <|
    (sends_dashes _).andThen <| sends_put _

theorem sends_footer (banner : Banner) : Sends banner.writeFooter banner.footer.flatten () := by
  rw [footer, List.flatten_append]
  exact (sends_dashes banner.width).bind (sends_put [Bytes.newline])

end Banner

/-! ## Extra lines -/

namespace ExtraLines

variable {store : LineStore}

theorem sends_lines (max : Option Nat) (shown : Nat) (lines : List Bytes) :
    Sends (writeLines max shown lines) (emitLines max shown lines).1.flatten
      (emitLines max shown lines).2 := by
  induction lines generalizing shown with
  | nil => exact sends_pure (some shown)
  | cons text rest ih =>
      rw [writeLines, emitLines]
      split
      · exact (sends_put truncated).bind (sends_pure none)
      · have later := ih (shown + 1)
        show Sends _ (line text ++ (emitLines max (shown + 1) rest).1).flatten
          (emitLines max (shown + 1) rest).2
        rw [List.flatten_append, line]
        by_cases ends : text.getLast? = some Bytes.newline
        · rw [if_pos ends, if_neg (not_not_intro ends)]
          simpa using (sends_put text).andThen later
        · rw [if_neg ends, if_pos ends]
          simpa using (sends_put text).andThen ((sends_put [Bytes.newline]).andThen later)

theorem visible_cons_of_none {key : Bytes} {number : Nat} (read : store.read? number = none)
    (rest : Keyed Nat) : visible ⟨(key, number) :: rest⟩ store = visible ⟨rest⟩ store := by
  simp [visible, read]

theorem visible_cons_of_some {key : Bytes} {number : Nat} {lines : List Bytes}
    (read : store.read? number = some lines) (rest : Keyed Nat) :
    visible ⟨(key, number) :: rest⟩ store = (key, lines) :: visible ⟨rest⟩ store := by
  simp [visible, read]

theorem flatten_heading (key : Bytes) (more : Fragments) :
    (heading key ++ more).flatten =
      [Bytes.newline] ++ (key ++ (utf8 ":\n" ++ more.flatten)) := by
  simp only [heading, List.flatten_append, List.flatten_cons, List.flatten_nil, List.append_nil,
    List.append_assoc]

theorem sends_entries (max : Option Nat) (shown : Nat) (entries : Keyed Nat) :
    Sends (writeEntries store max shown entries)
      (emitEntries max shown (visible ⟨entries⟩ store)).flatten () := by
  induction entries generalizing shown with
  | nil => exact sends_pure ()
  | cons entry rest ih =>
      obtain ⟨key, number⟩ := entry
      rw [writeEntries]
      cases read : store.read? number with
      | none =>
          rw [visible_cons_of_none read]
          exact ih shown
      | some lines =>
          have written := sends_lines max shown lines
          rw [visible_cons_of_some read, emitEntries]
          cases emitted : emitLines max shown lines with
          | mk fragments after =>
              rw [emitted] at written
              cases after with
              | none =>
                  -- The preview ends among the lines of this entry.
                  show Sends _ (heading key ++ fragments).flatten ()
                  rw [flatten_heading, ← List.append_nil fragments.flatten]
                  exact (sends_put _).andThen <| (sends_put _).andThen <|
                    (sends_put _).andThen <| written.bind (sends_pure ())
              | some sofar =>
                  show Sends _ (heading key ++ fragments ++
                    emitEntries max sofar (visible ⟨rest⟩ store)).flatten ()
                  rw [List.append_assoc, flatten_heading, List.flatten_append]
                  exact (sends_put _).andThen <| (sends_put _).andThen <|
                    (sends_put _).andThen <| written.bind (ih sofar)

/-- Writing sends what is to be emitted. -/
theorem sends_write (registry : ExtraLines) (store : LineStore) (max : Option Nat) :
    Sends (registry.write store max) (registry.emit store max).flatten () :=
  sends_entries max 0 registry.entries

end ExtraLines

/-! ## Lines of a stack trace -/

namespace Frames

theorem sends_print (symbolize : Symbolizer) (frames : List Address) (skipUnknown : Bool) :
    Sends (print symbolize frames skipUnknown)
      (printed symbolize frames skipUnknown).flatten () := by
  rw [print, printed]
  induction lines symbolize frames skipUnknown with
  | nil => exact sends_pure ()
  | cons l rest ih =>
      rw [List.flatMap_cons, List.flatten_append]
      have one : List.flatten [l, [Bytes.newline]] = l ++ [Bytes.newline] := by simp
      rw [one, List.append_assoc, writeLines]
      exact (sends_put l).andThen ((sends_put [Bytes.newline]).andThen ih)

end Frames

/-- Header and footer of a banner, the extra lines or a preview of them, and the lines of a stack
    trace are written to a sink with a limit as far as that goes, and no further: the sink gets the
    beginning of the text that a sink without a limit gets, of the length of the limit, and writing
    fails exactly if the text is longer. -/
theorem failing_sink_prefix :
    (∀ (banner : Banner) (program : Bytes),
      (banner.writeHeader program).Cut (banner.header program).flatten) ∧
    (∀ banner : Banner, banner.writeFooter.Cut banner.footer.flatten) ∧
    (∀ (registry : ExtraLines) (store : LineStore) (max : Option Nat),
      (registry.write store max).Cut (registry.emit store max).flatten) ∧
    ∀ (symbolize : Symbolizer) (frames : List Address) (skipUnknown : Bool),
      (Frames.print symbolize frames skipUnknown).Cut
        (Frames.printed symbolize frames skipUnknown).flatten :=
  ⟨fun banner program => (banner.sends_header program).cut, fun banner => banner.sends_footer.cut,
    fun registry store max => (registry.sends_write store max).cut,
    fun symbolize frames skipUnknown => (Frames.sends_print symbolize frames skipUnknown).cut⟩

end Postmortem

import Postmortem.Proofs.Keyed
import Postmortem.Proofs.Preview
import Postmortem.World

/-! # What the registered lines come to

The registry is filled and the lines change in the course of a process, in any order. What a report
shows in the end is told here by that history alone: a key shows the lines of the buffer that was
registered under it last, as they are by then, if the buffer had lines when it was registered and
its owner has not gone away since.
-/

namespace Postmortem

/-! ## Histories -/

/-- What happens to the lines that others provide, and to their registration. -/
inductive LineEvent where
  /-- A buffer of this name is created, or the lines in it are replaced. -/
  | provide (name : Bytes) (lines : List Bytes)
  /-- The owner of the buffer of this name goes away. -/
  | drop (name : Bytes)
  /-- The buffer of this name, or none, is registered under a key. -/
  | register (key : Bytes) (buffer : Option Bytes)
  deriving Repr, DecidableEq

namespace LineEvent

/-- What an event does to the lines under one name. -/
def change (name : Bytes) (now : Option (List Bytes)) : LineEvent → Option (List Bytes)
  | provide n lines => if n = name then some lines else now
  | drop n => if n = name then none else now
  | register _ _ => now

/-- The lines of the buffer that has this name after a history, if there is one. -/
def current (history : List LineEvent) (name : Bytes) : Option (List Bytes) :=
  history.foldl (change name) none

/-- A key was last registered with the buffer of this name, which had lines then and whose owner has
    not gone away since. -/
def Shows (history : List LineEvent) (key name : Bytes) : Prop :=
  ∃ before after, history = before ++ register key (some name) :: after ∧
    (∃ line rest, current before name = some (line :: rest)) ∧
    (∀ buffer, register key buffer ∉ after) ∧ drop name ∉ after

variable {history : List LineEvent} {event : LineEvent} {key name : Bytes} {buffer : Option Bytes}

theorem current_concat : current (history ++ [event]) name = change name (current history name) event :=
  List.foldl_concat ..

/-- One event more. -/
theorem shows_concat : Shows (history ++ [event]) key name ↔
    (event = register key (some name) ∧ ∃ line rest, current history name = some (line :: rest)) ∨
      Shows history key name ∧ (∀ buffer, event ≠ register key buffer) ∧ event ≠ drop name := by
  constructor
  · rintro ⟨before, after, split, nonempty, last, kept⟩
    obtain rfl | ⟨after, final, rfl⟩ := List.eq_nil_or_concat after
    · obtain ⟨rfl, same⟩ := List.append_inj' split rfl
      exact .inl ⟨List.singleton_inj.mp same, nonempty⟩
    · rw [List.concat_eq_append, ← List.cons_append, ← List.append_assoc] at split
      obtain ⟨rfl, same⟩ := List.append_inj' split rfl
      obtain rfl := List.singleton_inj.mp same
      simp only [List.concat_eq_append, List.mem_append, List.mem_singleton, not_or] at last kept
      exact .inr ⟨⟨before, after, rfl, nonempty, fun buffer => (last buffer).1, kept.1⟩,
        fun buffer => Ne.symm (last buffer).2, Ne.symm kept.2⟩
  · rintro (⟨rfl, nonempty⟩ | ⟨⟨before, after, rfl, nonempty, last, kept⟩, other, stays⟩)
    · exact ⟨history, [], rfl, nonempty, by simp, by simp⟩
    · refine ⟨before, after ++ [event], by simp, nonempty, ?_, ?_⟩
      · intro buffer member
        obtain member | member := List.mem_append.mp member
        · exact last buffer member
        · exact other buffer (List.mem_singleton.mp member).symm
      · intro member
        obtain member | member := List.mem_append.mp member
        · exact kept member
        · exact stays (List.mem_singleton.mp member).symm

/-- Whoever shows something is there. -/
theorem Shows.current (h : Shows history key name) : ∃ lines, current history name = some lines := by
  induction history using List.reverseRecOn with
  | nil =>
      obtain ⟨before, after, split, -⟩ := h
      simp at split
  | append_singleton history event ih =>
      rw [current_concat]
      obtain ⟨rfl, line, rest, now⟩ | ⟨shows, -, stays⟩ := shows_concat.mp h
      · exact ⟨line :: rest, now⟩
      · obtain ⟨lines, now⟩ := ih shows
        cases event with
        | provide n lines' =>
            rw [change]
            split
            · exact ⟨lines', rfl⟩
            · exact ⟨lines, now⟩
        | drop n =>
            have other : n ≠ name := fun same => stays (congrArg drop same)
            rw [change, if_neg other]
            exact ⟨lines, now⟩
        | register k buffer => exact ⟨lines, now⟩

end LineEvent

/-! ## The store of lines -/

/-- The buffer with other lines, if it has this number. -/
def LineBuffer.refilled (number : Nat) (lines : List Bytes) (b : LineBuffer) : LineBuffer :=
  if b.number = number then { b with lines := lines } else b

namespace LineBuffer

variable (n : Nat) (lines : List Bytes) (b : LineBuffer)

@[simp] theorem number_refilled : (b.refilled n lines).number = b.number := by
  rw [refilled]
  split <;> rfl

@[simp] theorem name_refilled : (b.refilled n lines).name = b.name := by
  rw [refilled]
  split <;> rfl

end LineBuffer

namespace LineStore

variable {store : LineStore} {b c : LineBuffer} {name other : Bytes} {lines : List Bytes}

/-- Buffers are told apart by their numbers and by their names, and no number is used again. -/
structure Sound (store : LineStore) : Prop where
  numbers : (store.owned.map (·.number)).Nodup
  names : (store.owned.map (·.name)).Nodup
  below : ∀ b ∈ store.owned, b.number < store.next

theorem mem_of_find? (found : store.find? name = some b) : b ∈ store.owned ∧ b.name = name :=
  ⟨List.mem_of_find?_eq_some found, by simpa using List.find?_some found⟩

theorem Sound.find?_iff (h : store.Sound) :
    store.find? name = some b ↔ b ∈ store.owned ∧ b.name = name := by
  refine ⟨mem_of_find?, ?_⟩
  rintro ⟨member, rfl⟩
  have some : (store.find? b.name).isSome := List.find?_isSome.mpr ⟨b, member, by simp⟩
  obtain ⟨c, found⟩ := Option.isSome_iff_exists.mp some
  obtain ⟨member', same⟩ := mem_of_find? found
  rw [found, List.inj_on_of_nodup_map h.names member' member same]

theorem put_of_found (found : store.find? name = some b) (lines : List Bytes) :
    store.put name lines = { store with owned := store.owned.map (·.refilled b.number lines) } := by
  rw [put, found]
  rfl

theorem put_of_absent (absent : store.find? name = none) (lines : List Bytes) :
    store.put name lines = ⟨store.owned ++ [⟨store.next, name, lines, false⟩], store.next + 1⟩ := by
  rw [put, absent]

theorem sound_empty : empty.Sound := ⟨List.nodup_nil, List.nodup_nil, by simp [empty]⟩

theorem Sound.put (h : store.Sound) (name : Bytes) (lines : List Bytes) :
    (store.put name lines).Sound := by
  cases found : store.find? name with
  | some b =>
      rw [put_of_found found]
      refine ⟨?_, ?_, ?_⟩
      · simpa [Function.comp_def] using h.numbers
      · simpa [Function.comp_def] using h.names
      · intro c member
        obtain ⟨old, inStore, rfl⟩ := List.mem_map.mp member
        rw [LineBuffer.number_refilled]
        exact h.below old inStore
  | none =>
      rw [put_of_absent found]
      have newName : name ∉ store.owned.map (·.name) := by
        intro member
        obtain ⟨b, inStore, same⟩ := List.mem_map.mp member
        rw [h.find?_iff.mpr ⟨inStore, same⟩] at found
        cases found
      have newNumber : store.next ∉ store.owned.map (·.number) := by
        intro member
        obtain ⟨b, inStore, same⟩ := List.mem_map.mp member
        exact absurd (h.below b inStore) (same ▸ Nat.lt_irrefl _)
      refine ⟨?_, ?_, ?_⟩
      · rw [List.map_append, List.map_singleton, ← List.concat_eq_append]
        exact h.numbers.concat newNumber
      · rw [List.map_append, List.map_singleton, ← List.concat_eq_append]
        exact h.names.concat newName
      · intro b member
        obtain old | new := List.mem_append.mp member
        · exact Nat.lt_succ_of_lt (h.below b old)
        · obtain rfl := List.mem_singleton.mp new
          exact Nat.lt_succ_self _

theorem Sound.drop (h : store.Sound) (name : Bytes) : (store.drop name).Sound where
  numbers := h.numbers.sublist (List.filter_sublist.map _)
  names := h.names.sublist (List.filter_sublist.map _)
  below b member := h.below b (List.mem_of_mem_filter member)

/-- What is put under one name changes nothing under another. -/
theorem Sound.find?_put_other (h : store.Sound) (ne : other ≠ name) (lines : List Bytes) :
    (store.put name lines).find? other = store.find? other := by
  cases found : store.find? name with
  | some b =>
      rw [put_of_found found, find?, List.find?_map]
      simp only [Function.comp_def, LineBuffer.name_refilled]
      show (store.find? other).map _ = store.find? other
      cases there : store.find? other with
      | none => rfl
      | some c =>
          obtain ⟨inStore, named⟩ := mem_of_find? found
          obtain ⟨inStore', named'⟩ := mem_of_find? there
          have apart : c.number ≠ b.number := by
            intro same
            have equal := List.inj_on_of_nodup_map h.numbers inStore' inStore same
            exact ne (named' ▸ equal ▸ named)
          rw [Option.map_some, LineBuffer.refilled, if_neg apart]
  | none =>
      rw [put_of_absent found, find?, List.find?_append]
      simp [find?, Ne.symm ne]

/-- What is put under a name is found there, in the buffer that was there or in a new one. -/
theorem find?_put_self (store : LineStore) (name : Bytes) (lines : List Bytes) :
    ∃ c, (store.put name lines).find? name = some c ∧ c.lines = lines ∧
      ((∃ b, store.find? name = some b ∧ c.number = b.number) ∨
        store.find? name = none ∧ c.number = store.next) := by
  cases found : store.find? name with
  | some b =>
      refine ⟨b.refilled b.number lines, ?_, by simp [LineBuffer.refilled], .inl ⟨b, rfl, by simp⟩⟩
      rw [put_of_found found, find?, List.find?_map]
      simp only [Function.comp_def, LineBuffer.name_refilled]
      show (store.find? name).map _ = _
      rw [found, Option.map_some]
  | none =>
      refine ⟨⟨store.next, name, lines, false⟩, ?_, rfl, .inr ⟨rfl, rfl⟩⟩
      have absent : store.owned.find? (fun b => decide (b.name = name)) = none := found
      rw [put_of_absent found, find?, List.find?_append, absent]
      simp

theorem find?_drop (store : LineStore) (name other : Bytes) :
    (store.drop name).find? other = if other = name then none else store.find? other := by
  rw [drop, find?, List.find?_filter]
  split
  · next same =>
    subst same
    rw [List.find?_eq_none]
    simp
  · next ne =>
    rw [find?]
    congr 1
    funext b
    by_cases here : b.name = other
    · simp [here, ne]
    · simp [here]

/-- The lines of a buffer that has an owner and is not being changed. -/
theorem Sound.read?_withBusy (h : store.Sound) (lines busy : List Bytes) (number : Nat) :
    (store.withBusy busy).read? number = some lines ↔
      ∃ b ∈ store.owned, b.number = number ∧ b.name ∉ busy ∧ b.lines = lines := by
  rw [read?, withBusy, List.find?_map]
  simp only [Function.comp_def]
  constructor
  · intro read
    cases found : store.owned.find? fun b => decide (b.number = number) with
    | none => simp [found] at read
    | some b =>
        have same : b.number = number := by simpa using List.find?_some found
        simp only [found, Option.map_some, List.contains_iff_mem] at read
        split at read
        · cases read
        · next idle =>
          exact ⟨b, List.mem_of_find?_eq_some found, same, idle, Option.some.inj read⟩
  · rintro ⟨b, member, rfl, idle, rfl⟩
    have some : (store.owned.find? fun c => decide (c.number = b.number)).isSome :=
      List.find?_isSome.mpr ⟨b, member, by simp⟩
    obtain ⟨c, found⟩ := Option.isSome_iff_exists.mp some
    have same : c.number = b.number := by simpa using List.find?_some found
    obtain rfl := List.inj_on_of_nodup_map h.numbers (List.mem_of_find?_eq_some found) member same
    simp [found, idle]

end LineStore

/-! ## Events -/

namespace LineEvent

/-- What an event does. -/
def apply (w : World) : LineEvent → World
  | provide name lines => { w with lines := w.lines.put name lines }
  | drop name => { w with lines := w.lines.drop name }
  | register key buffer =>
    match w.context.setExtraLines key (buffer.bind w.lines.find?) with
    | .ok context => { w with context }
    | .error _ => w

/-- The registry and the store after a history. -/
structure Agrees (history : List LineEvent) (entries : Keyed Nat) (store : LineStore) : Prop where
  sound : store.Sound
  sorted : entries.Sorted
  below : ∀ key number, (key, number) ∈ entries → number < store.next
  lines : ∀ name, (store.find? name).map (·.lines) = current history name
  shows : ∀ key name, Shows history key name ↔
    ∃ b, store.find? name = some b ∧ (key, b.number) ∈ entries

variable {history : List LineEvent} {entries : Keyed Nat} {store : LineStore} {key name : Bytes}

theorem agrees_empty : Agrees [] [] .empty where
  sound := LineStore.sound_empty
  sorted := List.Pairwise.nil
  below _ _ member := by cases member
  lines _ := rfl
  shows key name := by
    refine ⟨?_, ?_⟩
    · rintro ⟨before, after, split, -⟩
      simp at split
    · rintro ⟨b, found, -⟩
      cases found

theorem Agrees.provide (h : Agrees history entries store) (name : Bytes) (lines : List Bytes) :
    Agrees (history ++ [.provide name lines]) entries (store.put name lines) := by
  obtain ⟨c, found, refilled, number⟩ := store.find?_put_self name lines
  refine ⟨h.sound.put name lines, h.sorted, ?_, ?_, ?_⟩
  · intro key number member
    have next : store.next ≤ (store.put name lines).next := by
      rw [LineStore.put]
      split
      · exact Nat.le_refl _
      · exact Nat.le_succ _
    exact Nat.lt_of_lt_of_le (h.below key number member) next
  · intro other
    rw [current_concat, change]
    by_cases same : name = other
    · subst same
      rw [found, if_pos rfl, Option.map_some, refilled]
    · rw [h.sound.find?_put_other (Ne.symm same), if_neg same, h.lines]
  · intro key other
    rw [shows_concat, h.shows]
    simp only [reduceCtorEq, false_and, false_or, ne_eq, not_false_eq_true, implies_true, and_true]
    by_cases same : other = name
    · subst same
      rw [found]
      obtain ⟨b, was, number⟩ | ⟨was, number⟩ := number
      · simp [was, number]
      · simp only [was, Option.some.injEq, exists_eq_left', number, reduceCtorEq, false_and,
          exists_false, false_iff]
        exact fun member => Nat.lt_irrefl _ (h.below key store.next member)
    · rw [h.sound.find?_put_other same]

theorem Agrees.drop (h : Agrees history entries store) (name : Bytes) :
    Agrees (history ++ [.drop name]) entries (store.drop name) := by
  refine ⟨h.sound.drop name, h.sorted, h.below, ?_, ?_⟩
  · intro other
    rw [current_concat, change, LineStore.find?_drop]
    by_cases same : name = other
    · simp [same]
    · rw [if_neg same, if_neg (Ne.symm same), h.lines]
  · intro key other
    rw [shows_concat, h.shows, LineStore.find?_drop]
    by_cases same : other = name
    · simp [same]
    · simp [same, Ne.symm same]

/-- A registration without a buffer, or with one that has no lines, takes the key away. -/
theorem Agrees.erase (h : Agrees history entries store) {buffer : Option Bytes}
    (nothing : ∀ name line rest, buffer = some name → current history name ≠ some (line :: rest)) :
    Agrees (history ++ [.register key buffer]) (entries.erase key) store := by
  refine ⟨h.sound, h.sorted.erase key, ?_, ?_, ?_⟩
  · exact fun k number member => h.below k number (Keyed.mem_erase.mp member).2
  · intro name
    rw [current_concat, change, h.lines]
  · intro k name
    rw [shows_concat, h.shows]
    simp only [Keyed.mem_erase, ne_eq, register.injEq]
    constructor
    · rintro (⟨⟨rfl, rfl⟩, line, rest, now⟩ | ⟨⟨b, found, member⟩, other, -⟩)
      · exact absurd now (nothing name line rest rfl)
      · exact ⟨b, found, fun same => other buffer ⟨same.symm, rfl⟩, member⟩
    · rintro ⟨b, found, ne, member⟩
      exact .inr ⟨⟨b, found, member⟩, fun _ same => ne same.1.symm, by simp⟩

theorem Agrees.insert (h : Agrees history entries store) {b : LineBuffer} {line : Bytes}
    {rest : List Bytes} (found : store.find? name = some b) (holds : b.lines = line :: rest) :
    Agrees (history ++ [.register key (some name)]) (entries.insert key b.number) store := by
  refine ⟨h.sound, h.sorted.insert key b.number, ?_, ?_, ?_⟩
  · intro k number member
    obtain ⟨-, rfl⟩ | ⟨-, member⟩ := h.sorted.mem_insert.mp member
    · exact h.sound.below b (LineStore.mem_of_find? found).1
    · exact h.below k number member
  · intro other
    rw [current_concat, change, h.lines]
  · intro k other
    rw [shows_concat, h.shows]
    simp only [h.sorted.mem_insert, ne_eq, register.injEq]
    constructor
    · rintro (⟨⟨rfl, same⟩, -⟩ | ⟨⟨c, found', member⟩, ne, -⟩)
      · obtain rfl := Option.some.inj same
        exact ⟨b, found, .inl ⟨rfl, rfl⟩⟩
      · exact ⟨c, found', .inr ⟨fun same => ne _ ⟨same.symm, rfl⟩, member⟩⟩
    · rintro ⟨c, found', ⟨rfl, number⟩ | ⟨ne, member⟩⟩
      · obtain ⟨inStore, rfl⟩ := LineStore.mem_of_find? found
        obtain ⟨inStore', rfl⟩ := LineStore.mem_of_find? found'
        obtain rfl := List.inj_on_of_nodup_map h.sound.numbers inStore' inStore number
        exact .inl ⟨⟨rfl, rfl⟩, line, rest, by rw [← h.lines, found, Option.map_some, holds]⟩
      · exact .inr ⟨⟨c, found', member⟩, fun _ same => ne same.1.symm, by simp⟩

theorem Agrees.set (h : Agrees history entries store) (key : Bytes) (buffer : Option Bytes) :
    ∃ entries', (⟨entries⟩ : ExtraLines).set key (buffer.bind store.find?) = ⟨entries'⟩ ∧
      Agrees (history ++ [.register key buffer]) entries' store := by
  cases found : buffer.bind store.find? with
  | none =>
      refine ⟨entries.erase key, rfl, h.erase ?_⟩
      rintro name line rest rfl now
      rw [← h.lines, show store.find? name = none from found] at now
      cases now
  | some b =>
      obtain ⟨name, rfl, there⟩ := Option.bind_eq_some_iff.mp found
      cases holds : b.lines with
      | nil =>
          refine ⟨entries.erase key, by simp [ExtraLines.set, holds], h.erase ?_⟩
          rintro _ line rest ⟨⟩ now
          rw [← h.lines, there, Option.map_some, holds] at now
          cases now
      | cons line rest =>
          exact ⟨entries.insert key b.number, by simp [ExtraLines.set, holds], h.insert there holds⟩

/-- The state after a history. -/
def afterAll (history : List LineEvent) (w : World) : World := history.foldl apply w

/-- The registry and the store agree with the history, whatever that is. -/
theorem agrees_afterAll (m : Machine) (history : List LineEvent) :
    ∃ entries, (afterAll history (.start m)).context.extraLines = .new ⟨entries⟩ ∧
      Agrees history entries (afterAll history (.start m)).lines := by
  induction history using List.reverseRecOn with
  | nil => exact ⟨[], rfl, agrees_empty⟩
  | append_singleton history event ih =>
      obtain ⟨entries, registry, agrees⟩ := ih
      rw [afterAll, List.foldl_concat, ← afterAll]
      cases event with
      | provide name lines => exact ⟨entries, registry, agrees.provide name lines⟩
      | drop name => exact ⟨entries, registry, agrees.drop name⟩
      | register key buffer =>
          obtain ⟨entries', set, agrees'⟩ := agrees.set key buffer
          refine ⟨entries', ?_, ?_⟩
          · rw [apply, Context.setExtraLines, registry, ← set]
            rfl
          · rw [apply, Context.setExtraLines, registry]
            exact agrees'

/-! ## What is shown -/

/-- The text of an entry: a heading, and the lines with an end to each that has none. -/
def block (key : Bytes) (lines : List Bytes) : Bytes :=
  Bytes.newline :: (key ++ utf8 ":\n") ++ lines.flatMap fun line =>
    if line.getLast? = some Bytes.newline then line else line ++ [Bytes.newline]

end LineEvent

namespace ExtraLines

open LineEvent (block)

theorem flatten_lines (lines : List Bytes) :
    (lines.flatMap line).flatten = lines.flatMap fun line =>
      if line.getLast? = some Bytes.newline then line else line ++ [Bytes.newline] := by
  induction lines with
  | nil => rfl
  | cons text rest ih =>
      rw [List.flatMap_cons, List.flatten_append, ih, List.flatMap_cons, line]
      split <;> simp

theorem flatten_full (entries : List (Bytes × List Bytes)) :
    (full entries).flatten = entries.flatMap fun (key, lines) => block key lines := by
  induction entries with
  | nil => rfl
  | cons entry rest ih =>
      obtain ⟨key, lines⟩ := entry
      rw [full_cons, List.flatten_append, List.flatten_append, flatten_lines, ih]
      simp [block, heading]

end ExtraLines

namespace LineEvent

variable {history : List LineEvent} {entries : Keyed Nat} {store : LineStore} {key name : Bytes}

/-- What can be shown is what the history says. -/
theorem Agrees.mem_visible (h : Agrees history entries store) {busy : List Bytes}
    {lines : List Bytes} :
    (key, lines) ∈ (⟨entries⟩ : ExtraLines).visible (store.withBusy busy) ↔
      ∃ name, Shows history key name ∧ name ∉ busy ∧ current history name = some lines := by
  have read (number : Nat) := h.sound.read?_withBusy lines busy number
  simp only [ExtraLines.visible, List.mem_filterMap, Option.map_eq_some_iff, Prod.mk.injEq,
    Prod.exists, h.shows]
  constructor
  · rintro ⟨k, number, member, found, shown, rfl, rfl⟩
    obtain ⟨b, inStore, rfl, idle, rfl⟩ := (read number).mp shown
    have here := h.sound.find?_iff.mpr ⟨inStore, rfl⟩
    exact ⟨b.name, ⟨b, here, member⟩, idle, by rw [← h.lines, here, Option.map_some]⟩
  · rintro ⟨name, ⟨b, found, member⟩, idle, now⟩
    rw [← h.lines, found, Option.map_some, Option.some.injEq] at now
    obtain ⟨inStore, rfl⟩ := LineStore.mem_of_find? found
    exact ⟨key, b.number, member, lines, (read _).mpr ⟨b, inStore, rfl, idle, now⟩, rfl, rfl⟩

theorem Agrees.sorted_visible (h : Agrees history entries store) (busy : List Bytes) :
    ((⟨entries⟩ : ExtraLines).visible (store.withBusy busy)).Pairwise
      fun a b => Bytes.precedes a.1 b.1 = true := by
  refine List.Pairwise.filterMap _ (fun a b before c shown d shown' => ?_) h.sorted
  obtain ⟨_, -, rfl⟩ := Option.map_eq_some_iff.mp shown
  obtain ⟨_, -, rfl⟩ := Option.map_eq_some_iff.mp shown'
  exact before

/-! ## All histories -/

/-- A buffer that is emptied is still shown, with nothing under its heading. -/
theorem shows_emptied (shown : Shows history key name) :
    Shows (history ++ [.provide name []]) key name ∧
      current (history ++ [.provide name []]) name = some [] := by
  refine ⟨shows_concat.mpr (.inr ⟨shown, by simp, by simp⟩), ?_⟩
  rw [current_concat, change, if_pos rfl]

/-- A buffer whose owner has gone away is not shown again, whoever takes its name, unless it is
    registered again. -/
theorem not_shows_dropped (later : List LineEvent)
    (notAgain : ∀ buffer, .register key buffer ∉ later) :
    ¬ Shows (history ++ .drop name :: later) key name := by
  induction later using List.reverseRecOn with
  | nil =>
      rw [shows_concat]
      simp
  | append_singleton later event ih =>
      rw [← List.cons_append, ← List.append_assoc, shows_concat]
      rintro (⟨rfl, -⟩ | ⟨shown, -⟩)
      · exact notAgain (some name) (by simp)
      · exact ih (fun buffer member => notAgain buffer (List.mem_append_left _ member)) shown

/-- What is registered under one key is nothing to another. -/
theorem shows_register_other {k : Bytes} (ne : k ≠ key) (buffer : Option Bytes) :
    Shows (history ++ [.register k buffer]) key name ↔ Shows history key name := by
  rw [shows_concat]
  simp [ne]

/-- After every history a full text has an entry for each key that shows a buffer which is not being
    changed, in the order of the keys, with the lines of the buffer as they are, and no other. A
    buffer that was emptied keeps its heading, one whose owner has gone away does not come back, and
    keys do not affect each other. -/
theorem extra_lines_exact (m : Machine) (history : List LineEvent) (busy : List Bytes) :
    (∃ shown : List (Bytes × List Bytes),
      shown.Pairwise (fun a b => Bytes.precedes a.1 b.1 = true) ∧
      (∀ key lines, (key, lines) ∈ shown ↔
        ∃ name, Shows history key name ∧ name ∉ busy ∧ current history name = some lines) ∧
      let w := afterAll history (.start m)
      (w.context.extraText (w.lines.withBusy busy) none).flatten =
        shown.flatMap fun (key, lines) => block key lines) ∧
    (∀ key name, Shows history key name → Shows (history ++ [.provide name []]) key name ∧
      current (history ++ [.provide name []]) name = some []) ∧
    (∀ key name later, (∀ buffer, .register key buffer ∉ later) →
      ¬ Shows (history ++ .drop name :: later) key name) ∧
    (∀ key other name buffer, other ≠ key →
      (Shows (history ++ [.register other buffer]) key name ↔ Shows history key name)) := by
  obtain ⟨entries, registry, agrees⟩ := agrees_afterAll m history
  refine ⟨⟨_, agrees.sorted_visible busy, fun _ _ => agrees.mem_visible, ?_⟩,
    fun _ _ => shows_emptied, fun _ _ later => not_shows_dropped later,
    fun _ _ _ buffer ne => shows_register_other ne buffer⟩
  dsimp only
  rw [Context.extraText, registry]
  have shown := ExtraLines.emitEntries_none 0
    ((⟨entries⟩ : ExtraLines).visible ((afterAll history (World.start m)).lines.withBusy busy))
  exact (congrArg List.flatten shown).trans (ExtraLines.flatten_full _)

end LineEvent

end Postmortem

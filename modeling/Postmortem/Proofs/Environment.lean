import Postmortem.Proofs.CString
import Postmortem.Environment

/-! # Looking up the environment

Each entry is compared with the name as far as that reaches, and the byte after it is looked at only
if they agree. Then the entry has not ended before that byte, which may be its NUL. So the look-up
stays inside the entries, however short they are, and finds the first that gives the name a value.
-/

namespace Postmortem.Environment

variable {name entry value : CString} {rest : List Memory}

/-- An entry where it lies, with what comes after its NUL. -/
structure Placed where
  text : CString
  after : Bytes

def Placed.memory (e : Placed) : Memory := e.text.memory e.after

/-- The first entry that begins with the name and an equals sign goes on with this value. -/
inductive Gives (name : CString) : List CString → CString → Prop where
  | here {entry value : CString} {entries : List CString} :
      entry.bytes = name.bytes ++ utf8 "=" ++ value.bytes → Gives name (entry :: entries) value
  | later {entry value : CString} {entries : List CString} :
      ¬ name.bytes ++ utf8 "=" <+: entry.bytes → Gives name entries value →
        Gives name (entry :: entries) value

/-! ## One entry -/

/-- What begins with the name and an equals sign goes on with a value. -/
theorem exists_value (begins : name.bytes ++ utf8 "=" <+: entry.bytes) :
    ∃ value : CString, entry.bytes = name.bytes ++ utf8 "=" ++ value.bytes := by
  obtain ⟨more, whole⟩ := begins
  refine ⟨⟨more, fun nul => entry.nul_notMem ?_⟩, whole.symm⟩
  rw [← whole]
  exact List.mem_append_right _ nul

theorem drop_memory {more : Bytes} (whole : entry.bytes = name.bytes ++ more) (after : Bytes) :
    (entry.memory after).drop name.bytes.length = more ++ 0 :: after := by
  rw [CString.memory, whole, List.append_assoc, List.drop_left]

theorem scan_of_gives (given : entry.bytes = name.bytes ++ utf8 "=" ++ value.bytes)
    (after : Bytes) : scan name (entry.memory after :: rest) = .ok (some value) := by
  have agrees : Memory.agree name.bytes.length (entry.memory after) (name.memory []) = .ok true := by
    simp [Memory.agree_memory, given]
  have sign : (entry.memory after).drop name.bytes.length = equals :: value.memory after := by
    rw [List.append_assoc] at given
    exact drop_memory given after
  have behind : (entry.memory after).drop (name.bytes.length + 1) = value.memory after := by
    rw [← List.drop_drop, sign]
    rfl
  simp only [scan, agrees, sign, behind, Memory.head, Memory.string_memory, CString.untilNul_bytes,
    bind, Except.bind, pure, Except.pure, if_true]

theorem scan_of_not_begins (other : ¬ name.bytes ++ utf8 "=" <+: entry.bytes) (after : Bytes) :
    scan name (entry.memory after :: rest) = scan name rest := by
  by_cases agrees : entry.bytes.take name.bytes.length = name.bytes
  · have whole : entry.bytes = name.bytes ++ entry.bytes.drop name.bytes.length := by
      have joined := List.take_append_drop name.bytes.length entry.bytes
      rw [agrees] at joined
      exact joined.symm
    have compared : Memory.agree name.bytes.length (entry.memory after) (name.memory []) =
        .ok true := by
      simp [Memory.agree_memory, agrees]
    -- The entry goes on with another byte or ends, and then its NUL stands in that place.
    obtain ⟨b, more, place, ne⟩ : ∃ b more,
        (entry.memory after).drop name.bytes.length = b :: more ∧ b ≠ equals := by
      rw [drop_memory whole]
      cases left : entry.bytes.drop name.bytes.length with
      | nil => exact ⟨0, after, rfl, by decide⟩
      | cons b more =>
          refine ⟨b, more ++ 0 :: after, rfl, ?_⟩
          rintro rfl
          rw [left] at whole
          exact other ⟨more, by rw [whole, List.append_assoc]; rfl⟩
    simp only [scan, compared, place, Memory.head, bind, Except.bind, if_true, if_neg ne]
  · have compared : Memory.agree name.bytes.length (entry.memory after) (name.memory []) =
        .ok false := by
      simp [Memory.agree_memory, agrees]
    simp [scan, compared, bind, Except.bind]

/-! ## All entries -/

theorem gives_cons_of_begins {entries : List CString} {v : CString}
    (given : entry.bytes = name.bytes ++ utf8 "=" ++ value.bytes) :
    Gives name (entry :: entries) v ↔ value = v := by
  constructor
  · intro gives
    cases gives with
    | here given' =>
        have same : value.bytes = v.bytes := List.append_cancel_left (given.symm.trans given')
        exact CString.bytes_injective same
    | later other => exact absurd ⟨value.bytes, given.symm⟩ other
  · rintro rfl
    exact .here given

theorem gives_cons_of_not_begins {entries : List CString}
    (other : ¬ name.bytes ++ utf8 "=" <+: entry.bytes) :
    Gives name (entry :: entries) value ↔ Gives name entries value := by
  constructor
  · intro gives
    cases gives with
    | here given => exact absurd ⟨value.bytes, given.symm⟩ other
    | later _ gives => exact gives
  · exact .later other

theorem scan_placed (name : CString) (entries : List Placed) :
    ∃ answer, scan name (entries.map Placed.memory) = .ok answer ∧
      (∀ value, answer = some value ↔ Gives name (entries.map Placed.text) value) ∧
      (answer = none ↔ ∀ e ∈ entries, ¬ name.bytes ++ utf8 "=" <+: e.text.bytes) := by
  induction entries with
  | nil =>
      refine ⟨none, rfl, ?_, by simp⟩
      intro value
      constructor
      · intro found
        cases found
      · intro gives
        cases gives
  | cons e entries ih =>
      by_cases begins : name.bytes ++ utf8 "=" <+: e.text.bytes
      · obtain ⟨value, given⟩ := exists_value begins
        refine ⟨some value, scan_of_gives given e.after, ?_, by simp [begins]⟩
        intro v
        rw [List.map_cons, gives_cons_of_begins given, Option.some.injEq]
      · obtain ⟨answer, scanned, gives, nothing⟩ := ih
        refine ⟨answer, ?_, ?_, ?_⟩
        · rw [List.map_cons, ← scanned]
          exact scan_of_not_begins begins e.after
        · intro value
          rw [gives, List.map_cons, gives_cons_of_not_begins begins]
        · rw [nothing, List.forall_mem_cons]
          exact (and_iff_right begins).symm

/-- A look-up in an array of entries, which may be null, finds what follows the name and the equals
    sign in the first entry that begins with these, and nothing exactly if no entry does. It never
    fails, whatever lies behind the NULs of the entries and even if nothing does: no byte there is
    read, and none behind the NUL of the name. The environment of a process is looked up like that. -/
theorem find_first (array : Option (List Placed)) (name : CString) :
    (∃ answer, find (array.map (·.map Placed.memory)) name = .ok answer ∧
      (∀ value, answer = some value ↔ Gives name ((array.getD []).map Placed.text) value) ∧
      (answer = none ↔ ∀ e ∈ array.getD [], ¬ name.bytes ++ utf8 "=" <+: e.text.bytes)) ∧
    ∀ (env : Environment) (value : CString),
      env.get? name = some value ↔ Gives name env.entries value := by
  constructor
  · cases array with
    | none => exact scan_placed name []
    | some entries => exact scan_placed name entries
  · intro env value
    obtain ⟨answer, scanned, gives, -⟩ := scan_placed name (env.entries.map fun e => ⟨e, []⟩)
    simp only [List.map_map, Function.comp_def, List.map_id'] at scanned gives
    have found : find (some (env.entries.map (·.memory []))) name = .ok answer := scanned
    rw [← gives, get?, found]

example : find (some [utf8 "AB=\x00", utf8 "\x00", utf8 "A\x00", utf8 "A=x\x00", utf8 "A=y\x00"])
    (.text "A") = .ok (some (.text "x")) := by
  decide

end Postmortem.Environment

import Mathlib.Data.Nat.Count
import Postmortem.Proofs.LogFileCalls

/-! # Log files in their directory

Where log files go into a directory that is there, whether a name is taken is a question of the
entries of this directory. A call gets the first name that no entry has, and as many more calls can
get one as there are names that are short enough.
-/

namespace Postmortem

open Bytes (slash ended unended)

/-! ## Paths into a directory -/

namespace FileTree

variable {tree : FileTree} {working place : Place} {dir name : Bytes}

theorem components_entry (ne : name ≠ []) (plain : slash ∉ name) :
    components (dir ++ slash :: name) = components dir ++ [name] := by
  have shown : (!name.isEmpty) = true := by simpa using ne
  rw [components, Bytes.pieces_append, Bytes.pieces_append_mark Bytes.notMem_unended,
    Bytes.pieces_of_notMem plain, List.append_cons, ← Bytes.pieces_eq, List.filter_append]
  simp [components, shown]

theorem start_append (ne : dir ≠ []) (rest : Bytes) :
    start working (dir ++ rest) = start working dir := by
  rw [start, start, List.head?_append_of_ne_nil _ ne]

theorem vacancy_entry (located : tree.locate working dir = .ok (place, .directory))
    (ne : name ≠ []) (plain : slash ∉ name) (ne_here : name ≠ here) (ne_above : name ≠ above)
    (length_le : (dir ++ slash :: name).length ≤ maxPath) (name_le : name.length ≤ maxName) :
    tree.vacancy working (dir ++ slash :: name) =
      if (tree.entry? (place ++ [name])).isSome then .error .alreadyExists
      else .ok (place ++ [name]) := by
  obtain ⟨ne_nil, -, walk, directory, -⟩ := locate_iff.mp located
  have nonempty : (dir ++ slash :: name).isEmpty = false := by simp
  have open_end : endsInSlash (dir ++ slash :: name) = false := by
    obtain ⟨b, last⟩ := Option.ne_none_iff_exists'.mp (mt List.getLast?_eq_none_iff.mp ne)
    have other : b ≠ slash := fun same => plain (same ▸ List.mem_of_getLast? last)
    simp [endsInSlash, List.getLast?_append, List.getLast?_cons, last, other]
  have ordinary : ¬ (name = here ∨ name = above) := not_or.mpr ⟨ne_here, ne_above⟩
  simp only [FileTree.vacancy, nonempty, Bool.false_eq_true, if_false,
    if_neg (Nat.not_lt_of_le length_le), components_entry ne plain, List.getLast?_concat,
    List.dropLast_concat, start_append ne_nil, walk, directory, open_end, if_neg ordinary,
    if_neg (Nat.not_lt_of_le name_le)]

/-- A name that is taken in a directory is that of an entry. -/
theorem found_of_taken (located : tree.locate working dir = .ok (place, .directory))
    (ne : name ≠ []) (plain : slash ∉ name) (ne_here : name ≠ here) (ne_above : name ≠ above)
    (taken : tree.Taken working (dir ++ slash :: name)) :
    (tree.entry? (place ++ [name])).isSome := by
  obtain ⟨ne_nil, -, walk, -⟩ := locate_iff.mp located
  have last : unended slash (dir ++ slash :: name) = name := by
    rw [Bytes.unended_append, Bytes.unended_append_mark Bytes.notMem_unended,
      Bytes.unended_of_notMem plain]
  have front : (ended slash (dir ++ slash :: name)).filter (!·.isEmpty) = components dir := by
    rw [Bytes.ended_append, Bytes.ended_append_mark Bytes.notMem_unended,
      Bytes.ended_of_notMem plain, components, Bytes.pieces_eq slash dir]
  have found := taken.found (by rwa [last]) (by rwa [last]) (by rwa [last])
  rw [front, last, start_append ne_nil] at found
  obtain ⟨parent, walked, there⟩ := found
  rw [walk] at walked
  cases walked
  exact there

end FileTree

/-! ## Log files -/

namespace LogFile

variable {dir stem program : CString} {pid : Int} {m : Machine} {tree later : FileTree}
  {working place : Place} {content : Bytes}

/-- The names tried, within their directory. -/
def fileName (stem program : CString) (pid : Int) (k : Nat) : Bytes :=
  stem.bytes ++ (utf8 "_" ++ (program.bytes ++ (utf8 "." ++ Decimal.ofInt pid))) ++ suffix k

theorem candidate_eq (dir stem program : CString) (pid : Int) (k : Nat) :
    (candidate dir stem program pid k).bytes = dir.bytes ++ slash :: fileName stem program pid k := by
  have mark : utf8 "/" = [slash] := by decide
  simp [candidate, baseName, fileName, mark]

theorem slash_notMem_fileName (hs : slash ∉ stem.bytes) (hp : slash ∉ program.bytes) (k : Nat) :
    slash ∉ fileName stem program pid k := by
  have digits : slash ∉ Decimal.ofInt pid := by
    intro member
    obtain dash | digit := Decimal.mem_ofInt member
    · exact absurd dash (by decide)
    · exact absurd digit (by decide)
  simp only [fileName, List.mem_append, not_or]
  exact ⟨⟨hs, by decide, hp, by decide, digits⟩, slash_notMem_suffix k⟩

theorem fileName_injective : Function.Injective (fileName stem program pid) :=
  fun _ _ same => suffix_injective (List.append_cancel_left same)

theorem fileName_ne (hs : slash ∉ stem.bytes) (hp : slash ∉ program.bytes) (pid : Int) (k : Nat) :
    fileName stem program pid k ≠ [] ∧ fileName stem program pid k ≠ FileTree.here ∧
      fileName stem program pid k ≠ FileTree.above := by
  have last := unended_candidate_ne (.text "") stem program pid k
  rw [candidate_eq, Bytes.unended_append, Bytes.unended_append_mark Bytes.notMem_unended,
    Bytes.unended_of_notMem (slash_notMem_fileName hs hp k)] at last
  exact last

/-- The name of a log file fits its buffer and its directory. -/
def Short (dir stem program : CString) (pid : Int) (k : Nat) : Prop :=
  (candidate dir stem program pid k).bytes.length < nameCapacity ∧
    (fileName stem program pid k).length ≤ FileTree.maxName

/-- No entry of the directory has this name. -/
def Unused (stem program : CString) (pid : Int) (tree : FileTree) (place : Place) (k : Nat) : Prop :=
  tree.entry? (place ++ [fileName stem program pid k]) = none

instance (k : Nat) : Decidable (Unused stem program pid tree place k) :=
  decidable_of_iff ((tree.entry? (place ++ [fileName stem program pid k])).isNone = true)
    Option.isNone_iff_eq_none

/-- The names are short enough for so many log files: every name is for which fewer unused ones come
    before it. -/
def Room (dir stem program : CString) (pid : Int) (tree : FileTree) (place : Place) (n : Nat) :
    Prop :=
  ∀ k, Nat.count (Unused stem program pid tree place) k < n → Short dir stem program pid k

/-- A log file takes no more than one name from the others. -/
theorem Room.of_added {k n : Nat} {path : Bytes} (room : Room dir stem program pid tree place (n + 1))
    (added : tree.Added later working path (place ++ [fileName stem program pid k]) content) :
    Room dir stem program pid later place n := by
  intro i few
  refine room i (Nat.lt_of_le_of_lt ?_ (Nat.succ_lt_succ few))
  have unused (j : Nat) (h : Unused stem program pid tree place j) :
      Unused stem program pid later place j ∨ j = k := by
    by_cases same : j = k
    · exact .inr same
    · refine .inl ?_
      have ne : place ++ [fileName stem program pid j] ≠ place ++ [fileName stem program pid k] :=
        fun places => same (fileName_injective (List.singleton_inj.mp (List.append_cancel_left places)))
      exact FileTree.absent_of_entries added.entries h ne
  simp only [Nat.count_eq_card_filter_range]
  refine (Finset.card_le_card fun j member => ?_).trans (Finset.card_insert_le k _)
  obtain ⟨below, h⟩ := Finset.mem_filter.mp member
  rw [Finset.mem_insert, Finset.mem_filter]
  exact (unused j h).elim (fun h => .inr ⟨below, h⟩) .inl

/-- A call for which there is room creates a log file in the directory. -/
theorem create_inDirectory {n : Nat} (hs : slash ∉ stem.bytes) (hp : slash ∉ program.bytes)
    (located : m.files.locate m.working dir.bytes = .ok (place, .directory))
    (room : Room dir stem program pid m.files place (n + 1)) :
    ∃ k, Short dir stem program pid k ∧
      ((create dir stem program pid).run m).1 = .ok (candidate dir stem program pid k) ∧
      m.files.Added ((create dir stem program pid).run m).2.files m.working
        (candidate dir stem program pid k).bytes (place ++ [fileName stem program pid k]) [] := by
  obtain ⟨k, -, free, first⟩ := exists_free dir stem program pid m
  have used (j : Nat) (below : j < k) : ¬ Unused stem program pid m.files place j := by
    have taken : m.files.Taken m.working (candidate dir stem program pid j).bytes :=
      not_not.mp (first j below)
    obtain ⟨ne, ne_here, ne_above⟩ := fileName_ne hs hp pid j
    rw [candidate_eq] at taken
    have there := FileTree.found_of_taken located ne (slash_notMem_fileName hs hp j) ne_here ne_above taken
    intro unused
    rw [unused] at there
    cases there
  have none_before : Nat.count (Unused stem program pid m.files place) k = 0 := by
    rw [Nat.count_eq_card_filter_range, Finset.card_eq_zero, Finset.filter_eq_empty_iff]
    exact fun j member => used j (Finset.mem_range.mp member)
  obtain ⟨fits, name_le⟩ := room k (by omega)
  obtain ⟨ne, ne_here, ne_above⟩ := fileName_ne hs hp pid k
  have vacancy := FileTree.vacancy_entry located ne (slash_notMem_fileName hs hp k) ne_here ne_above
    (by rw [← candidate_eq]; exact fits.le.trans (by decide)) name_le
  rw [← candidate_eq] at vacancy
  split at vacancy
  · refine absurd ?_ free
    rw [FileTree.Taken, FileTree.createExclusive, vacancy]
    rfl
  · obtain ⟨parent, name, vacant, same⟩ := FileTree.vacant_of_vacancy vacancy
    have created : m.files.createExclusive m.working (candidate dir stem program pid k).bytes =
        .ok (m.files.put (parent ++ [name]) (.file [] .forbidden)) := by
      rw [FileTree.createExclusive, vacant.vacancy]
      rfl
    obtain ⟨e, ran⟩ := run_create first free
    simp only [outcome, if_pos fits, created] at ran
    refine ⟨k, ⟨fits, name_le⟩, by rw [ran], ?_⟩
    rw [ran, same]
    exact vacant.added

end LogFile

end Postmortem

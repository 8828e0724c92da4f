import Postmortem.Proofs.LogFile
import Postmortem.Proofs.Machine

/-! # Many calls for a log file

The calls of one process may follow one another, or the attempts of several may come in any order.
An attempt that succeeds takes its name for good, so that no later attempt gets the same one; calls
in sequence give out the free names in their order.
-/

namespace Postmortem.LogFile

open Bytes (slash unended)

variable {dir stem program : CString} {pid : Int} {m : Machine}

/-- A call under way, or what it ended with. -/
abbrev Call := Steps Machine (Except LogFileError CString)

/-- The name that a call has returned. -/
def returned? : Call → Option CString
  | .done (.ok name) => some name
  | _ => none

/-- Every step either leaves the files alone, or creates one and is the last: its name is returned. -/
def Exclusive : Call → Prop
  | .done _ => True
  | .step effect next => ∀ m, (effect m).working = m.working ∧ Exclusive (next m) ∧
    match returned? (next m) with
    | some name => m.files.createExclusive m.working name.bytes = .ok (effect m).files
    | none => (effect m).files = m.files

theorem returned_search (size number : Nat) (name : Name) :
    returned? (search size number name) = none := by
  rw [search]
  rfl

theorem search_exclusive (size number : Nat) (name : Name) :
    Exclusive (search size number name) := by
  obtain ⟨left, h⟩ : ∃ left, Decimal.tenTo nameCapacity - number = left := ⟨_, rfl⟩
  induction left using Nat.strong_induction_on generalizing number name with
  | _ left ih =>
      rw [search]
      intro m
      simp only [attempt]
      cases tried : m.files.createExclusive m.working name.asCString.bytes with
      | ok files => exact ⟨rfl, trivial, tried⟩
      | error e =>
          by_cases again : e = .alreadyExists
          · simp only [if_pos again]
            split
            · next next made =>
              have lt := lt_of_numbered made
              refine ⟨trivial, ih _ (by omega) (number + 1) next rfl, ?_⟩
              rw [returned_search]
              trivial
            · exact ⟨trivial, trivial, trivial⟩
          · simp only [if_neg again]
            exact ⟨trivial, trivial, trivial⟩

theorem create_exclusive (dir stem program : CString) (pid : Int) :
    Exclusive (create dir stem program pid) := by
  rw [create]
  split
  · exact search_exclusive _ _ _
  · trivial

theorem returned_create (dir stem program : CString) (pid : Int) :
    returned? (create dir stem program pid) = none := by
  rw [create]
  split
  · exact returned_search _ _ _
  · rfl

/-! ## In any order -/

/-- The names that have been returned. -/
def names (pool : Pool Machine (Except LogFileError CString)) : List CString :=
  pool.running.filterMap returned?

/-- What calls have done to the files: each name that was returned stands for an empty file of its
    own, and besides these files there is what was there at the beginning. -/
structure Apart (start : Machine) (pool : Pool Machine (Except LogFileError CString)) : Prop where
  exclusive : ∀ call ∈ pool.running, Exclusive call
  working : pool.state.working = start.working
  taken : ∀ name ∈ names pool, pool.state.files.Taken start.working name.bytes
  read : ∀ name ∈ names pool, pool.state.files.read start.working name.bytes = .ok []
  nodup : (names pool).Nodup
  added : ∃ new : List Place, new.length = (names pool).length ∧
    pool.state.files.entries = start.files.entries ++ new.map (·, .file [] .forbidden)

theorem Apart.start {calls : List Call} (exclusive : ∀ call ∈ calls, Exclusive call)
    (under_way : ∀ call ∈ calls, returned? call = none) : Apart m ⟨m, calls⟩ := by
  have none : names ⟨m, calls⟩ = [] := List.filterMap_eq_nil_iff.mpr under_way
  refine ⟨exclusive, rfl, ?_, ?_, ?_, [], ?_, ?_⟩
  · simp [none]
  · simp [none]
  · simp [none]
  · simp [none]
  · simp

variable {start : Machine} {pool later : Pool Machine (Except LogFileError CString)}

theorem Apart.unchanged (h : Apart start pool) (exclusive : ∀ call ∈ later.running, Exclusive call)
    (working : later.state.working = start.working)
    (files : later.state.files = pool.state.files) (same : names later = names pool) :
    Apart start later := by
  obtain ⟨added, count, entries⟩ := h.added
  refine ⟨exclusive, working, ?_, ?_, ?_, added, ?_, ?_⟩
  · rw [same, files]
    exact h.taken
  · rw [same, files]
    exact h.read
  · rw [same]
    exact h.nodup
  · rw [same]
    exact count
  · rw [files]
    exact entries

/-- A name that is returned was not taken before. -/
theorem Apart.add (h : Apart start pool) (exclusive : ∀ call ∈ later.running, Exclusive call)
    (working : later.state.working = start.working) {name : CString}
    (files : pool.state.files.createExclusive start.working name.bytes = .ok later.state.files)
    (more : (names later).Perm (name :: names pool)) : Apart start later := by
  obtain ⟨added, count, entries⟩ := h.added
  obtain ⟨parent, file, -, -, created⟩ := FileTree.created_of_createExclusive files
  have new : name ∉ names pool := by
    intro member
    have taken : pool.state.files.createExclusive start.working name.bytes = .error .alreadyExists :=
      h.taken name member
    rw [taken] at files
    cases files
  refine ⟨exclusive, working, ?_, ?_, ?_, added ++ [parent ++ [file]], ?_, ?_⟩
  · intro other member
    obtain rfl | member := List.mem_cons.mp (more.mem_iff.mp member)
    · exact created.taken
    · exact (h.taken other member).of_grows created.grows
  · intro other member
    obtain rfl | member := List.mem_cons.mp (more.mem_iff.mp member)
    · exact created.read
    · exact created.read_of (h.read other member)
  · exact more.nodup_iff.mpr (List.nodup_cons.mpr ⟨new, h.nodup⟩)
  · rw [more.length_eq, List.length_append, count]
    rfl
  · rw [List.map_append, ← List.append_assoc, ← entries]
    exact created.entries

theorem Apart.moves (h : Apart start pool) (move : pool.Moves later) : Apart start later := by
  cases move with
  | step s before effect next after =>
      obtain ⟨working, exclusive, files⟩ := h.exclusive (.step effect next) (by simp) s
      have others (c : Call) (member : c ∈ before ++ next s :: after) : Exclusive c := by
        obtain left | rfl | right := by simpa using member
        · exact h.exclusive c (by simp [left])
        · exact exclusive
        · exact h.exclusive c (by simp [right])
      have old : names ⟨s, before ++ .step effect next :: after⟩ =
          before.filterMap returned? ++ after.filterMap returned? := by
        rw [names, List.filterMap_append, List.filterMap_cons_none rfl]
      have same : (effect s).working = start.working := working.trans h.working
      cases ends : returned? (next s) with
      | none =>
          rw [ends] at files
          refine h.unchanged others same files ?_
          rw [old]
          simp [names, ends]
      | some name =>
          have here : s.working = start.working := h.working
          rw [ends, here] at files
          refine h.add others same files ?_
          rw [old]
          simp only [names, List.filterMap_append, List.filterMap_cons, ends]
          exact List.perm_middle

theorem Apart.reaches (h : Apart start pool) (moves : pool.Reaches later) : Apart start later := by
  induction moves with
  | refl => exact h
  | tail _ move ih => exact ih.moves move

/-! ## One after another -/

/-- The name fits its buffer, and a file can be created under it. -/
def Creatable (dir stem program : CString) (pid : Int) (m : Machine) (k : Nat) : Prop :=
  (candidate dir stem program pid k).bytes.length < nameCapacity ∧
    ∃ files, m.files.createExclusive m.working (candidate dir stem program pid k).bytes = .ok files

instance (k : Nat) : Decidable (Creatable dir stem program pid m k) :=
  decidable_of_iff ((candidate dir stem program pid k).bytes.length < nameCapacity ∧
      (m.files.createExclusive m.working (candidate dir stem program pid k).bytes).isOk = true) (by
    rw [Creatable]
    cases m.files.createExclusive m.working (candidate dir stem program pid k).bytes with
    | ok files => simp [Except.isOk, Except.toBool]
    | error e => simp [Except.isOk, Except.toBool])

theorem Creatable.free {k : Nat} (h : Creatable dir stem program pid m k) :
    Free dir stem program pid m k := by
  obtain ⟨-, files, created⟩ := h
  intro taken
  rw [FileTree.Taken, created] at taken
  cases taken

theorem Creatable.outcome {k : Nat} (h : Creatable dir stem program pid m k) :
    ∃ files place, outcome dir stem program pid k m = (.ok (candidate dir stem program pid k), files) ∧
      place.getLast? = some (unended slash (candidate dir stem program pid k).bytes) ∧
      m.files.Created files m.working (candidate dir stem program pid k).bytes place := by
  obtain ⟨fits, files, here⟩ := h
  obtain ⟨parent, name, vacant, -, created⟩ := FileTree.created_of_createExclusive here
  have last := vacant.last
  rw [FileTree.components_eq (unended_candidate_ne dir stem program pid k).1, List.getLast?_concat] at last
  refine ⟨files, parent ++ [name], ?_, ?_, created⟩
  · simp only [LogFile.outcome, if_pos fits, here]
  · rw [List.getLast?_concat, last]

/-- Creating the file of one name leaves the others creatable. -/
theorem Creatable.of_created {i k : Nat} {later : Machine} {place : Place}
    (h : Creatable dir stem program pid m k) (ne : i ≠ k) (working : later.working = m.working)
    (last : place.getLast? = some (unended slash (candidate dir stem program pid i).bytes))
    (created : m.files.Created later.files m.working (candidate dir stem program pid i).bytes
      place) : Creatable dir stem program pid later k := by
  obtain ⟨fits, files, here⟩ := h
  obtain ⟨parent, name, vacant, -, -⟩ := FileTree.created_of_createExclusive here
  have own := vacant.last
  rw [FileTree.components_eq (unended_candidate_ne dir stem program pid k).1, List.getLast?_concat,
    Option.some.injEq] at own
  have elsewhere : parent ++ [name] ≠ place := by
    rintro rfl
    rw [List.getLast?_concat, Option.some.injEq, ← own, unended_candidate, unended_candidate] at last
    exact ne (suffix_injective (List.append_cancel_left last)).symm
  have free := FileTree.absent_of_entries created.entries vacant.free elsewhere
  refine ⟨fits, ?_⟩
  rw [working, FileTree.createExclusive, (vacant.of_grows created.grows free).vacancy]
  exact ⟨later.files.put (parent ++ [name]) (.file [] .forbidden), rfl⟩

/-- Calls in sequence return the names that were free, one after another. -/
theorem inTurn_create {ks : List Nat} (increasing : ks.Pairwise (· < ·))
    (creatable : ∀ k ∈ ks, Creatable dir stem program pid m k)
    (taken : ∀ j ∉ ks, (∃ k ∈ ks, j < k) → ¬ Free dir stem program pid m j) :
    ((Steps.inTurn (List.replicate ks.length (create dir stem program pid))).run m).1 =
      ks.map fun k => .ok (candidate dir stem program pid k) := by
  induction ks generalizing m with
  | nil => rfl
  | cons k rest ih =>
      obtain ⟨above, increasing⟩ := List.pairwise_cons.mp increasing
      have first : ∀ j < k, ¬ Free dir stem program pid m j := by
        intro j below
        refine taken j ?_ ⟨k, List.mem_cons_self, below⟩
        intro member
        obtain rfl | member := List.mem_cons.mp member
        · exact Nat.lt_irrefl j below
        · exact Nat.lt_asymm below (above j member)
      have here := creatable k List.mem_cons_self
      obtain ⟨files, place, result, last, created⟩ := here.outcome
      obtain ⟨e, ran⟩ := run_create first here.free
      rw [result] at ran
      have others : ∀ i ∈ rest,
          Creatable dir stem program pid { m with files := files, errno := e } i := by
        intro i member
        exact (creatable i (List.mem_cons_of_mem k member)).of_created
          (Nat.ne_of_lt (above i member)) rfl last created
      have still : ∀ j ∉ rest, (∃ i ∈ rest, j < i) →
          ¬ Free dir stem program pid { m with files := files, errno := e } j := by
        rintro j absent ⟨i, member, below⟩
        by_cases same : j = k
        · subst same
          exact not_not.mpr created.taken
        · have was := taken j (by simp [same, absent]) ⟨i, List.mem_cons_of_mem k member, below⟩
          exact not_not.mpr ((not_not.mp was).of_grows created.grows)
      rw [List.length_cons, List.replicate_succ]
      simp only [Steps.inTurn, Steps.run_bind, Steps.run_pure, ran, ih increasing others still,
        List.map_cons]

/-! ## All about the calls -/

/-- What a single call does, `k` being the number of the first name that is not taken. -/
structure Exact (dir stem program : CString) (pid : Int) (m : Machine)
    (r : Except LogFileError CString × Machine) (k : Nat) : Prop where
  free : Free dir stem program pid m k
  first : ∀ j < k, ¬ Free dir stem program pid m j
  bound : k ≤ m.files.entries.length
  frame : ∃ e, r.2 = { m with files := r.2.files, errno := e }
  overlong : nameCapacity ≤ (candidate dir stem program pid k).bytes.length →
    r.1 = .error .outOfSpace ∧ r.2.files = m.files
  refused : (candidate dir stem program pid k).bytes.length < nameCapacity →
    ∀ e, m.files.createExclusive m.working (candidate dir stem program pid k).bytes = .error e →
      r.1 = .error (.create e) ∧ r.2.files = m.files
  created : Creatable dir stem program pid m k →
    r.1 = .ok (candidate dir stem program pid k) ∧
      ∃ place, m.files.Created r.2.files m.working (candidate dir stem program pid k).bytes place

theorem exact_of_run {k : Nat} (bound : k ≤ m.files.entries.length)
    (free : Free dir stem program pid m k) (first : ∀ j < k, ¬ Free dir stem program pid m j) :
    Exact dir stem program pid m ((create dir stem program pid).run m) k := by
  obtain ⟨e, ran⟩ := run_create first free
  rw [ran]
  refine ⟨free, first, bound, ⟨e, rfl⟩, ?_, ?_, ?_⟩
  · intro long
    rw [outcome_of_overlong (Nat.not_lt.mpr long)]
    exact ⟨rfl, rfl⟩
  · intro fits e refused
    rw [outcome_of_refused fits refused]
    exact ⟨rfl, rfl⟩
  · intro creatable
    obtain ⟨files, place, result, -, created⟩ := creatable.outcome
    rw [result]
    exact ⟨rfl, place, created⟩

theorem candidate_of_create {name : CString}
    (h : ((create dir stem program pid).run m).1 = .ok name) :
    ∃ k, name = candidate dir stem program pid k := by
  obtain ⟨k, bound, free, first⟩ := exists_free dir stem program pid m
  obtain ⟨e, ran⟩ := run_create first free
  rw [ran] at h
  dsimp only at h
  rw [outcome] at h
  split at h
  · split at h
    · cases h
      exact ⟨k, rfl⟩
    · cases h
  · cases h

/-- A call that returns a name has created a file under it. -/
theorem createExclusive_of_create {name : CString}
    (h : ((create dir stem program pid).run m).1 = .ok name) :
    m.files.createExclusive m.working name.bytes =
      .ok ((create dir stem program pid).run m).2.files := by
  obtain ⟨k, bound, free, first⟩ := exists_free dir stem program pid m
  obtain ⟨e, ran⟩ := run_create first free
  rw [ran] at h ⊢
  dsimp only at h ⊢
  rw [outcome] at h ⊢
  split at h
  · next fits =>
    rw [if_pos fits]
    cases tried : m.files.createExclusive m.working (candidate dir stem program pid k).bytes with
    | ok files =>
        simp only [tried, Except.ok.injEq] at h ⊢
        rw [← h, tried]
    | error e => simp [tried] at h
  · cases h

/-- A call changes nothing of the machine but the files and the error number. -/
theorem machine_of_create (dir stem program : CString) (pid : Int) (m : Machine) :
    ∃ files errno, ((create dir stem program pid).run m).2 = { m with files, errno } := by
  obtain ⟨k, bound, free, first⟩ := exists_free dir stem program pid m
  obtain ⟨e, ran⟩ := run_create first free
  rw [ran]
  exact ⟨_, e, rfl⟩

/-- A call says nothing. -/
theorem stderr_of_create (dir stem program : CString) (pid : Int) (m : Machine) :
    ((create dir stem program pid).run m).2.stderr = m.stderr := by
  obtain ⟨files, e, ran⟩ := machine_of_create dir stem program pid m
  rw [ran]

theorem launches_of_create (dir stem program : CString) (pid : Int) (m : Machine) :
    ((create dir stem program pid).run m).2.launches = m.launches := by
  obtain ⟨files, e, ran⟩ := machine_of_create dir stem program pid m
  rw [ran]

/-- A single call returns the first name that is not taken, with a new empty file, or tells why it
    cannot; calls in any order never return a name twice and add nothing but their own empty files;
    calls in sequence return the names that were free, in their order. -/
theorem create_exact (dir stem program : CString) (pid : Int) (m : Machine) :
    (∃ k, Exact dir stem program pid m ((create dir stem program pid).run m) k) ∧
    (∀ (calls : List (CString × CString × CString × Int))
        (pool : Pool Machine (Except LogFileError CString)),
      Pool.Reaches ⟨m, calls.map fun (d, s, p, i) => create d s p i⟩ pool →
        (names pool).Nodup ∧
        (∀ name ∈ names pool, pool.state.files.read m.working name.bytes = .ok []) ∧
        ∃ new : List Place, new.length = (names pool).length ∧
          pool.state.files.entries = m.files.entries ++ new.map (·, .file [] .forbidden)) ∧
    (∀ ks : List Nat, ks.Pairwise (· < ·) →
      (∀ k ∈ ks, Creatable dir stem program pid m k) →
      (∀ j ∉ ks, (∃ k ∈ ks, j < k) → ¬ Free dir stem program pid m j) →
        ((Steps.inTurn (List.replicate ks.length (create dir stem program pid))).run m).1 =
          ks.map fun k => .ok (candidate dir stem program pid k)) := by
  refine ⟨?_, ?_, ?_⟩
  · obtain ⟨k, bound, free, first⟩ := exists_free dir stem program pid m
    exact ⟨k, exact_of_run bound free first⟩
  · intro calls pool reaches
    have start : Apart m ⟨m, calls.map fun (d, s, p, i) => create d s p i⟩ := by
      apply Apart.start
      · intro call member
        obtain ⟨⟨d, s, p, i⟩, -, rfl⟩ := List.mem_map.mp member
        exact create_exclusive d s p i
      · intro call member
        obtain ⟨⟨d, s, p, i⟩, -, rfl⟩ := List.mem_map.mp member
        exact returned_create d s p i
    have apart := start.reaches reaches
    exact ⟨apart.nodup, apart.working ▸ apart.read, apart.added⟩
  · intro ks increasing creatable taken
    exact inTurn_create increasing creatable taken

theorem create_twice_at_once :
    let call : Call := create (.text ".") (.text "st") (.text "a") 42
    (names ⟨((Steps.inTurn [call, call]).run .bare).2,
      ((Steps.inTurn [call, call]).run .bare).1.map .done⟩).Nodup ∧
    ((Steps.inTurn (List.replicate 2 call)).run .bare).1 =
      [.ok (candidate (.text ".") (.text "st") (.text "a") 42 0),
        .ok (candidate (.text ".") (.text "st") (.text "a") 42 1)] := by
  intro call
  have all := create_exact (.text ".") (.text "st") (.text "a") 42 .bare
  refine ⟨?_, ?_⟩
  · have reached := Pool.reaches_inTurn .bare [] [call, call]
    simp only [List.nil_append] at reached
    exact (all.2.1 [(.text ".", .text "st", .text "a", 42), (.text ".", .text "st", .text "a", 42)]
      _ reached).1
  · refine all.2.2 [0, 1] (by decide) ?_ ?_
    · intro k member
      obtain rfl | rfl := by simpa using member
      · decide +kernel
      · decide +kernel
    · rintro j absent ⟨k, member, below⟩
      simp only [List.mem_cons, List.not_mem_nil, or_false] at absent member
      omega

/-- A machine on which only the second name is taken. -/
private def secondTaken : Machine :=
  { Machine.bare with files := ⟨[([utf8 "st_a.42.1"], .file [] .forbidden)]⟩ }

/-- A program with a name so long that a log file name with a number is too long for a file. -/
private def longName : CString := ⟨List.replicate 249 97, by decide⟩

private def longTaken : FileTree :=
  ⟨[([utf8 "st_" ++ longName.bytes ++ utf8 ".42"], .file [] .forbidden)]⟩

private theorem free_on_bare (program : CString) (k : Nat) :
    Free (.text ".") (.text "st") program 42 .bare k := by
  obtain ⟨place, -, there⟩ := exists_place (.text ".") (.text "st") program 42 .bare
  by_contra taken
  obtain ⟨found, ne_nil⟩ := there k taken
  have absent : Machine.bare.files.entry? (place k) = none := by
    simp [FileTree.entry?, Machine.bare, FileTree.empty, ne_nil]
  rw [absent] at found
  cases found

/-- Calls in sequence do not always return the names in a row: a name that is taken is left out, and
    a name may become too long with its number. -/
theorem create_twice_not_in_a_row :
    (Free (.text ".") (.text "st") (.text "a") 42 secondTaken 0 ∧
      ((Steps.inTurn (List.replicate 2 (create (.text ".") (.text "st") (.text "a") 42))).run
          secondTaken).1 ≠
        [0, 1].map fun k => .ok (candidate (.text ".") (.text "st") (.text "a") 42 k)) ∧
    ((∀ k, Free (.text ".") (.text "st") longName 42 .bare k) ∧
      ((Steps.inTurn (List.replicate 2 (create (.text ".") (.text "st") longName 42))).run
          .bare).1 ≠
        [0, 1].map fun k => .ok (candidate (.text ".") (.text "st") longName 42 k)) := by
  refine ⟨⟨?_, ?_⟩, free_on_bare longName, ?_⟩
  · exact Creatable.free (by decide +kernel)
  · have increasing : List.Pairwise (· < ·) [0, 2] := by decide
    have creatable : ∀ k ∈ [0, 2], Creatable (.text ".") (.text "st") (.text "a") 42 secondTaken k := by
      decide +kernel
    have taken : ∀ j ∉ [0, 2], (∃ k ∈ [0, 2], j < k) →
        ¬ Free (.text ".") (.text "st") (.text "a") 42 secondTaken j := by
      rintro j absent ⟨k, member, below⟩
      simp only [List.mem_cons, List.not_mem_nil, or_false] at absent member
      obtain rfl : j = 1 := by omega
      have taken : secondTaken.files.createExclusive secondTaken.working
          (candidate (.text ".") (.text "st") (.text "a") 42 1).bytes = .error .alreadyExists := by
        decide +kernel
      exact not_not.mpr taken
    have skipped := inTurn_create increasing creatable taken
    intro inRow
    have same := skipped.symm.trans inRow
    revert same
    decide +kernel
  · have first : Creatable (.text ".") (.text "st") longName 42 .bare 0 := by decide +kernel
    have result : outcome (.text ".") (.text "st") longName 42 0 .bare =
        (.ok (candidate (.text ".") (.text "st") longName 42 0), longTaken) := by decide +kernel
    obtain ⟨e, ran⟩ := run_create (fun j below => absurd below (Nat.not_lt_zero j)) first.free
    rw [result] at ran
    let m : Machine := { Machine.bare with files := longTaken, errno := e }
    have taken : ∀ j < 1, ¬ Free (.text ".") (.text "st") longName 42 m j := by
      intro j below
      obtain rfl := Nat.lt_one_iff.mp below
      have taken : longTaken.createExclusive []
          (candidate (.text ".") (.text "st") longName 42 0).bytes = .error .alreadyExists := by
        decide +kernel
      exact not_not.mpr taken
    have tooLong : longTaken.createExclusive []
        (candidate (.text ".") (.text "st") longName 42 1).bytes = .error .nameTooLong := by
      decide +kernel
    have free : Free (.text ".") (.text "st") longName 42 m 1 := by
      intro taken
      have := tooLong.symm.trans taken
      cases this
    obtain ⟨e', ran'⟩ := run_create taken free
    have fits : (candidate (.text ".") (.text "st") longName 42 1).bytes.length < nameCapacity := by
      decide +kernel
    rw [outcome_of_refused (m := m) fits tooLong] at ran'
    simp only [List.replicate, Steps.inTurn, Steps.run_bind, Steps.run_pure, ran]
    rw [ran']
    simp

end Postmortem.LogFile

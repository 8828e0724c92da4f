import Postmortem.Proofs.Buffer
import Postmortem.Proofs.FileTree
import Postmortem.Proofs.Steps
import Postmortem.LogFile

/-! # The search for a log file name

The names tried are those of `candidate`, in order: the buffer that is cut and filled again in every
round holds exactly the next one. The search ends at the first name that is not taken, and there is
one among the first few, for every name that is taken belongs to an entry of its own.
-/

namespace Postmortem.LogFile

open Bytes (slash ended unended)

variable {dir stem program : CString} {pid : Int} {m : Machine}

/-- The name without a running number. -/
def baseName (dir stem program : CString) (pid : Int) : Bytes :=
  dir.bytes ++ (utf8 "/" ++ (stem.bytes ++ (utf8 "_" ++ (program.bytes ++ (utf8 "." ++
    Decimal.ofInt pid)))))

/-- What distinguishes the names tried. -/
def suffix : Nat → Bytes
  | 0 => []
  | n + 1 => utf8 "." ++ Decimal.ofNat (n + 1)

private theorem ne_of_isDigit {b c : UInt8} (h : Bytes.isDigit b) (hc : Bytes.isDigit c = false) :
    b ≠ c := by
  rintro rfl
  rw [hc] at h
  exact Bool.false_ne_true h

private theorem notMem_ofInt {c : UInt8} (hc : Bytes.isDigit c = false) (ne : c ≠ Bytes.dash) :
    c ∉ Decimal.ofInt pid := by
  intro member
  obtain same | digit := Decimal.mem_ofInt member
  · exact ne same
  · exact ne_of_isDigit digit hc rfl

private theorem notMem_suffix {c : UInt8} (hc : Bytes.isDigit c = false) (ne : c ∉ utf8 ".") (n : Nat) :
    c ∉ suffix n := by
  intro member
  cases n with
  | zero => simp [suffix] at member
  | succ n =>
      obtain dot | digit := List.mem_append.mp member
      · exact ne dot
      · exact ne_of_isDigit (Decimal.isDigit_of_mem_ofNat digit) hc rfl

theorem nul_notMem_baseName : (0 : UInt8) ∉ baseName dir stem program pid := by
  simp only [baseName, List.mem_append, not_or]
  exact ⟨dir.nul_notMem, by decide, stem.nul_notMem, by decide, program.nul_notMem, by decide,
    notMem_ofInt (by decide) (by decide)⟩

/-- The names tried, in order. -/
def candidate (dir stem program : CString) (pid : Int) (n : Nat) : CString where
  bytes := baseName dir stem program pid ++ suffix n
  nul_notMem := by
    rw [List.mem_append, not_or]
    exact ⟨nul_notMem_baseName, notMem_suffix (by decide) (by decide) n⟩

/-- Besides what it is made from, a name has only slashes, dashes, dots, digits and the like. -/
theorem notMem_candidate {c : UInt8} (digit : Bytes.isDigit c = false) (ne : c ≠ Bytes.dash)
    (marks : c ∉ utf8 "/_.") (hd : c ∉ dir.bytes) (hs : c ∉ stem.bytes) (hp : c ∉ program.bytes)
    (n : Nat) : c ∉ (candidate dir stem program pid n).bytes := by
  have split : utf8 "/_." = utf8 "/" ++ (utf8 "_" ++ utf8 ".") := by decide
  simp only [split, List.mem_append, not_or] at marks
  obtain ⟨slash, underscore, dot⟩ := marks
  simp only [candidate, baseName, List.mem_append, not_or]
  exact ⟨⟨hd, slash, hs, underscore, hp, dot, notMem_ofInt digit ne⟩, notMem_suffix digit dot n⟩

theorem suffix_injective : Function.Injective suffix := by
  intro i j h
  cases i with
  | zero =>
      cases j with
      | zero => rfl
      | succ j => simp [suffix, utf8] at h
  | succ i =>
      cases j with
      | zero => simp [suffix, utf8] at h
      | succ j => exact Decimal.ofNat_injective (List.append_cancel_left h)

theorem length_suffix_mono {i j : Nat} (h : i ≤ j) : (suffix i).length ≤ (suffix j).length := by
  cases i with
  | zero => exact Nat.zero_le _
  | succ i =>
      obtain ⟨j, rfl⟩ := Nat.exists_eq_succ_of_ne_zero (n := j) (by omega)
      simp only [suffix, List.length_append, Decimal.length_ofNat]
      exact Nat.add_le_add_left (Decimal.digitCount_mono h) _

theorem length_candidate_mono {i j : Nat} (h : i ≤ j) :
    (candidate dir stem program pid i).bytes.length ≤
      (candidate dir stem program pid j).bytes.length := by
  simp only [candidate, List.length_append]
  exact Nat.add_le_add_left (length_suffix_mono h) _

/-! ## The buffer -/

theorem plainName_builds (dir stem program : CString) (pid : Int) :
    FixedBuffer.Builds (baseName dir stem program pid) (plainName dir stem program pid) := by
  have start := FixedBuffer.empty_holds (show 0 < nameCapacity by decide)
  refine (start.push dir.bytes).bind fun _ h => ?_
  rw [← List.append_assoc]
  refine (h.push _).bind fun _ h => ?_
  rw [← List.append_assoc]
  refine (h.push stem.bytes).bind fun _ h => ?_
  rw [← List.append_assoc]
  refine (h.push _).bind fun _ h => ?_
  rw [← List.append_assoc]
  refine (h.push program.bytes).bind fun _ h => ?_
  rw [← List.append_assoc]
  exact (h.push _).bind fun _ h => h.pushNumber pid

/-- Cut to the base and continued, the buffer holds the next name. -/
theorem numbered_builds {name : Name} {n : Nat}
    (h : name.Holds (candidate dir stem program pid n).bytes) :
    FixedBuffer.Builds (candidate dir stem program pid (n + 1)).bytes
      (numbered name (baseName dir stem program pid).length (n + 1)) := by
  have cut := h.truncate (baseName dir stem program pid).length
  simp only [candidate, List.take_left] at cut
  have digits : Decimal.ofInt ((n + 1 : Nat) : Int) = Decimal.ofNat (n + 1) := by
    rw [Decimal.ofInt, if_neg (by omega), Int.natAbs_natCast]
  show FixedBuffer.Builds (_ ++ (utf8 "." ++ Decimal.ofNat (n + 1))) _
  rw [← List.append_assoc, ← digits]
  exact (cut.push (utf8 ".")).bind fun _ h => h.pushNumber ((n + 1 : Nat) : Int)

theorem asCString_of_holds {name : Name} {n : Nat}
    (h : name.Holds (candidate dir stem program pid n).bytes) :
    name.asCString = candidate dir stem program pid n :=
  h.asCString (candidate dir stem program pid n).nul_notMem

/-! ## The names in the directory -/

theorem slash_notMem_suffix (n : Nat) : slash ∉ suffix n :=
  notMem_suffix (by decide) (by decide) n

/-- All names lead to one directory, in which they differ by their numbers. -/
theorem unended_candidate (n : Nat) :
    unended slash (candidate dir stem program pid n).bytes =
      unended slash (baseName dir stem program pid) ++ suffix n :=
  Bytes.unended_append_right (slash_notMem_suffix n)

theorem ended_candidate (n : Nat) :
    ended slash (candidate dir stem program pid n).bytes =
      ended slash (baseName dir stem program pid) :=
  Bytes.ended_append_right (slash_notMem_suffix n)

theorem start_candidate (working : Place) (n : Nat) :
    FileTree.start working (candidate dir stem program pid n).bytes =
      FileTree.start working (baseName dir stem program pid) := by
  have ne_nil : baseName dir stem program pid ≠ [] := by simp [baseName, utf8]
  rw [FileTree.start, FileTree.start, candidate, List.head?_append_of_ne_nil _ ne_nil]

/-- A name ends in a digit. -/
private theorem candidate_digits (dir stem program : CString) (pid : Int) (n : Nat) :
    ∃ front d, unended slash (candidate dir stem program pid n).bytes =
      front ++ Decimal.ofNat d := by
  rw [unended_candidate]
  cases n with
  | zero =>
      have noSlash : slash ∉ Decimal.ofInt pid := notMem_ofInt (by decide) (by decide)
      obtain ⟨front, hfront⟩ : ∃ front, unended slash (baseName dir stem program pid) ++ suffix 0 =
          front ++ Decimal.ofInt pid := by
        simp only [baseName, ← List.append_assoc, suffix, List.append_nil,
          Bytes.unended_append_right noSlash]
        exact ⟨_, rfl⟩
      rw [hfront, Decimal.ofInt]
      split
      · refine ⟨front ++ [Bytes.dash], pid.natAbs, ?_⟩
        rw [List.append_assoc, List.singleton_append]
      · exact ⟨front, pid.natAbs, rfl⟩
  | succ n =>
      refine ⟨unended slash (baseName dir stem program pid) ++ utf8 ".", n + 1, ?_⟩
      rw [suffix, List.append_assoc]

theorem unended_candidate_ne (dir stem program : CString) (pid : Int) (n : Nat) :
    unended slash (candidate dir stem program pid n).bytes ≠ [] ∧
      unended slash (candidate dir stem program pid n).bytes ≠ FileTree.here ∧
      unended slash (candidate dir stem program pid n).bytes ≠ FileTree.above := by
  obtain ⟨front, d, digits⟩ := candidate_digits dir stem program pid n
  obtain ⟨digit, last⟩ := Option.ne_none_iff_exists'.mp
    (show (Decimal.ofNat d).getLast? ≠ none by simpa using Decimal.ofNat_ne_nil d)
  have isDigit := Decimal.isDigit_of_mem_ofNat (List.mem_of_getLast? last)
  have whole : (front ++ Decimal.ofNat d).getLast? = some digit := by
    rw [List.getLast?_append, last, Option.some_or]
  rw [digits]
  have different (other : Bytes) (h : other.getLast? = none ∨ other.getLast? = some 46) :
      front ++ Decimal.ofNat d ≠ other := by
    rintro rfl
    rw [whole] at h
    obtain h | h := h
    · simp at h
    · exact ne_of_isDigit isDigit (by decide) (Option.some.inj h)
  exact ⟨different _ (.inl rfl), different _ (.inr (by decide)), different _ (.inr (by decide))⟩

/-! ## The search -/

/-- What comes of the search if it gets to a name: the result and the files. -/
def outcome (dir stem program : CString) (pid : Int) (k : Nat) (m : Machine) :
    Except LogFileError CString × FileTree :=
  let name := candidate dir stem program pid k
  if name.bytes.length < nameCapacity then
    match m.files.createExclusive m.working name.bytes with
    | .ok files => (.ok name, files)
    | .error e => (.error (.create e), m.files)
  else (.error .outOfSpace, m.files)

theorem outcome_of_overlong {k : Nat}
    (h : ¬ (candidate dir stem program pid k).bytes.length < nameCapacity) :
    outcome dir stem program pid k m = (.error .outOfSpace, m.files) := by
  simp only [outcome, if_neg h]

theorem outcome_of_refused {k : Nat} {e : Errno}
    (fits : (candidate dir stem program pid k).bytes.length < nameCapacity)
    (refused : m.files.createExclusive m.working (candidate dir stem program pid k).bytes =
      .error e) :
    outcome dir stem program pid k m = (.error (.create e), m.files) := by
  simp only [outcome, if_pos fits, refused]

/-- The name is not taken by something else. -/
def Free (dir stem program : CString) (pid : Int) (m : Machine) (k : Nat) : Prop :=
  ¬ m.files.Taken m.working (candidate dir stem program pid k).bytes

/-- The search gets to the first name that is not taken. -/
theorem run_search {k n : Nat} {name : Name} (le : n ≤ k)
    (holds : name.Holds (candidate dir stem program pid n).bytes)
    (taken : ∀ j, n ≤ j → j < k → ¬ Free dir stem program pid m j)
    (free : Free dir stem program pid m k) :
    ∃ e, (search (baseName dir stem program pid).length n name).run m =
      ((outcome dir stem program pid k m).1,
        { m with files := (outcome dir stem program pid k m).2, errno := e }) := by
  obtain ⟨rounds, rfl⟩ := Nat.exists_eq_add_of_le le
  clear le
  induction rounds generalizing n name m with
  | zero =>
      rw [search]
      have fits := holds.length_lt
      simp only [Steps.run, attempt, asCString_of_holds holds, Nat.add_zero, outcome, if_pos fits]
      cases tried : m.files.createExclusive m.working (candidate dir stem program pid n).bytes with
      | ok files => exact ⟨m.errno, rfl⟩
      | error e =>
          have other : e ≠ .alreadyExists := by
            rintro rfl
            exact free tried
          simp only [if_neg other, Steps.run]
          exact ⟨e, rfl⟩
  | succ rounds ih =>
      have here : m.files.createExclusive m.working (candidate dir stem program pid n).bytes =
          .error .alreadyExists := not_not.mp (taken n (Nat.le_refl n) (by omega))
      rw [search]
      simp only [Steps.run, attempt, asCString_of_holds holds, here, if_true]
      have built := numbered_builds holds
      rw [FixedBuffer.Builds] at built
      split at built
      · obtain ⟨next, made, holds'⟩ := built
        split
        · next next' made' =>
          rw [made] at made'
          cases made'
          have position : n + (rounds + 1) = n + 1 + rounds := by omega
          rw [position] at taken free ⊢
          exact ih (m := { m with errno := .alreadyExists }) holds'
            (fun j le lt => taken j (by omega) lt) free
        · next made' =>
          rw [made] at made'
          cases made'
      · next full =>
        have longer : (candidate dir stem program pid (n + 1)).bytes.length ≤
            (candidate dir stem program pid (n + (rounds + 1))).bytes.length :=
          length_candidate_mono (by omega)
        rw [outcome_of_overlong (by omega)]
        split
        · next made' =>
          rw [built] at made'
          cases made'
        · exact ⟨.alreadyExists, rfl⟩

theorem run_create {k : Nat} (taken : ∀ j < k, ¬ Free dir stem program pid m j)
    (free : Free dir stem program pid m k) :
    ∃ e, (create dir stem program pid).run m =
      ((outcome dir stem program pid k m).1,
        { m with files := (outcome dir stem program pid k m).2, errno := e }) := by
  have plain : (candidate dir stem program pid 0).bytes = baseName dir stem program pid :=
    List.append_nil _
  have built := plainName_builds dir stem program pid
  rw [FixedBuffer.Builds] at built
  split at built
  · obtain ⟨name, made, holds⟩ := built
    simp only [create, made]
    rw [holds.size]
    exact run_search (Nat.zero_le k) (plain ▸ holds) (fun j _ => taken j) free
  · next full =>
    have longer : (candidate dir stem program pid 0).bytes.length ≤
        (candidate dir stem program pid k).bytes.length := length_candidate_mono (Nat.zero_le k)
    rw [plain] at longer
    rw [outcome_of_overlong (by omega)]
    simp only [create, built, Steps.run]
    exact ⟨m.errno, rfl⟩

/-! ## There is an end -/

/-- Each name that is taken is so by an entry of its own. -/
theorem exists_place (dir stem program : CString) (pid : Int) (m : Machine) :
    ∃ place : Nat → Place, Function.Injective place ∧
      ∀ j, ¬ Free dir stem program pid m j → (m.files.entry? (place j)).isSome ∧ place j ≠ [] := by
  let start := FileTree.start m.working (baseName dir stem program pid)
  let names := (ended slash (baseName dir stem program pid)).filter (!·.isEmpty)
  let parent : Place := match m.files.walk start names with
    | .ok parent => parent
    | .error _ => []
  refine ⟨fun j => parent ++ [unended slash (baseName dir stem program pid) ++ suffix j], ?_, ?_⟩
  · intro i j same
    have last := (List.append_inj' same rfl).2
    exact suffix_injective (List.append_cancel_left (List.singleton_inj.mp last))
  · intro j taken
    obtain ⟨ne_nil, ne_here, ne_above⟩ :=
      unended_candidate_ne dir stem program pid j
    obtain ⟨found, walk, there⟩ := (not_not.mp taken).found ne_nil ne_here ne_above
    rw [start_candidate, ended_candidate] at walk
    have same : parent = found := by simp only [parent, start, names, walk]
    rw [unended_candidate, ← same] at there
    exact ⟨there, by simp⟩

/-- Among the first names, one more than there are entries, there is one that is not taken. -/
theorem exists_free (dir stem program : CString) (pid : Int) (m : Machine) :
    ∃ k ≤ m.files.entries.length, Free dir stem program pid m k ∧
      ∀ j < k, ¬ Free dir stem program pid m j := by
  have some_free : ∃ k ≤ m.files.entries.length, Free dir stem program pid m k := by
    by_contra none
    push Not at none
    obtain ⟨place, injective, there⟩ := exists_place dir stem program pid m
    -- all these places would have to be among those of the entries
    let places := (List.range (m.files.entries.length + 1)).map place
    have nodup : places.Nodup := List.nodup_range.map injective
    have among : places ⊆ m.files.entries.map Prod.fst := by
      intro q member
      obtain ⟨j, below, rfl⟩ := List.mem_map.mp member
      obtain ⟨found, ne_nil⟩ := there j (none j (by
        have := List.mem_range.mp below
        omega))
      have root : (place j).isEmpty = false := by simpa using ne_nil
      simp only [FileTree.entry?, root, Bool.false_eq_true, if_false, List.lookup_isSome_iff,
        beq_iff_eq] at found
      obtain ⟨pair, member, same⟩ := found
      exact List.mem_map.mpr ⟨pair, member, same.symm⟩
    have few := (nodup.subperm among).length_le
    simp only [places, List.length_map, List.length_range] at few
    omega
  obtain ⟨bound, le, free⟩ := some_free
  classical
  have exists_free : ∃ k, Free dir stem program pid m k := ⟨bound, free⟩
  refine ⟨Nat.find exists_free, (Nat.find_min' exists_free free).trans le,
    Nat.find_spec exists_free, fun j lt => Nat.find_min exists_free lt⟩

end Postmortem.LogFile

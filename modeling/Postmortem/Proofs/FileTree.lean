import Postmortem.Proofs.Pieces
import Postmortem.FileTree

/-! # Files that stay

Reports add files and append to files; nothing is ever removed or turned into something else. What
follows says what that keeps true: a path that leads somewhere goes on leading there, and a name
that is taken stays taken.
-/

namespace Postmortem

def FileEntry.isDirectory : FileEntry → Bool
  | .directory => true
  | .file _ _ => false
  | .foreign _ => false

/-- The entry as it was, or a file with more at its end. -/
inductive FileEntry.Extends : FileEntry → FileEntry → Prop where
  | directory : Extends .directory .directory
  | file (content more : Bytes) (run : Executable) :
      Extends (.file content run) (.file (content ++ more) run)
  | foreign (readable : Option Bytes) : Extends (.foreign readable) (.foreign readable)

namespace FileEntry

theorem Extends.refl : (entry : FileEntry) → entry.Extends entry
  | .directory => .directory
  | .file content run => by simpa using Extends.file content [] run
  | .foreign readable => .foreign readable

theorem Extends.trans {a b c : FileEntry} (h : a.Extends b) (h' : b.Extends c) : a.Extends c := by
  cases h with
  | directory | foreign => exact h'
  | file content more run =>
      cases h' with
      | file _ most _ =>
          rw [List.append_assoc]
          exact .file content (more ++ most) run

theorem Extends.isDirectory {a b : FileEntry} (h : a.Extends b) : b.isDirectory = a.isDirectory := by
  cases h <;> rfl

end FileEntry

namespace FileTree

variable {tree later : FileTree} {working place : Place} {path bytes : Bytes} {entry : FileEntry}

/-- Whatever is in the tree is in the later one, and is a directory there if it is one here. -/
def Grows (tree later : FileTree) : Prop :=
  ∀ place entry, tree.entry? place = some entry →
    ∃ entry', later.entry? place = some entry' ∧ entry'.isDirectory = entry.isDirectory

theorem Grows.refl (tree : FileTree) : tree.Grows tree :=
  fun _ entry found => ⟨entry, found, rfl⟩

theorem Grows.trans {middle : FileTree} (h : tree.Grows middle) (h' : middle.Grows later) :
    tree.Grows later := by
  intro place entry found
  obtain ⟨entry', found', same⟩ := h place entry found
  obtain ⟨entry'', found'', same'⟩ := h' place entry' found'
  exact ⟨entry'', found'', same'.trans same⟩

/-- Whatever is in the tree is in the later one, with nothing but additions. -/
def Extends (tree later : FileTree) : Prop :=
  ∀ place entry, tree.entry? place = some entry →
    ∃ entry', later.entry? place = some entry' ∧ entry.Extends entry'

theorem Extends.refl (tree : FileTree) : tree.Extends tree :=
  fun _ entry found => ⟨entry, found, .refl entry⟩

theorem Extends.trans {middle : FileTree} (h : tree.Extends middle) (h' : middle.Extends later) :
    tree.Extends later := by
  intro place entry found
  obtain ⟨entry', found', added⟩ := h place entry found
  obtain ⟨entry'', found'', added'⟩ := h' place entry' found'
  exact ⟨entry'', found'', added.trans added'⟩

theorem Extends.grows (h : tree.Extends later) : tree.Grows later := by
  intro place entry found
  obtain ⟨entry', found', added⟩ := h place entry found
  exact ⟨entry', found', added.isDirectory⟩

theorem Grows.directory (h : tree.Grows later) (found : tree.entry? place = some .directory) :
    later.entry? place = some .directory := by
  obtain ⟨entry', found', same⟩ := h place _ found
  cases entry' with
  | directory => exact found'
  | file | foreign => simp [FileEntry.isDirectory] at same

theorem Grows.isSome (h : tree.Grows later) (found : (tree.entry? place).isSome) :
    (later.entry? place).isSome := by
  obtain ⟨entry, found⟩ := Option.isSome_iff_exists.mp found
  obtain ⟨entry', found', -⟩ := h place entry found
  rw [found']
  rfl

private theorem lookup_replace (entries : List (Place × FileEntry)) (q : Place)
    (found : (entries.lookup place).isSome) :
    (entries.map fun (p, e) => if p = place then (p, entry) else (p, e)).lookup q =
      if q = place then some entry else entries.lookup q := by
  induction entries with
  | nil => simp at found
  | cons head rest ih =>
      obtain ⟨p, e⟩ := head
      by_cases same : p = place
      · subst same
        by_cases here : q = p
        · simp [here]
        · simp only [List.map_cons, if_true, List.lookup_cons, beq_eq_false_iff_ne.mpr here,
            if_neg here]
          by_cases again : (rest.lookup p).isSome
          · rw [ih again, if_neg here]
          · have absent : ∀ pair ∈ rest, pair.1 ≠ p := by
              intro pair member same
              apply again
              rw [List.lookup_isSome_iff]
              exact ⟨pair, member, by simp [same]⟩
            rw [List.map_congr_left (g := id), List.map_id]
            intro pair member
            simp [absent pair member]
      · have rest_found : (rest.lookup place).isSome := by
          have ne : (place == p) = false := beq_eq_false_iff_ne.mpr (Ne.symm same)
          simpa only [List.lookup_cons, ne] using found
        by_cases here : q = p
        · subst here
          simp [same]
        · simp only [List.map_cons, if_neg same, List.lookup_cons, beq_eq_false_iff_ne.mpr here,
            ih rest_found]

theorem lookup_put (tree : FileTree) (place q : Place) (entry : FileEntry) :
    (tree.put place entry).entries.lookup q =
      if q = place then some entry else tree.entries.lookup q := by
  rw [put]
  split
  · next found => exact lookup_replace tree.entries q found
  · next absent =>
    have none : tree.entries.lookup place = none := Option.not_isSome_iff_eq_none.mp absent
    rw [List.lookup_append]
    by_cases here : q = place
    · subst here
      simp [none]
    · have ne : (q == place) = false := beq_eq_false_iff_ne.mpr here
      simp [if_neg here, List.lookup_cons, ne]

theorem entry?_put (ne : place ≠ []) (q : Place) :
    FileTree.entry? (tree.put place entry) q = if q = place then some entry else tree.entry? q := by
  rw [ entry?, lookup_put, entry?]
  by_cases root : q = []
  · subst root
    simp [Ne.symm ne]
  · simp [root]

theorem ne_nil_of_none (h : tree.entry? place = none) : place ≠ [] := by
  rintro rfl
  simp [ entry?] at h

theorem ne_nil_of_file {content : Bytes} {run : Executable}
    (h : tree.entry? place = some (.file content run)) : place ≠ [] := by
  rintro rfl
  simp [ entry?] at h

theorem lookup_eq_none (h : tree.entry? place = none) : tree.entries.lookup place = none := by
  simpa [ entry?, ne_nil_of_none h] using h

/-- A new entry is added behind the others. -/
theorem entries_put (h : tree.entry? place = none) :
    (tree.put place entry).entries = tree.entries ++ [(place, entry)] := by
  simp [put, lookup_eq_none h]

theorem extends_put_new (entry : FileEntry) (h : tree.entry? place = none) :
    tree.Extends (tree.put place entry) := by
  intro q old found
  have ne : q ≠ place := by
    rintro rfl
    rw [h] at found
    cases found
  rw [ entry?_put (ne_nil_of_none h), if_neg ne]
  exact ⟨old, found, .refl old⟩

theorem extends_put {old entry : FileEntry} (ne : place ≠ []) (h : tree.entry? place = some old)
    (added : old.Extends entry) : tree.Extends (tree.put place entry) := by
  intro q found there
  rw [ entry?_put ne]
  split
  · next here =>
    subst here
    rw [h] at there
    cases there
    exact ⟨entry, rfl, added⟩
  · exact ⟨found, there, .refl found⟩

/-! ## Paths -/

theorem walk_append (tree : FileTree) (place : Place) (front back : List Bytes) :
    tree.walk place (front ++ back) =
      (tree.walk place front).bind fun middle => tree.walk middle back := by
  induction front generalizing place with
  | nil => rfl
  | cons name rest ih =>
      rw [List.cons_append, walk, walk]
      split
      · rfl
      · rfl
      · rfl
      · split
        · exact ih place
        · split
          · exact ih place.dropLast
          · split
            · rfl
            · split
              · rfl
              · exact ih (place ++ [name])

theorem walk_ne_alreadyExists {names : List Bytes} :
    tree.walk place names ≠ .error .alreadyExists := by
  induction names generalizing place with
  | nil => simp [walk]
  | cons name rest ih =>
      rw [walk]
      split
      · simp [Errno.notFound, Errno.alreadyExists]
      · simp [Errno.notDirectory, Errno.alreadyExists]
      · simp [Errno.notDirectory, Errno.alreadyExists]
      · split
        · exact ih
        · split
          · exact ih
          · split
            · simp [Errno.nameTooLong, Errno.alreadyExists]
            · split
              · simp [Errno.notFound, Errno.alreadyExists]
              · exact ih

/-- A walk that gets somewhere gets there later, too. -/
theorem Grows.walk (h : tree.Grows later) {names : List Bytes} {target : Place}
    (walked : tree.walk place names = .ok target) : later.walk place names = .ok target := by
  induction names generalizing place with
  | nil => exact walked
  | cons name rest ih =>
      rw [FileTree.walk] at walked ⊢
      split at walked
      · simp at walked
      · simp at walked
      · simp at walked
      · next directory =>
        rw [h.directory directory]
        dsimp only
        split at walked
        · next here =>
          rw [if_pos here]
          exact ih walked
        · next here =>
          rw [if_neg here]
          split at walked
          · next above =>
            rw [if_pos above]
            exact ih walked
          · next above =>
            rw [if_neg above]
            split at walked
            · simp at walked
            · next short =>
              rw [if_neg short]
              split at walked
              · simp at walked
              · next there =>
                have some : (tree.entry? (place ++ [name])).isSome := by
                  rw [Option.isNone_iff_eq_none] at there
                  exact Option.ne_none_iff_isSome.mp there
                have still := h.isSome some
                rw [if_neg (by simpa [Option.isSome_iff_ne_none] using still)]
                exact ih walked

/-- A path under which a file could be created, and the place it would get. -/
structure Vacant (tree : FileTree) (working : Place) (path : Bytes) (parent : Place)
    (name : Bytes) : Prop where
  ne_nil : path ≠ []
  length_le : path.length ≤ maxPath
  last : (components path).getLast? = some name
  walk : tree.walk (start working path) (components path).dropLast = .ok parent
  directory : tree.entry? parent = some .directory
  open_end : endsInSlash path = false
  ne_here : name ≠ here
  ne_above : name ≠ above
  name_le : name.length ≤ maxName
  free : tree.entry? (parent ++ [name]) = none

theorem vacant_of_vacancy (h : tree.vacancy working path = .ok place) :
    ∃ parent name, tree.Vacant working path parent name ∧ place = parent ++ [name] := by
  simp only [vacancy] at h
  repeat' split at h
  all_goals try cases h
  rename_i ne_nil length_le _ name last _ parent walk _ directory open_end special name_le free
  rw [not_or] at special
  exact ⟨parent, name, {
    ne_nil := by simpa using ne_nil
    length_le := Nat.le_of_not_lt length_le
    last := last
    walk := walk
    directory := directory
    open_end := by simpa using open_end
    ne_here := special.1
    ne_above := special.2
    name_le := Nat.le_of_not_lt name_le
    free := by simpa using free }, rfl⟩

variable {parent : Place} {name : Bytes}

theorem Vacant.vacancy (h : tree.Vacant working path parent name) :
    tree.vacancy working path = .ok (parent ++ [name]) := by
  have ne_nil : path.isEmpty = false := by simpa using h.ne_nil
  have special : ¬ (name = here ∨ name = above) := not_or.mpr ⟨h.ne_here, h.ne_above⟩
  simp only [FileTree.vacancy, ne_nil, Bool.false_eq_true, if_false,
    if_neg (Nat.not_lt_of_le h.length_le), h.last, h.walk, h.directory, h.open_end, if_neg special,
    if_neg (Nat.not_lt_of_le h.name_le), h.free, Option.isSome_none]

/-- A vacant path stays vacant until something is put at its place. -/
theorem Vacant.of_grows (h : tree.Vacant working path parent name) (grows : tree.Grows later)
    (free : later.entry? (parent ++ [name]) = none) : later.Vacant working path parent name :=
  { h with walk := grows.walk h.walk, directory := grows.directory h.directory, free := free }

/-- A path under which something is found that keeps a file from being created. -/
def Taken (tree : FileTree) (working : Place) (path : Bytes) : Prop :=
  tree.createExclusive working path = .error .alreadyExists

theorem Taken.vacancy (h : tree.Taken working path) :
    tree.vacancy working path = .error .alreadyExists := by
  rw [Taken, createExclusive] at h
  cases found : tree.vacancy working path with
  | ok place => simp [found, Except.map] at h
  | error e => simpa [found, Except.map] using h

/-- What keeps a file from being created is there to stay. -/
theorem Taken.of_grows (h : tree.Taken working path) (grows : tree.Grows later) :
    later.Taken working path := by
  have refused := h.vacancy
  have refused' : later.vacancy working path = .error .alreadyExists := by
    simp only [FileTree.vacancy] at refused ⊢
    repeat' split at refused
    all_goals try cases refused
    · next ne_nil length_le _ last =>
      rw [if_neg ne_nil, if_neg length_le]
    · next walk =>
      exact absurd walk walk_ne_alreadyExists
    · next ne_nil length_le _ _ last _ _ walk _ directory open_end special =>
      rw [if_neg ne_nil, if_neg length_le]
      simp only [grows.walk walk, grows.directory directory, if_neg open_end, if_pos special]
    · next ne_nil length_le _ _ last _ _ walk _ directory open_end special name_le there =>
      rw [if_neg ne_nil, if_neg length_le]
      simp only [grows.walk walk, grows.directory directory, if_neg open_end, if_neg special,
        if_neg name_le, grows.isSome there, if_true]
  rw [Taken, createExclusive, refused']
  rfl

/-- The last component of a path that does not end in a separator. -/
theorem components_eq (ne_nil : Bytes.unended Bytes.slash path ≠ []) :
    components path =
      (Bytes.ended Bytes.slash path).filter (!·.isEmpty) ++ [Bytes.unended Bytes.slash path] := by
  have shown : (!(Bytes.unended Bytes.slash path).isEmpty) = true := by simpa using ne_nil
  rw [components, Bytes.pieces_eq, List.filter_append]
  simp only [List.filter_cons, shown, if_true, List.filter_nil]

/-- If the last component of a path is an ordinary name, only an entry of that name keeps a file
    from being created. -/
theorem Taken.found (h : tree.Taken working path) (ne_nil : Bytes.unended Bytes.slash path ≠ [])
    (ne_here : Bytes.unended Bytes.slash path ≠ here)
    (ne_above : Bytes.unended Bytes.slash path ≠ above) :
    ∃ parent, tree.walk (start working path)
        ((Bytes.ended Bytes.slash path).filter (!·.isEmpty)) = .ok parent ∧
      (tree.entry? (parent ++ [Bytes.unended Bytes.slash path])).isSome := by
  have refused := h.vacancy
  have last : (components path).getLast? = some (Bytes.unended Bytes.slash path) := by
    rw [components_eq ne_nil, List.getLast?_concat]
  have front : (components path).dropLast =
      (Bytes.ended Bytes.slash path).filter (!·.isEmpty) := by
    rw [components_eq ne_nil, List.dropLast_concat]
  have ordinary := not_or.mpr ⟨ne_here, ne_above⟩
  simp only [FileTree.vacancy, last, front, if_neg ordinary] at refused
  repeat' split at refused
  all_goals try cases refused
  · next walk => exact absurd walk walk_ne_alreadyExists
  · next parent walk _ _ _ _ there => exact ⟨parent, walk, there⟩

/-- What a path leads to. -/
theorem locate_iff : tree.locate working path = .ok (place, entry) ↔
    path ≠ [] ∧ path.length ≤ maxPath ∧
      tree.walk (start working path) (components path) = .ok place ∧
      tree.entry? place = some entry ∧ (entry.isDirectory = true ∨ endsInSlash path = false) := by
  by_cases empty : path = []
  · simp [locate, empty]
  by_cases long : maxPath < path.length
  · simp [locate, empty, long]
  cases walk : tree.walk (start working path) (components path) with
  | error e => simp [locate, empty, long, walk]
  | ok target =>
      cases there : tree.entry? target with
      | none =>
          simp only [locate, List.isEmpty_iff, empty, long, walk, there]
          grind
      | some found =>
          cases found with
          | directory | file | foreign =>
              simp only [locate, List.isEmpty_iff, empty, long, walk, there]
              grind [FileEntry.isDirectory]

theorem read_iff {content : Bytes} : tree.read working path = .ok content ↔
    ∃ place run, tree.locate working path = .ok (place, .file content run) := by
  constructor
  · intro read
    rw [FileTree.read] at read
    split at read
    · cases read
    · cases read
    · cases read
    · cases read
    · next place _ run located =>
      cases read
      exact ⟨place, run, located⟩
  · rintro ⟨place, run, located⟩
    rw [FileTree.read, located]

/-- What a path led to is still there, with nothing but additions. -/
theorem Extends.locate (h : tree.Extends later) {entry : FileEntry}
    (was : tree.locate working path = .ok (place, entry)) :
    ∃ entry', later.locate working path = .ok (place, entry') ∧ entry.Extends entry' := by
  obtain ⟨ne_nil, length_le, walk, there, open_end⟩ := locate_iff.mp was
  obtain ⟨entry', there', added⟩ := h place entry there
  refine ⟨entry', locate_iff.mpr ⟨ne_nil, length_le, h.grows.walk walk, there', ?_⟩, added⟩
  rwa [added.isDirectory]

/-- What was read can be read again, with nothing but additions. -/
theorem Extends.read (h : tree.Extends later) {content : Bytes}
    (was : tree.read working path = .ok content) :
    ∃ more, later.read working path = .ok (content ++ more) := by
  obtain ⟨place, run, located⟩ := read_iff.mp was
  obtain ⟨_, located', added⟩ := h.locate located
  cases added with
  | file _ more _ => exact ⟨more, read_iff.mpr ⟨place, run, located'⟩⟩

theorem Extends.locate_directory (h : tree.Extends later)
    (was : tree.locate working path = .ok (place, .directory)) :
    later.locate working path = .ok (place, .directory) := by
  obtain ⟨_, located, added⟩ := h.locate was
  cases added
  exact located

/-- A program that is executed is executed later, too. -/
theorem Extends.execute (h : tree.Extends later) {p : Program}
    (was : tree.execute working path = .ok p) : later.execute working path = .ok p := by
  rw [FileTree.execute] at was
  split at was
  · cases was
  · cases was
  · cases was
  · cases was
  · cases was
  · next located =>
    cases was
    obtain ⟨_, located', added⟩ := h.locate located
    cases added
    rw [FileTree.execute, located']

/-! ## New entries -/

variable {more : List (Place × FileEntry)}

theorem entry?_of_entries (h : later.entries = tree.entries ++ more)
    (found : tree.entry? place = some entry) : later.entry? place = some entry := by
  rw [FileTree.entry?] at found ⊢
  split
  · next root => rwa [if_pos root] at found
  · next root =>
    rw [if_neg root] at found
    rw [h, List.lookup_append, found, Option.some_or]

/-- Nothing comes up anywhere else than at the place of the new entry. -/
theorem absent_of_entries {other : Place} (h : later.entries = tree.entries ++ [(place, entry)])
    (absent : tree.entry? other = none) (ne : other ≠ place) : later.entry? other = none := by
  rw [FileTree.entry?, if_neg (by simpa using ne_nil_of_none absent), h, List.lookup_append,
    lookup_eq_none absent, List.lookup_cons, beq_eq_false_iff_ne.mpr ne]
  rfl

theorem extends_of_entries (h : later.entries = tree.entries ++ more) : tree.Extends later :=
  fun _ entry found => ⟨entry, entry?_of_entries h found, .refl entry⟩

/-- Where nothing but new entries has come, whatever is found is as it was. -/
theorem locate_of_entries (h : later.entries = tree.entries ++ more)
    (was : tree.locate working path = .ok (place, entry)) :
    later.locate working path = .ok (place, entry) := by
  obtain ⟨ne_nil, length_le, walk, there, open_end⟩ := locate_iff.mp was
  exact locate_iff.mpr ⟨ne_nil, length_le, (extends_of_entries h).grows.walk walk,
    entry?_of_entries h there, open_end⟩

/-- A file with this content has been added, to which the path leads, and that is all. -/
structure Added (tree later : FileTree) (working : Place) (path : Bytes) (place : Place)
    (content : Bytes) : Prop where
  none : tree.entry? place = none
  entries : later.entries = tree.entries ++ [(place, .file content .forbidden)]
  located : later.locate working path = .ok (place, .file content .forbidden)

theorem Vacant.added (h : tree.Vacant working path parent name) :
    tree.Added (tree.put (parent ++ [name]) (.file [] .forbidden)) working path
      (parent ++ [name]) [] := by
  have grows := (extends_put_new (.file [] .forbidden) h.free).grows
  have there : FileTree.entry? (tree.put (parent ++ [name]) (.file [] .forbidden))
      (parent ++ [name]) = some (.file [] .forbidden) := by
    rw [ entry?_put (ne_nil_of_none h.free), if_pos rfl]
  have names : components path = (components path).dropLast ++ [name] :=
    (List.dropLast_append_getLast? name h.last).symm
  refine ⟨h.free, entries_put h.free,
    locate_iff.mpr ⟨h.ne_nil, h.length_le, ?_, there, .inr h.open_end⟩⟩
  rw [names, walk_append, grows.walk h.walk]
  simp only [Except.bind, FileTree.walk, grows.directory h.directory, if_neg h.ne_here,
    if_neg h.ne_above, if_neg (Nat.not_lt_of_le h.name_le), there, Option.isNone_some,
    Bool.false_eq_true, if_false]

/-- What is appended to a file that has been added is added with it. -/
theorem Added.append {content : Bytes} (h : tree.Added later working path place content)
    (bytes : Bytes) :
    ∃ final, later.append working path bytes = .ok final ∧
      tree.Added final working path place (content ++ bytes) := by
  have ne := ne_nil_of_none h.none
  have absent := lookup_eq_none h.none
  obtain ⟨ne_nil, length_le, walk, there, open_end⟩ := locate_iff.mp h.located
  have grows := (extends_put ne there (.file content bytes .forbidden)).grows
  refine ⟨later.put place (.file (content ++ bytes) .forbidden), ?_, h.none, ?_, ?_⟩
  · rw [FileTree.append, h.located]
  · have elsewhere : ∀ pair ∈ tree.entries, pair.1 ≠ place := by
      rintro pair member rfl
      simpa using List.lookup_eq_none_iff.mp absent pair member
    have found : (later.entries.lookup place).isSome := by
      rw [h.entries, List.lookup_append, absent]
      simp
    have kept : tree.entries.map (fun (p, e) =>
        if p = place then (p, .file (content ++ bytes) .forbidden) else (p, e)) = tree.entries := by
      rw [List.map_congr_left (g := id), List.map_id]
      intro pair member
      simp [elsewhere pair member]
    rw [FileTree.put, if_pos found, h.entries, List.map_append, kept]
    simp
  · exact locate_iff.mpr ⟨ne_nil, length_le, grows.walk walk,
      by rw [ entry?_put ne, if_pos rfl], open_end⟩

/-! ## Creating -/

/-- Creating a file adds an empty one at a place where nothing was, and that is all. -/
structure Created (tree later : FileTree) (working : Place) (path : Bytes) (place : Place) :
    Prop where
  none : tree.entry? place = none
  entries : later.entries = tree.entries ++ [(place, .file [] .forbidden)]
  grows : tree.Grows later
  taken : later.Taken working path
  read : later.read working path = .ok []

theorem Vacant.created (h : tree.Vacant working path parent name) :
    tree.Created (tree.put (parent ++ [name]) (.file [] .forbidden)) working path
      (parent ++ [name]) := by
  have grows := (extends_put_new (.file [] .forbidden) h.free).grows
  have there : FileTree.entry? (tree.put (parent ++ [name]) (.file [] .forbidden))
      (parent ++ [name]) = some (.file [] .forbidden) := by
    rw [ entry?_put (ne_nil_of_none h.free), if_pos rfl]
  have ne_nil : path.isEmpty = false := by simpa using h.ne_nil
  have special : ¬ (name = here ∨ name = above) := not_or.mpr ⟨h.ne_here, h.ne_above⟩
  refine ⟨h.free, entries_put h.free, grows, ?_, ?_⟩
  · simp only [Taken, createExclusive, FileTree.vacancy, ne_nil, Bool.false_eq_true, if_false,
      if_neg (Nat.not_lt_of_le h.length_le), h.last, grows.walk h.walk,
      grows.directory h.directory, h.open_end, if_neg special,
      if_neg (Nat.not_lt_of_le h.name_le), there, Option.isSome_some, if_true, Except.map]
  · exact read_iff.mpr ⟨_, _, h.added.located⟩

theorem created_of_createExclusive (h : tree.createExclusive working path = .ok later) :
    ∃ parent name, tree.Vacant working path parent name ∧
      later = tree.put (parent ++ [name]) (.file [] .forbidden) ∧
      tree.Created later working path (parent ++ [name]) := by
  rw [createExclusive] at h
  cases found : tree.vacancy working path with
  | error e => simp [found, Except.map] at h
  | ok place =>
      obtain ⟨parent, name, vacant, rfl⟩ := vacant_of_vacancy found
      rw [found] at h
      cases h
      exact ⟨parent, name, vacant, rfl, vacant.created⟩

theorem Created.read_of {other content : Bytes} (h : tree.Created later working path place)
    (was : tree.read working other = .ok content) : later.read working other = .ok content := by
  obtain ⟨place, run, located⟩ := read_iff.mp was
  exact read_iff.mpr ⟨place, run, locate_of_entries h.entries located⟩

/-! ## Appending -/

theorem extends_of_createExclusive (h : tree.createExclusive working path = .ok later) :
    tree.Extends later := by
  obtain ⟨_, _, vacant, rfl, -⟩ := created_of_createExclusive h
  exact extends_put_new _ vacant.free

/-- What an addition to a file has found and left. -/
theorem append_eq_ok (h : tree.append working path bytes = .ok later) :
    ∃ place content run, tree.locate working path = .ok (place, .file content run) ∧
      place ≠ [] ∧ tree.entry? place = some (.file content run) ∧
      later = tree.put place (.file (content ++ bytes) run) := by
  rw [append] at h
  split at h
  · cases h
  · cases h
  · cases h
  · next place content run located =>
    cases h
    obtain ⟨-, -, -, there, -⟩ := locate_iff.mp located
    exact ⟨place, content, run, located, ne_nil_of_file there, there, rfl⟩

theorem extends_of_append (h : tree.append working path bytes = .ok later) :
    tree.Extends later := by
  obtain ⟨place, content, run, -, ne, there, rfl⟩ := append_eq_ok h
  exact extends_put ne there (.file content bytes run)

theorem extends_of_appendOrCreate (h : tree.appendOrCreate working path bytes = .ok later) :
    tree.Extends later := by
  rw [appendOrCreate] at h
  split at h
  · split at h
    · cases found : tree.createExclusive working path with
      | error e =>
          rw [found] at h
          cases h
      | ok middle =>
          rw [found] at h
          exact (extends_of_createExclusive found).trans (extends_of_append h)
    · cases h
  · next appended =>
    cases h
    exact extends_of_append appended

end FileTree

end Postmortem

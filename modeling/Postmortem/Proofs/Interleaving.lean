import Postmortem.Proofs.AnnouncementLines

/-! # Announcements that are interleaved

Several announcements for one program come out on one stream, each with its lines in order and with
any other lines among them. The check of the stream sees neither whose a line is nor how many
announcements there are. Yet it succeeds exactly if none of them begins before another one has ended.

The lines that matter are those of whole announcements, one after another, up to the first header
inside an announcement, if there is one. The check cannot fail before that line, and fails there.
-/

namespace Postmortem.Check

open Bytes (newline dash dropReturn pieces)

/-- A complete announcement: its parts, once each and in their order, among other lines. The end of
    the work on the log file is a part of its own unless the line that names the file says it. -/
structure Announcement (program : Bytes) where
  lines : List Bytes
  header : Bytes
  log : Bytes
  name : Bytes
  footer : Bytes
  isHeader : IsHeader program header
  names : Names log name
  isFooter : IsFooter footer
  marked : lines.filter (Marked program ·) =
    header :: log :: if utf8 " done." <:+ log then [footer] else [utf8 " done.", footer]
  clean : ∀ line ∈ lines, newline ∉ line ∧ line.getLast? ≠ some 13

/-- The parts after the line that names the log file. -/
def Announcement.ending {program : Bytes} (x : Announcement program) : List Bytes :=
  if utf8 " done." <:+ x.log then [x.footer] else [utf8 " done.", x.footer]

/-- The parts of an announcement. -/
def Announcement.parts {program : Bytes} (x : Announcement program) : List Bytes :=
  x.header :: x.log :: x.ending

variable {ι : Type} {program : Bytes}

/-- The parts of an announcement one after another. -/
def block (a : ι → Announcement program) (i : ι) : List (ι × Bytes) := (a i).parts.map (i, ·)

variable [DecidableEq ι]

/-- The lines that are from one announcement. -/
def owned (i : ι) (entries : List (ι × Bytes)) : List Bytes :=
  (entries.filter (·.1 = i)).map (·.2)

/-- Lines, each with the announcement that it is from. -/
structure Interleaving (a : ι → Announcement program) where
  entries : List (ι × Bytes)
  inOrder : ∀ i, owned i entries = (a i).lines

namespace Interleaving

variable {a : ι → Announcement program} (m : Interleaving a)

/-- The stream. -/
def text : Bytes := (m.entries.map (·.2)).flatMap (· ++ [newline])

/-- The lines that are parts of announcements. -/
def marked : List (ι × Bytes) := m.entries.filter (Marked program ·.2)

/-- No two announcements overlap: the one ends before the other begins. -/
def Apart : Prop :=
  ∀ i j, i ≠ j → [(i, (a i).footer), (j, (a j).header)].Sublist m.entries ∨
    [(j, (a j).footer), (i, (a i).header)].Sublist m.entries

/-- The parts of the announcements come out as whole announcements in this order. -/
structure InTurn (order : List ι) : Prop where
  once : order.Nodup
  all : ∀ i, i ∈ order
  marked : m.marked = order.flatMap (block a)

end Interleaving

/-! ## Parts -/

section Parts

omit [DecidableEq ι]

variable {x : Announcement program} {a : ι → Announcement program} {i : ι} {order : List ι}
  {line : Bytes}

theorem Announcement.parts_eq (x : Announcement program) :
    ∃ rest, x.parts = x.header :: (rest ++ [x.footer]) := by
  rw [parts, ending]
  split
  · exact ⟨[x.log], rfl⟩
  · exact ⟨[x.log, utf8 " done."], rfl⟩

theorem Announcement.header_mem (x : Announcement program) : x.header ∈ x.parts := by
  obtain ⟨rest, parts⟩ := x.parts_eq
  simp [parts]

theorem Announcement.footer_mem (x : Announcement program) : x.footer ∈ x.parts := by
  obtain ⟨rest, parts⟩ := x.parts_eq
  simp [parts]

/-- No two parts are of one kind. -/
theorem Announcement.parts_nodup (x : Announcement program) : x.parts.Nodup := by
  refine List.Nodup.of_map (Line.classify program) ?_
  rw [parts, ending]
  split
  all_goals
    simp [classify_of_header x.isHeader, classify_of_names x.names, classify_of_footer x.isFooter,
      classify_done]

theorem mem_blocks : (i, line) ∈ order.flatMap (block a) ↔ i ∈ order ∧ line ∈ (a i).parts := by
  simp only [List.mem_flatMap, block, List.mem_map, Prod.mk.injEq]
  constructor
  · rintro ⟨j, member, part, inside, rfl, rfl⟩
    exact ⟨member, inside⟩
  · rintro ⟨member, inside⟩
    exact ⟨i, member, line, inside, rfl, rfl⟩

end Parts

/-! ## Whose lines they are -/

section Owners

variable {i j : ι} {entries rest : List (ι × Bytes)} {line : Bytes}

theorem owned_cons_self : owned i ((i, line) :: rest) = line :: owned i rest := by
  simp [owned]

theorem owned_cons_of_ne (ne : j ≠ i) : owned i ((j, line) :: rest) = owned i rest := by
  simp [owned, ne]

theorem owned_append : owned i (entries ++ rest) = owned i entries ++ owned i rest := by
  simp [owned]

theorem mem_owned : line ∈ owned i entries ↔ (i, line) ∈ entries := by
  simp [owned]

theorem owned_eq_nil_iff : owned i entries = [] ↔ ∀ line, (i, line) ∉ entries := by
  simp only [List.eq_nil_iff_forall_not_mem, mem_owned]

theorem owned_map_of_ne (ne : j ≠ i) (lines : List Bytes) : owned i (lines.map (j, ·)) = [] := by
  induction lines with
  | nil => rfl
  | cons line lines ih => rw [List.map_cons, owned_cons_of_ne ne, ih]

end Owners

/-! ## Whole announcements up to the first overlap -/

section Overlaps

variable {a : ι → Announcement program} {i j : ι} {entries : List (ι × Bytes)}

/-- All parts of an announcement are there, or none. -/
def Whole (a : ι → Announcement program) (entries : List (ι × Bytes)) (i : ι) : Prop :=
  owned i entries = [] ∨ owned i entries = (a i).parts

/-- One announcement is under way when another one begins. -/
structure Overlap (a : ι → Announcement program) (entries : List (ι × Bytes)) (i j : ι)
    (front back : List Bytes) (later : List (ι × Bytes)) : Prop where
  ne : i ≠ j
  rest : back ≠ []
  entries : entries = front.map (i, ·) ++ (j, (a j).header) :: later
  owned : owned i later = back

/-- The first line of an announcement is its header. -/
theorem Whole.first {line : Bytes} {rest : List (ι × Bytes)} (h : Whole a ((i, line) :: rest) i) :
    line = (a i).header := by
  obtain ⟨more, parts⟩ := (a i).parts_eq
  obtain none | all := h
  · rw [owned_cons_self] at none
    cases none
  · rw [owned_cons_self, parts, List.cons.injEq] at all
    exact all.1

/-- What is left of an announcement follows at once, or another one begins before it is over. -/
theorem left_or_overlap {left : List Bytes} (own : owned i entries = left)
    (others : ∀ j, j ≠ i → Whole a entries j) :
    (∃ rest, entries = left.map (i, ·) ++ rest ∧ owned i rest = [] ∧
      ∀ j, j ≠ i → Whole a rest j) ∨
    ∃ j front back later, left = front ++ back ∧ Overlap a entries i j front back later := by
  induction left generalizing entries with
  | nil => exact .inl ⟨entries, rfl, own, others⟩
  | cons line left ih =>
      cases entries with
      | nil => cases own
      | cons entry rest =>
          obtain ⟨j, next⟩ := entry
          by_cases same : j = i
          · subst same
            rw [owned_cons_self, List.cons.injEq] at own
            obtain ⟨rfl, own⟩ := own
            have others (k : ι) (ne : k ≠ j) : Whole a rest k := by
              have whole := others k ne
              rwa [Whole, owned_cons_of_ne (Ne.symm ne)] at whole
            obtain ⟨rest, rfl, none, whole⟩ | ⟨k, front, back, later, rfl, overlap⟩ := ih own others
            · exact .inl ⟨rest, rfl, none, whole⟩
            · refine .inr ⟨k, next :: front, back, later, rfl, overlap.ne, overlap.rest, ?_,
                overlap.owned⟩
              rw [overlap.entries]
              rfl
          · obtain rfl : next = (a j).header := (others j same).first
            rw [owned_cons_of_ne same] at own
            exact .inr ⟨j, [], line :: left, rest, rfl, Ne.symm same, nofun, rfl, own⟩

/-- An announcement begins, and stands there without a break unless another one overlaps it. -/
theorem block_or_overlap {line : Bytes} {rest : List (ι × Bytes)}
    (whole : ∀ j, Whole a ((i, line) :: rest) j) :
    (∃ more, (i, line) :: rest = block a i ++ more ∧ owned i more = [] ∧ ∀ j, Whole a more j) ∨
    ∃ j front back later, (a i).parts = front ++ back ∧ front ≠ [] ∧
      Overlap a ((i, line) :: rest) i j front back later := by
  have own : owned i ((i, line) :: rest) = (a i).parts := by
    obtain none | all := whole i
    · rw [owned_cons_self] at none
      cases none
    · exact all
  obtain ⟨more, text, none, others⟩ | ⟨j, front, back, later, parts, overlap⟩ :=
    left_or_overlap own (fun j _ => whole j)
  · refine .inl ⟨more, text, none, fun j => ?_⟩
    by_cases same : j = i
    · rw [same]
      exact .inl none
    · exact others j same
  · refine .inr ⟨j, front, back, later, parts, ?_, overlap⟩
    rintro rfl
    have same := congrArg List.head? overlap.entries
    exact overlap.ne (Prod.mk.inj (Option.some.inj same)).1

/-- Whole announcements one after another, and then, if there is more, the first overlap. -/
theorem blocks_or_overlap (whole : ∀ i, Whole a entries i) :
    ∃ (order : List ι) (rest : List (ι × Bytes)),
      entries = order.flatMap (block a) ++ rest ∧ order.Nodup ∧ (∀ i ∈ order, owned i rest = []) ∧
      (rest = [] ∨ ∃ i j front back later, (a i).parts = front ++ back ∧ front ≠ [] ∧
        Overlap a rest i j front back later) := by
  induction size : entries.length using Nat.strong_induction_on generalizing entries with
  | _ n ih =>
      cases entries with
      | nil => exact ⟨[], [], rfl, List.nodup_nil, nofun, .inl rfl⟩
      | cons entry rest =>
          obtain ⟨i, line⟩ := entry
          obtain ⟨more, text, none, whole⟩ | ⟨j, overlap⟩ := block_or_overlap whole
          · have shorter : more.length < n := by
              obtain ⟨between, parts⟩ := (a i).parts_eq
              rw [← size, text, block, List.length_append, List.length_map, parts,
                List.length_cons]
              omega
            obtain ⟨order, last, rfl, once, spent, ends⟩ := ih more.length shorter whole rfl
            refine ⟨i :: order, last, ?_, ?_, ?_, ends⟩
            · rw [text, List.flatMap_cons, List.append_assoc]
            · refine List.nodup_cons.mpr ⟨fun again => ?_, once⟩
              have here := mem_blocks.mpr ⟨again, (a i).header_mem⟩
              exact owned_eq_nil_iff.mp none _ (List.mem_append_left _ here)
            · rw [owned_append, List.append_eq_nil_iff] at none
              intro j member
              obtain rfl | later := List.mem_cons.mp member
              · exact none.2
              · exact spent j later
          · exact ⟨[], _, rfl, List.nodup_nil, nofun, .inr ⟨i, j, overlap⟩⟩

end Overlaps

/-! ## Reading the parts -/

section Reading

omit [DecidableEq ι]

variable {a : ι → Announcement program} (x : Announcement program) (rest : List Bytes)

theorem readLines_header :
    readLines program .idle (x.header :: rest) = readLines program .headed rest := by
  have step : advance .idle x.header (Line.classify program x.header) = .ok (.headed, []) := by
    rw [classify_of_header x.isHeader]
    rfl
  rw [readLines_cons step, map_nil_append]

/-- How far an announcement has got when the log file has been named. -/
def Announcement.named : Progress := if utf8 " done." <:+ x.log then .finished else .writing

theorem readLines_log : readLines program .headed (x.log :: rest) =
    (readLines program x.named rest).map ([x.name] ++ ·) := by
  have ends : Bytes.endsWith x.log Line.doneMark = decide (utf8 " done." <:+ x.log) := by
    rw [Bytes.endsWith, Bool.eq_iff_iff, List.isSuffixOf_iff_suffix, decide_eq_true_eq]
    rfl
  have step : advance .headed x.log (Line.classify program x.log) = .ok (x.named, [x.name]) := by
    rw [classify_of_names x.names, ends, Announcement.named]
    by_cases closed : utf8 " done." <:+ x.log
    · simp [advance, closed]
    · simp [advance, closed]
  exact readLines_cons step

theorem readLines_done :
    readLines program .writing (utf8 " done." :: rest) = readLines program .finished rest := by
  have step : advance .writing (utf8 " done.") (Line.classify program (utf8 " done.")) =
      .ok (.finished, []) := by
    rw [classify_done]
    rfl
  rw [readLines_cons step, map_nil_append]

theorem readLines_footer :
    readLines program .finished (x.footer :: rest) = readLines program .idle rest := by
  have step : advance .finished x.footer (Line.classify program x.footer) = .ok (.idle, []) := by
    rw [classify_of_footer x.isFooter]
    rfl
  rw [readLines_cons step, map_nil_append]

/-- A header is a fault unless no announcement is under way. -/
theorem readLines_header_inside {p : Progress} (busy : p ≠ .idle) :
    readLines program p (x.header :: rest) = .error .headerInside := by
  rw [readLines, classify_of_header x.isHeader, advance, if_neg busy]
  rfl

theorem readLines_ending :
    readLines program x.named (x.ending ++ rest) = readLines program .idle rest := by
  rw [Announcement.named, Announcement.ending]
  split
  · exact readLines_footer x rest
  · rw [List.cons_append, readLines_done]
    exact readLines_footer x rest

/-- A whole announcement is read. -/
theorem readLines_parts : readLines program .idle (x.parts ++ rest) =
    (readLines program .idle rest).map ([x.name] ++ ·) := by
  rw [Announcement.parts, List.cons_append, List.cons_append, readLines_header, readLines_log,
    readLines_ending]

/-- The end of the work is the only part that can come between the log file and the footer. -/
theorem readLines_ending_begun {front back : List Bytes} (parts : x.ending = front ++ back)
    (unfinished : back ≠ []) : ∃ p, p ≠ .idle ∧
      ∀ rest, readLines program x.named (front ++ rest) = readLines program p rest := by
  rw [Announcement.ending] at parts
  rw [Announcement.named]
  split at parts
  case isTrue closed =>
    rw [if_pos closed]
    obtain ⟨rfl, rfl⟩ | ⟨rfl, rfl⟩ := List.singleton_eq_append_iff.mp parts
    · exact ⟨.finished, nofun, fun rest => rfl⟩
    · exact absurd rfl unfinished
  case isFalse opened =>
    rw [if_neg opened]
    obtain ⟨rfl, rfl⟩ | ⟨more, rfl, last⟩ := List.cons_eq_append_iff.mp parts
    · exact ⟨.writing, nofun, fun rest => rfl⟩
    · obtain ⟨rfl, rfl⟩ | ⟨rfl, rfl⟩ := List.singleton_eq_append_iff.mp last
      · exact ⟨.finished, nofun, fun rest => readLines_done rest⟩
      · exact absurd rfl unfinished

/-- An announcement that has begun and is not over is under way. -/
theorem readLines_begun {front back : List Bytes} (parts : x.parts = front ++ back)
    (begun : front ≠ []) (unfinished : back ≠ []) : ∃ p logs, p ≠ .idle ∧
      ∀ rest, readLines program .idle (front ++ rest) =
        (readLines program p rest).map (logs ++ ·) := by
  obtain ⟨rfl, -⟩ | ⟨front, rfl, afterHeader⟩ := List.cons_eq_append_iff.mp parts
  · exact absurd rfl begun
  · obtain ⟨rfl, -⟩ | ⟨front, rfl, afterLog⟩ := List.cons_eq_append_iff.mp afterHeader
    · refine ⟨.headed, [], nofun, fun rest => ?_⟩
      rw [map_nil_append]
      exact readLines_header x rest
    · obtain ⟨p, busy, reads⟩ := readLines_ending_begun x afterLog unfinished
      refine ⟨p, [x.name], busy, fun rest => ?_⟩
      rw [List.cons_append, List.cons_append, readLines_header, readLines_log, reads]

theorem map_cons_append {ε : Type} (first more : List Bytes) (found : Except ε (List Bytes)) :
    (found.map (more ++ ·)).map (first ++ ·) = found.map (first ++ more ++ ·) := by
  cases found with
  | error e => rfl
  | ok found => simp [Except.map]

/-- Whole announcements are read one after another. -/
theorem readLines_blocks (order : List ι) (rest : List Bytes) :
    readLines program .idle ((order.flatMap (block a)).map (·.2) ++ rest) =
      (readLines program .idle rest).map ((order.map fun i => (a i).name) ++ ·) := by
  induction order with
  | nil => rw [List.map_nil, map_nil_append]; rfl
  | cons i order ih =>
      have lines : (block a i).map (·.2) = (a i).parts := by
        rw [block, List.map_map]
        exact List.map_id _
      rw [List.flatMap_cons, List.map_append, lines, List.append_assoc, readLines_parts, ih,
        map_cons_append]
      rfl

end Reading

/-- An overlap is a fault. -/
theorem readLines_overlap {a : ι → Announcement program} {entries later : List (ι × Bytes)}
    {i j : ι} {front back : List Bytes} (parts : (a i).parts = front ++ back) (begun : front ≠ [])
    (overlap : Overlap a entries i j front back later) :
    readLines program .idle (entries.map (·.2)) = .error .headerInside := by
  obtain ⟨p, logs, busy, reads⟩ := readLines_begun (a i) parts begun overlap.rest
  have lines : entries.map (·.2) = front ++ (a j).header :: later.map (·.2) := by
    rw [overlap.entries, List.map_append, List.map_map, List.map_cons]
    exact congrArg (· ++ _) (List.map_id _)
  rw [lines, reads, readLines_header_inside (a j) _ busy]
  rfl

/-! ## Reading the stream -/

/-- Only the lines that are parts of announcements matter. -/
theorem readLines_marked (p : Progress) (lines : List Bytes) :
    readLines program p lines = readLines program p (lines.filter (Marked program ·)) := by
  induction lines generalizing p with
  | nil => rfl
  | cons line lines ih =>
      by_cases part : Marked program line
      · rw [List.filter_cons, if_pos (decide_eq_true part), readLines, readLines]
        congr 1
        funext next
        obtain ⟨q, found⟩ := next
        exact congrArg (· >>= fun more => pure (found ++ more)) (ih q)
      · have step : advance p line (Line.classify program line) = .ok (p, []) := by
          rw [classify_of_not_marked part]
          rfl
        rw [List.filter_cons, if_neg (by simpa using part), readLines_cons step, map_nil_append, ih]

/-- Lines of which each is ended are the lines of the text that they make up. -/
theorem lines_flatMap {lines : List Bytes}
    (clean : ∀ line ∈ lines, newline ∉ line ∧ line.getLast? ≠ some 13) :
    Bytes.lines (lines.flatMap (· ++ [newline])) = lines := by
  induction lines with
  | nil => rfl
  | cons line lines ih =>
      obtain ⟨single, last⟩ := clean line List.mem_cons_self
      have more := ih fun line member => clean line (List.mem_cons_of_mem _ member)
      have kept : dropReturn line = line := by rw [dropReturn, if_neg last]
      rw [Bytes.lines] at more ⊢
      rw [List.flatMap_cons, List.append_assoc, List.singleton_append,
        Bytes.pieces_append_mark single]
      cases cut : pieces newline (lines.flatMap (· ++ [newline])) with
      | nil => exact absurd cut (Bytes.pieces_ne_nil _ _)
      | cons piece pieces =>
          rw [cut] at more
          rw [Bytes.ofPieces, kept, more]
          exact List.cons_ne_nil piece pieces

/-! ## Overlaps and spans -/

omit [DecidableEq ι] in
/-- Of two announcements that come in turn one comes first. -/
theorem pair_sublist {order : List ι} {i j : ι} (ne : i ≠ j) (hi : i ∈ order) (hj : j ∈ order) :
    [i, j].Sublist order ∨ [j, i].Sublist order := by
  obtain ⟨before, after, rfl⟩ := List.append_of_mem hi
  rw [List.mem_append, List.mem_cons] at hj
  obtain earlier | same | later := hj
  · exact .inr ((List.singleton_sublist.mpr earlier).append
      (List.singleton_sublist.mpr List.mem_cons_self))
  · exact absurd same.symm ne
  · exact .inl (((List.singleton_sublist.mpr later).cons_cons i).trans
      (List.sublist_append_right before _))

/-- What is only in the second half does not come before what is only in the first. -/
theorem not_pair_sublist {α : Type} {x y : α} {front back : List α} (hx : x ∉ front)
    (hy : y ∉ back) : ¬ [x, y].Sublist (front ++ back) := by
  intro h
  obtain ⟨l, r, whole, left, right⟩ := List.sublist_append_iff.mp h
  cases l with
  | nil =>
      rw [List.nil_append] at whole
      subst whole
      exact hy (right.subset (by simp))
  | cons first l =>
      obtain ⟨rfl, -⟩ := List.cons.inj whole
      exact hx (left.subset List.mem_cons_self)

namespace Interleaving

variable {a : ι → Announcement program} (m : Interleaving a)

theorem owned_marked (i : ι) : owned i m.marked = (a i).parts := by
  have parts : (owned i m.entries).filter (Marked program ·) = (a i).parts := by
    rw [m.inOrder, (a i).marked]
    rfl
  rw [← parts, owned, owned, marked, List.filter_map, List.filter_comm]
  rfl

theorem sublist_marked_iff (e e' : ι × Bytes) (h : Marked program e.2) (h' : Marked program e'.2) :
    [e, e'].Sublist m.marked ↔ [e, e'].Sublist m.entries := by
  constructor
  · exact fun inside => inside.trans List.filter_sublist
  · intro inside
    have kept := inside.filter (Marked program ·.2)
    rwa [List.filter_eq_self.mpr (by simp [h, h'])] at kept

theorem apart_iff : m.Apart ↔ ∀ i j, i ≠ j →
    [(i, (a i).footer), (j, (a j).header)].Sublist m.marked ∨
      [(j, (a j).footer), (i, (a i).header)].Sublist m.marked := by
  have header (i : ι) : Marked program (a i).header := .inl (a i).isHeader
  have footer (i : ι) : Marked program (a i).footer := .inr (.inr (.inr (a i).isFooter))
  have same (i j : ι) := m.sublist_marked_iff (i, (a i).footer) (j, (a j).header) (footer i) (header j)
  simp only [Apart, same]

theorem InTurn.apart {m : Interleaving a} {order : List ι} (h : m.InTurn order) : m.Apart := by
  rw [apart_iff]
  intro i j ne
  have ends {i j : ι} (first : [i, j].Sublist order) :
      [(i, (a i).footer), (j, (a j).header)].Sublist m.marked := by
    have footer : (i, (a i).footer) ∈ block a i := List.mem_map_of_mem (a i).footer_mem
    have header : (j, (a j).header) ∈ block a j := List.mem_map_of_mem (a j).header_mem
    have both : [(i, (a i).footer), (j, (a j).header)].Sublist ([i, j].flatMap (block a)) := by
      rw [List.flatMap_cons, List.flatMap_singleton]
      exact (List.singleton_sublist.mpr footer).append (List.singleton_sublist.mpr header)
    rw [h.marked]
    exact both.trans (first.flatMap _)
  obtain first | first := pair_sublist ne (h.all i) (h.all j)
  · exact .inl (ends first)
  · exact .inr (ends first)

/-- If an announcement begins while another one is under way, neither of the two is over before the
    other one begins. -/
theorem not_apart_of_overlap {order : List ι} {rest later : List (ι × Bytes)} {i j : ι}
    {front back : List Bytes} (text : m.marked = order.flatMap (block a) ++ rest)
    (spent : ∀ k ∈ order, owned k rest = []) (parts : (a i).parts = front ++ back)
    (begun : front ≠ []) (overlap : Overlap a rest i j front back later) : ¬ m.Apart := by
  have nodup : (front ++ back).Nodup := parts ▸ (a i).parts_nodup
  have apart := List.disjoint_of_nodup_append nodup
  have header : (a i).header ∈ front := by
    cases front with
    | nil => exact absurd rfl begun
    | cons first front =>
        obtain ⟨rfl, -⟩ := List.cons.inj parts
        exact List.mem_cons_self
  have footer : (a i).footer ∈ back := by
    obtain ⟨between, whole⟩ := (a i).parts_eq
    refine List.mem_of_getLast? ?_
    rw [← List.getLast?_append_of_ne_nil front overlap.rest, ← parts, whole, ← List.cons_append,
      List.getLast?_concat]
  have laterFooter : (i, (a i).footer) ∈ later := mem_owned.mp (overlap.owned ▸ footer)
  have noneOf {k : ι} {part : Bytes} (mine : (k, part) ∈ rest) (line : Bytes) :
      (k, line) ∉ order.flatMap (block a) := by
    intro earlier
    exact owned_eq_nil_iff.mp (spent k (mem_blocks.mp earlier).1) part mine
  have restFooter : (i, (a i).footer) ∈ rest := by
    rw [overlap.entries]
    exact List.mem_append_right _ (List.mem_cons_of_mem _ laterFooter)
  have restHeader : (j, (a j).header) ∈ rest := by
    rw [overlap.entries]
    exact List.mem_append_right _ List.mem_cons_self
  have oneHeader : (j, (a j).header) ∉ later := by
    have own : owned j m.marked = (a j).header :: owned j later := by
      rw [text, owned_append, owned_eq_nil_iff.mpr (noneOf restHeader), overlap.entries,
        owned_append, owned_map_of_ne overlap.ne, owned_cons_self]
      rfl
    have nodup := (a j).parts_nodup
    rw [← m.owned_marked, own, List.nodup_cons] at nodup
    exact fun again => nodup.1 (mem_owned.mpr again)
  rw [apart_iff]
  intro h
  rw [text, overlap.entries, ← List.append_assoc] at h
  obtain first | first := h i j overlap.ne
  · rw [List.append_cons] at first
    refine not_pair_sublist ?_ oneHeader first
    simp only [List.mem_append, List.mem_map, List.mem_singleton, Prod.mk.injEq, not_or]
    refine ⟨⟨noneOf restFooter _, ?_⟩, fun same => overlap.ne same.1⟩
    rintro ⟨line, inFront, -, rfl⟩
    exact apart inFront footer
  · refine not_pair_sublist ?_ ?_ first
    · simp only [List.mem_append, List.mem_map, Prod.mk.injEq, not_or]
      refine ⟨noneOf restHeader _, ?_⟩
      rintro ⟨line, -, same, -⟩
      exact overlap.ne same
    · rw [List.mem_cons, Prod.mk.injEq, not_or]
      refine ⟨fun same => overlap.ne same.1, fun again => ?_⟩
      exact apart header (overlap.owned ▸ mem_owned.mpr again)

/-! ## The check -/

/-- The check goes by the parts of the announcements alone. -/
theorem announcements_eq :
    announcements m.text program = readLines program .idle (m.marked.map (·.2)) := by
  have clean : ∀ line ∈ m.entries.map (·.2), newline ∉ line ∧ line.getLast? ≠ some 13 := by
    intro line member
    obtain ⟨⟨i, line⟩, here, rfl⟩ := List.mem_map.mp member
    refine (a i).clean line ?_
    rw [← m.inOrder, mem_owned]
    exact here
  rw [announcements, text, lines_flatMap clean, readLines_marked, List.filter_map]
  rfl

theorem InTurn.announcements {m : Interleaving a} {order : List ι} (h : m.InTurn order) :
    announcements m.text program = .ok (order.map fun i => (a i).name) := by
  have whole := readLines_blocks (a := a) order []
  rw [List.append_nil] at whole
  rw [m.announcements_eq, h.marked, whole]
  simp [readLines, Except.map]

/-- The announcements come one after another, or two of them overlap and are found out. -/
theorem inTurn_or_fault : (∃ order, m.InTurn order) ∨
    ¬ m.Apart ∧ announcements m.text program = .error .headerInside := by
  have whole (i : ι) : Whole a m.marked i := .inr (m.owned_marked i)
  obtain ⟨order, rest, text, once, spent, ends⟩ := blocks_or_overlap whole
  obtain rfl | ⟨i, j, front, back, later, parts, begun, overlap⟩ := ends
  · rw [List.append_nil] at text
    refine .inl ⟨order, once, fun i => ?_, text⟩
    have header : (i, (a i).header) ∈ m.marked := by
      rw [← mem_owned, m.owned_marked]
      exact (a i).header_mem
    rw [text] at header
    exact (mem_blocks.mp header).1
  · refine .inr ⟨m.not_apart_of_overlap text spent parts begun overlap, ?_⟩
    rw [m.announcements_eq, text, List.map_append, readLines_blocks,
      readLines_overlap parts begun overlap]
    rfl

/-- However announcements are interleaved, the check succeeds exactly if no two of them overlap,
    which is to say that they come out whole and one after another, and finds their log files in the
    order in which they come. -/
theorem announcements_interleaved :
    ((∃ logs, announcements m.text program = .ok logs) ↔ m.Apart) ∧
    (m.Apart ↔ ∃ order, m.InTurn order) ∧
    ∀ order, m.InTurn order →
      announcements m.text program = .ok (order.map fun i => (a i).name) := by
  obtain ⟨order, inTurn⟩ | ⟨overlap, fault⟩ := m.inTurn_or_fault
  · exact ⟨iff_of_true ⟨_, inTurn.announcements⟩ inTurn.apart,
      iff_of_true inTurn.apart ⟨order, inTurn⟩, fun order h => h.announcements⟩
  · have none : ¬ ∃ order, m.InTurn order := fun ⟨_, inTurn⟩ => overlap inTurn.apart
    have fails : ¬ ∃ logs, announcements m.text program = .ok logs := by
      rintro ⟨logs, succeeds⟩
      rw [fault] at succeeds
      cases succeeds
    exact ⟨iff_of_false fails overlap, iff_of_false overlap none,
      fun order h => absurd ⟨order, h⟩ none⟩

/-- Two announcements, which say differently that the work on the log file is over. -/
def twoAnnouncements : Bool → Announcement (utf8 "app")
  | false =>
    { lines := [utf8 "testing", utf8 "- app terminated -",
        utf8 "writing crash report to [ h:a ] ... done.", List.replicate 80 dash]
      header := utf8 "- app terminated -"
      log := utf8 "writing crash report to [ h:a ] ... done."
      name := utf8 "a"
      footer := List.replicate 80 dash
      isHeader := by decide
      names := ⟨utf8 "h", utf8 " ] ... done.", by decide⟩
      isFooter := isFooter_replicate (Nat.le_refl 80)
      marked := by decide +kernel
      clean := by decide +kernel }
  | true =>
    { lines := [utf8 "- app terminated -", utf8 "writing crash report to [ h:b ] ...FAIL",
        utf8 " done.", List.replicate 80 dash]
      header := utf8 "- app terminated -"
      log := utf8 "writing crash report to [ h:b ] ...FAIL"
      name := utf8 "b"
      footer := List.replicate 80 dash
      isHeader := by decide
      names := ⟨utf8 "h", utf8 " ] ...FAIL", by decide⟩
      isFooter := isFooter_replicate (Nat.le_refl 80)
      marked := by decide +kernel
      clean := by decide +kernel }

/-- The second announcement inside the first. -/
def nested : Interleaving twoAnnouncements where
  entries := ((twoAnnouncements false).lines.take 2).map (false, ·) ++
    (twoAnnouncements true).lines.map (true, ·) ++
    ((twoAnnouncements false).lines.drop 2).map (false, ·)
  inOrder i := by cases i <;> rfl

/-- The second announcement and then the first, of which one line has come before. -/
def separate : Interleaving twoAnnouncements where
  entries := ((twoAnnouncements true).lines.take 3).map (true, ·) ++
    ((twoAnnouncements false).lines.take 1).map (false, ·) ++
    ((twoAnnouncements true).lines.drop 3).map (true, ·) ++
    ((twoAnnouncements false).lines.drop 1).map (false, ·)
  inOrder i := by cases i <;> rfl

/-- One announcement inside another is found out, and one after another is not taken for that. -/
theorem nested_and_separate :
    (¬ ∃ logs, announcements nested.text (utf8 "app") = .ok logs) ∧
    announcements separate.text (utf8 "app") = .ok [utf8 "b", utf8 "a"] := by
  refine ⟨fun succeeds => ?_, separate.announcements_interleaved.2.2 [true, false] ?_⟩
  · have overlap : ¬ nested.Apart := by
      unfold Apart
      decide +kernel
    exact overlap (nested.announcements_interleaved.1.mp succeeds)
  · exact ⟨by decide, by decide, by decide +kernel⟩

end Interleaving

end Postmortem.Check

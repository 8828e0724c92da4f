import Postmortem.Proofs.AnnouncementLines

/-! # The grammar of announcements

Of the lines of a stream only those count that are part of an announcement by their text. The check
accepts the stream exactly if these lines make up whole announcements, one after another, and every
line that names a log file has a host. How far an announcement has got stands for the parts of it that
have been read, so what may follow them is what completes these parts to announcements.
-/

namespace Postmortem.Check

open Bytes (upTo)

variable {program line name : Bytes} {p q : Progress} {found logs : List Bytes}

/-! ## Parts -/

/-- A part of an announcement. -/
inductive Part where
  | header
  /-- The line that names the log file; `closed` if it also says that the work on it is over. -/
  | log (closed : Bool)
  | done
  | footer
  deriving Repr, DecidableEq

/-- The part that a line is. -/
def Part.ofLine? (program line : Bytes) : Option Part :=
  if IsHeader program line then some .header
  else if utf8 "writing crash report to [ " <+: line then some (.log (utf8 " done." <:+ line))
  else if line = utf8 " done." then some .done
  else if IsFooter line then some .footer
  else none

/-- One announcement: the end of the work on the log file is a part of its own unless the line that
    names the file says it. -/
inductive Block : List Part → Prop where
  | closed : Block [.header, .log true, .footer]
  | continued : Block [.header, .log false, .done, .footer]

/-- Announcements one after another. -/
inductive Blocks : List Part → Prop where
  | none : Blocks []
  | next {block rest : List Part} : Block block → Blocks rest → Blocks (block ++ rest)

/-- What a line is taken for is the part that it is, with the log file that it names. -/
inductive TakenFor (line : Bytes) : Option Part → Line → Prop where
  | header : TakenFor line (some .header) .header
  | log {closed : Bool} {named : Option Bytes} (names : ∀ name, named = some name ↔ Names line name) :
      TakenFor line (some (.log closed)) (.log named closed)
  | done : TakenFor line (some .done) .done
  | footer : TakenFor line (some .footer) .footer
  | other : TakenFor line none .other

theorem takenFor (program line : Bytes) :
    TakenFor line (Part.ofLine? program line) (Line.classify program line) := by
  rw [Part.ofLine?]
  split_ifs with header log done footer
  · rw [classify_of_header header]
    exact .header
  · obtain ⟨text, rfl⟩ := log
    have ends : Bytes.endsWith (utf8 "writing crash report to [ " ++ text) Line.doneMark =
        decide (utf8 " done." <:+ utf8 "writing crash report to [ " ++ text) := by
      rw [Bytes.endsWith, Bool.eq_iff_iff, List.isSuffixOf_iff_suffix, decide_eq_true_eq]
      rfl
    rw [classify_of_log, ends]
    exact .log fun name => names_iff.symm
  · rw [done, classify_done]
    exact .done
  · rw [classify_of_footer footer]
    exact .footer
  · rw [classify_of_not_marked]
    · exact .other
    · rintro (here | here | here | here)
      · exact header here
      · exact log here
      · exact done here
      · exact footer here

/-- The lines that name log files are those that begin like one. -/
theorem ofLine?_eq_log_iff : (∃ closed, Part.ofLine? program line = some (.log closed)) ↔
    utf8 "writing crash report to [ " <+: line := by
  rw [Part.ofLine?]
  constructor
  · rintro ⟨closed, part⟩
    by_contra other
    rw [if_neg other] at part
    split_ifs at part
    all_goals cases part
  · rintro ⟨text, rfl⟩
    rw [if_neg (not_isHeader_of_head (b := 119) rfl (by decide)), if_pos (List.prefix_append ..)]
    exact ⟨_, rfl⟩

/-- The line itself if it is one that names a log file. -/
def Part.naming (line : Bytes) : Option Part → List Bytes
  | some (.log _) => [line]
  | _ => []

/-- The lines that name log files. -/
def logLines (lines : List Bytes) : List Bytes :=
  lines.filter (utf8 "writing crash report to [ " <+: ·)

theorem logLines_cons (program line : Bytes) (rest : List Bytes) :
    logLines (line :: rest) = Part.naming line (Part.ofLine? program line) ++ logLines rest := by
  rw [logLines, List.filter_cons]
  split
  · next begins =>
    obtain ⟨closed, part⟩ : ∃ closed, Part.ofLine? program line = some (.log closed) :=
      ofLine?_eq_log_iff.mpr (of_decide_eq_true begins)
    rw [part]
    rfl
  · next other =>
    have none : Part.naming line (Part.ofLine? program line) = [] := by
      rw [Part.naming.eq_def]
      split
      · next closed part =>
        exact absurd (decide_eq_true (ofLine?_eq_log_iff.mp ⟨closed, part⟩)) other
      · rfl
    rw [none]
    rfl

/-! ## Steps -/

/-- A part leads from one point of an announcement to the next, and any other line nowhere. -/
inductive Leads : Option Part → Progress → Progress → Prop where
  | header : Leads (some .header) .idle .headed
  | closed : Leads (some (.log true)) .headed .finished
  | opened : Leads (some (.log false)) .headed .writing
  | done : Leads (some .done) .writing .finished
  | footer : Leads (some .footer) .finished .idle
  | other {p : Progress} : Leads none p p

private theorem placed_iff {place : Progress} {next after : Progress × List Bytes}
    {fault : StreamFault} :
    (if p = place then Except.ok next else .error fault) = .ok after ↔ p = place ∧ next = after := by
  split <;> simp [*]

/-- A line is accepted if it leads on, and names a log file if it is one that should. -/
theorem advance_eq_ok_iff {part : Option Part} {read : Line} (h : TakenFor line part read) :
    advance p line read = .ok (q, found) ↔
      Leads part p q ∧ List.Forall₂ Names (Part.naming line part) found := by
  constructor
  · intro advanced
    cases h with
    | header =>
        obtain ⟨rfl, same⟩ := placed_iff.mp advanced
        cases same
        exact ⟨.header, .nil⟩
    | @log closed named names =>
        cases named with
        | none =>
            rw [advance] at advanced
            split at advanced
            all_goals cases advanced
        | some name =>
            obtain ⟨rfl, same⟩ := placed_iff.mp advanced
            have names : List.Forall₂ Names [line] [name] := .cons ((names name).mp rfl) .nil
            cases closed with
            | true => cases same; exact ⟨.closed, names⟩
            | false => cases same; exact ⟨.opened, names⟩
    | done =>
        obtain ⟨rfl, same⟩ := placed_iff.mp advanced
        cases same
        exact ⟨.done, .nil⟩
    | footer =>
        obtain ⟨rfl, same⟩ := placed_iff.mp advanced
        cases same
        exact ⟨.footer, .nil⟩
    | other =>
        cases advanced
        exact ⟨.other, .nil⟩
  · rintro ⟨leads, names⟩
    cases leads with
    | header | done | footer | other =>
        cases h
        cases names
        rfl
    | closed | opened =>
        cases h with
        | log named =>
            obtain ⟨name, _, first, ⟨⟩, rfl⟩ := List.forall₂_cons_left_iff.mp names
            rw [(named name).mpr first]
            rfl

/-! ## What may follow -/

/-- The parts that have been read of an announcement. Nothing more is said of them than matters for
    what may follow. -/
def Progress.begun : Progress → List Part
  | .idle => []
  | .headed => [.header]
  | .writing => [.header, .log false]
  | .finished => [.header, .log true]

theorem blocks_cons_iff {first : Part} {rest : List Part} : Blocks (first :: rest) ↔
    first = .header ∧ ∃ more, Blocks more ∧
      (rest = .log true :: .footer :: more ∨ rest = .log false :: .done :: .footer :: more) := by
  constructor
  · intro h
    generalize whole : first :: rest = parts at h
    cases h with
    | none => cases whole
    | next block more =>
        cases block with
        | closed => cases whole; exact ⟨rfl, _, more, .inl rfl⟩
        | continued => cases whole; exact ⟨rfl, _, more, .inr rfl⟩
  · rintro ⟨rfl, more, blocks, rfl | rfl⟩
    · exact .next .closed blocks
    · exact .next .continued blocks

/-- What has been read and the next part lead to where the announcement has got by then. -/
theorem Leads.blocks {part : Option Part} (h : Leads part p q) (rest : List Part) :
    Blocks (q.begun ++ rest) ↔ Blocks (p.begun ++ (part.toList ++ rest)) := by
  cases h with
  | header | closed | opened | other => rfl
  -- The end of the work is forgotten to have been a part of its own, and a footer that there has been
  -- an announcement at all.
  | done => simp [Progress.begun, blocks_cons_iff]
  | footer => simp [Progress.begun, blocks_cons_iff]

/-- A part may follow only what it leads on from. -/
theorem exists_leads {part : Part} {rest : List Part} (blocks : Blocks (p.begun ++ part :: rest)) :
    ∃ q, Leads (some part) p q := by
  cases p with
  | idle =>
      obtain ⟨rfl, -⟩ := blocks_cons_iff.mp blocks
      exact ⟨_, .header⟩
  | headed =>
      obtain ⟨-, more, -, same | same⟩ := blocks_cons_iff.mp blocks
      · cases same
        exact ⟨_, .closed⟩
      · cases same
        exact ⟨_, .opened⟩
  | writing =>
      obtain ⟨-, more, -, same | same⟩ := blocks_cons_iff.mp blocks
      · cases same
      · cases same
        exact ⟨_, .done⟩
  | finished =>
      obtain ⟨-, more, -, same | same⟩ := blocks_cons_iff.mp blocks
      · cases same
        exact ⟨_, .footer⟩
      · cases same

/-! ## Reading -/

theorem readLines_cons_eq_ok_iff {rest : List Bytes} :
    readLines program p (line :: rest) = .ok logs ↔
      ∃ q found more, advance p line (Line.classify program line) = .ok (q, found) ∧
        readLines program q rest = .ok more ∧ logs = found ++ more := by
  constructor
  · intro read
    cases step : advance p line (Line.classify program line) with
    | error fault =>
        rw [readLines, step] at read
        cases read
    | ok next =>
        obtain ⟨q, found⟩ := next
        rw [readLines_cons step] at read
        cases later : readLines program q rest with
        | error fault =>
            rw [later] at read
            cases read
        | ok more =>
            rw [later] at read
            cases read
            exact ⟨q, found, more, rfl, later, rfl⟩
  · rintro ⟨q, found, more, step, later, rfl⟩
    rw [readLines_cons step, later]
    rfl

theorem forall₂_append_left_iff {α β : Type} {R : α → β → Prop} {s t : List α} {l : List β} :
    List.Forall₂ R (s ++ t) l ↔
      ∃ u v, List.Forall₂ R s u ∧ List.Forall₂ R t v ∧ l = u ++ v := by
  constructor
  · intro h
    have first := List.forall₂_take s.length h
    have last := List.forall₂_drop s.length h
    rw [List.take_left] at first
    rw [List.drop_left] at last
    exact ⟨_, _, first, last, (List.take_append_drop s.length l).symm⟩
  · rintro ⟨u, v, first, last, rfl⟩
    exact List.rel_append first last

/-- From any point on, the lines are accepted that complete what has been read to announcements and
    of which each that should names a log file. -/
theorem readLines_eq_ok_iff {lines : List Bytes} :
    readLines program p lines = .ok logs ↔
      Blocks (p.begun ++ lines.filterMap (Part.ofLine? program)) ∧
        List.Forall₂ Names (logLines lines) logs := by
  -- Only at `.idle` is nothing pending, so the point that has been reached has to be any: what it
  -- stands for is what the lines before have left to be completed.
  induction lines generalizing p logs with
  | nil =>
      rw [readLines]
      cases p with
      | idle => simpa [Progress.begun, logLines, eq_comm] using fun _ => Blocks.none
      | headed | writing | finished => simp [Progress.begun, blocks_cons_iff]
  | cons line rest ih =>
      have step (q : Progress) (found : List Bytes) :
          advance p line (Line.classify program line) = .ok (q, found) ↔
            Leads (Part.ofLine? program line) p q ∧
              List.Forall₂ Names (Part.naming line (Part.ofLine? program line)) found :=
        advance_eq_ok_iff (takenFor program line)
      have parts : (line :: rest).filterMap (Part.ofLine? program) =
          (Part.ofLine? program line).toList ++ rest.filterMap (Part.ofLine? program) := by
        rw [List.filterMap_cons]
        cases Part.ofLine? program line with
        | none => rfl
        | some part => rfl
      rw [readLines_cons_eq_ok_iff, parts, logLines_cons program, forall₂_append_left_iff]
      simp only [step, ih]
      constructor
      · rintro ⟨q, found, more, ⟨leads, named⟩, ⟨blocks, names⟩, rfl⟩
        exact ⟨(leads.blocks _).mp blocks, found, more, named, names, rfl⟩
      · rintro ⟨blocks, found, more, named, names, rfl⟩
        obtain ⟨q, leads⟩ : ∃ q, Leads (Part.ofLine? program line) p q := by
          cases part : Part.ofLine? program line with
          | none => exact ⟨p, .other⟩
          | some part =>
              rw [part] at blocks
              exact exists_leads blocks
        exact ⟨q, found, more, ⟨leads, named⟩, ⟨(leads.blocks _).mpr blocks, names⟩, rfl⟩

/-- The check of a stream succeeds exactly if its lines that are parts of announcements make up whole
    announcements, one after another, and every line that should names a log file; these are the
    result. -/
theorem announcements_eq_ok_iff (stream program : Bytes) (logs : List Bytes) :
    announcements stream program = .ok logs ↔
      Blocks ((Bytes.lines stream).filterMap (Part.ofLine? program)) ∧
        List.Forall₂ Names (logLines (Bytes.lines stream)) logs :=
  readLines_eq_ok_iff

end Postmortem.Check

import Postmortem.Proofs.Remarks
import Postmortem.Proofs.Watch

/-! # What comes of a program

A child that ends in time is told apart by how it ends, and one that does not is given up. Whatever
comes of it, it has been waited for, and the alarm is as it was.
-/

namespace Postmortem

namespace SpawnError

variable {e : SpawnError}

/-- A failure whose wording fits is reported in one line. -/
theorem report_of_fits (fits : (utf8 e.message).length < 122) :
    e.report = utf8 ("FAIL: " ++ e.message ++ "\n") := by
  have size : (utf8 "FAIL: " ++ utf8 e.message).length < 128 := by
    have front : (utf8 "FAIL: ").length = 6 := by decide
    rw [List.length_append, front]
    omega
  rw [report_eq, if_pos size, utf8_append, utf8_append]
  rfl

theorem report_signaled {signal : Nat} (named : signal ≤ 31) :
    (signaled signal).report = utf8 ("FAIL: " ++ (signaled signal).message ++ "\n") := by
  have fits : ∀ signal : Nat, signal < 32 → (utf8 (signaled signal).message).length < 122 := by
    decide +kernel
  exact report_of_fits (fits signal (Nat.lt_succ_of_le named))

end SpawnError

namespace Machine

variable {m : Machine} {path : CString} {argv : Argv} {timeout : Option Duration}

/-! ## Dispositions -/

theorem lookup_filter_ne {α : Type} {a b : Nat} (other : b ≠ a) (entries : List (Nat × α)) :
    (entries.filter (·.1 ≠ a)).lookup b = entries.lookup b := by
  induction entries with
  | nil => rfl
  | cons entry rest ih =>
      obtain ⟨key, value⟩ := entry
      by_cases same : key = a
      · have differs : (b == key) = false := by
          rw [beq_eq_false_iff_ne, same]
          exact other
        rw [List.filter_cons_of_neg (by simpa using same), ih, List.lookup_cons, differs]
      · rw [List.filter_cons_of_pos (by simpa using same), List.lookup_cons, List.lookup_cons, ih]

theorem disposition_setDisposition (m : Machine) (signal : Nat) (d : Disposition) (other : Nat) :
    (m.setDisposition signal d).disposition other =
      if other = signal then d else m.disposition other := by
  rw [disposition, setDisposition, List.lookup_cons]
  split
  · next same =>
    rw [if_pos (beq_iff_eq.mp same)]
    rfl
  · next differs =>
    rw [if_neg (ne_of_beq_false differs), lookup_filter_ne (ne_of_beq_false differs)]
    rfl

/-- A disposition that is put back is as it was, and so are the others. -/
theorem disposition_restored (m n : Machine) (signal : Nat) (d : Disposition)
    (since : n.dispositions = (m.setDisposition signal d).dispositions) (other : Nat) :
    (n.setDisposition signal (m.disposition signal)).disposition other = m.disposition other := by
  have kept : n.disposition other = (m.setDisposition signal d).disposition other := by
    rw [disposition, disposition, since]
  rw [disposition_setDisposition, kept, disposition_setDisposition]
  split
  · next same => rw [same]
  · rfl

/-! ## The child -/

/-- After how many seconds the child of a fork ends by itself, and how. A child that cannot become
    its program ends at once. -/
def child (m : Machine) (path : CString) (argv : Argv) : Option Nat × Ending :=
  match m.findProgram path argv.toList with
  | .ok p => (p.lifetime, p.ending)
  | .error _ => (some 0, .exited execFailedStatus)

/-- What the child writes itself: why it cannot become its program, if so. -/
def childSays (m : Machine) (path : CString) (argv : Argv) : Bytes :=
  match m.findProgram path argv.toList with
  | .ok _ => []
  | .error e => utf8 "FAIL: Unable to exec crash handler " ++ path.bytes ++
      utf8 (": errno=" ++ toString e.number ++ "\n")

/-- The course of the wait for the child, if the seconds that it is given can be counted. -/
def watch (m : Machine) (path : CString) (argv : Argv) (timeout : Option Duration) :
    Except Overflow Watch :=
  (Duration.budget timeout).map fun budget =>
    .run budget (m.child path argv).1 (m.child path argv).2

/-! The error numbers of files are all small. -/

theorem walk_error {tree : FileTree} {place : Place} {names : List Bytes} {e : Errno}
    (failed : tree.walk place names = .error e) : e.number < 100 := by
  induction names generalizing place with
  | nil => cases failed
  | cons name rest ih =>
      rw [FileTree.walk] at failed
      repeat' split at failed
      all_goals first
        | exact ih failed
        | (cases failed; decide)

theorem locate_error {tree : FileTree} {working : Place} {path : Bytes} {e : Errno}
    (failed : tree.locate working path = .error e) : e.number < 100 := by
  rw [FileTree.locate] at failed
  split at failed
  · cases failed
    decide
  · split at failed
    · cases failed
      decide
    · cases walked : tree.walk (FileTree.start working path) (FileTree.components path) with
      | error e' =>
          rw [walked] at failed
          cases failed
          exact walk_error walked
      | ok place =>
          rw [walked] at failed
          simp only at failed
          repeat' split at failed
          all_goals cases failed <;> decide

theorem execute_error {tree : FileTree} {working : Place} {path : Bytes} {e : Errno}
    (failed : tree.execute working path = .error e) : e.number < 100 := by
  rw [FileTree.execute] at failed
  cases located : tree.locate working path with
  | error e' =>
      rw [located] at failed
      cases failed
      exact locate_error located
  | ok found =>
      obtain ⟨place, entry⟩ := found
      rw [located] at failed
      cases entry with
      | directory | foreign =>
          cases failed
          decide
      | file content run =>
          cases run with
          | program p => cases failed
          | forbidden | unrecognized =>
              cases failed
              decide

theorem findProgram_error {arguments : List CString} {e : Errno}
    (failed : m.findProgram path arguments = .error e) : e.number < 100 := by
  rw [findProgram] at failed
  cases executed : m.files.execute m.working path.bytes with
  | error e' =>
      rw [executed] at failed
      simp only at failed
      split at failed
      · cases failed
        decide
      · cases failed
        exact execute_error executed
  | ok p =>
      rw [executed] at failed
      simp only at failed
      split at failed
      · cases failed
        decide
      · cases failed

theorem execFailure_eq {e : Errno} (small : e.number < 100) (path : CString) :
    execFailure path e = utf8 "FAIL: Unable to exec crash handler " ++ path.bytes ++
      utf8 (": errno=" ++ toString e.number ++ "\n") := by
  have fits : Decimal.width (e.number : Int) < numericBufferSize := by
    have short : Decimal.digitCount e.number ≤ Decimal.digitCount 99 :=
      Decimal.digitCount_mono (by omega)
    have two : Decimal.digitCount 99 = 2 := by decide +kernel
    have width : Decimal.width (e.number : Int) = Decimal.digitCount e.number := by
      rw [Decimal.width, if_neg (by omega), Int.natAbs_natCast, Nat.add_zero]
    rw [width, numericBufferSize]
    omega
  have text : Decimal.ofInt e.number = utf8 (toString e.number) := by
    rw [Decimal.ofInt, if_neg (by omega), Int.natAbs_natCast, Decimal.utf8_toString]
  have newline : utf8 "\n" = [Bytes.newline] := rfl
  rw [execFailure, bytes_numberText, if_pos fits, text, utf8_append, utf8_append, newline]
  simp only [List.append_assoc]

theorem child_becomeProgram (m : Machine) (path : CString) (argv : Argv) :
    (m.becomeProgram path argv).1 = m.child path argv := by
  cases found : m.findProgram path argv.toList with
  | ok p => simp only [becomeProgram, child, found]
  | error e => simp only [becomeProgram, child, found]

theorem stderr_becomeProgram (m : Machine) (path : CString) (argv : Argv) :
    (m.becomeProgram path argv).2.stderr = m.stderr ++ m.childSays path argv := by
  cases found : m.findProgram path argv.toList with
  | ok p =>
      simp only [becomeProgram, childSays, found, List.append_nil]
      rfl
  | error e =>
      simp only [becomeProgram, childSays, found, ← execFailure_eq (findProgram_error found)]
      rfl

/-- A program that is started leaves to its parent how signals are provided for. -/
theorem dispositions_becomeProgram (m : Machine) (path : CString) (argv : Argv) :
    (m.becomeProgram path argv).2.dispositions = m.dispositions := by
  simp only [becomeProgram]
  split <;> rfl

theorem children_becomeProgram (m : Machine) (path : CString) (argv : Argv) :
    (m.becomeProgram path argv).2.children = m.children := by
  simp only [becomeProgram]
  split <;> rfl

/-! ## The wait -/

/-- Is the process told how its children end? -/
def HearsChildren (m : Machine) : Prop := m.disposition childSignal ≠ .ignored

instance (m : Machine) : Decidable m.HearsChildren := inferInstanceAs (Decidable (_ ≠ _))

/-- What comes of the wait for the child, and whether it is left without having been waited for. -/
def waitFor (m : Machine) (path : CString) (argv : Argv) (timeout : Option Duration) :
    Spawned × Bool :=
  wait (decide ¬ m.HearsChildren) timeout (m.child path argv).1 (m.child path argv).2

theorem waitFor_of_watch {w : Watch} (course : m.watch path argv timeout = .ok w) :
    m.waitFor path argv timeout = (Spawned.ofWatch (decide ¬ m.HearsChildren) w, w.unreaped) := by
  rw [watch] at course
  rw [waitFor, wait]
  cases sum : Duration.budget timeout with
  | error overflow =>
      rw [sum] at course
      cases course
  | ok budget =>
      rw [sum] at course
      cases course
      rfl

theorem result_spawnAndWait (fork : m.forkFailure = none) (path : CString) (argv : Argv)
    (timeout : Option Duration) :
    (m.spawnAndWait path argv timeout).1 = (m.waitFor path argv timeout).1 := by
  have heard : ((m.becomeProgram path argv).2.setDisposition alarmSignal .wakeUp).disposition
      childSignal = m.disposition childSignal := by
    rw [disposition_setDisposition, if_neg (by decide), disposition, dispositions_becomeProgram]
    rfl
  have course := child_becomeProgram m path argv
  simp only [spawnAndWait, fork, waitFor, HearsChildren, not_not]
  rw [← course, ← heard]

/-- What the wait leaves of the machine besides the files and the launches. -/
theorem machine_spawnAndWait (fork : m.forkFailure = none) (path : CString) (argv : Argv)
    (timeout : Option Duration) :
    (m.spawnAndWait path argv timeout).2.stderr = m.stderr ++ m.childSays path argv ∧
      (m.spawnAndWait path argv timeout).2.alarm = false ∧
      (m.spawnAndWait path argv timeout).2.children =
        m.children + (if (m.waitFor path argv timeout).2 then 1 else 0) ∧
      ∀ signal, (m.spawnAndWait path argv timeout).2.disposition signal = m.disposition signal := by
  have course := child_becomeProgram m path argv
  have dispositions := dispositions_becomeProgram m path argv
  have before (signal : Nat) :
      (m.becomeProgram path argv).2.disposition signal = m.disposition signal := by
    rw [disposition, dispositions, disposition]
  have heard : ((m.becomeProgram path argv).2.setDisposition alarmSignal .wakeUp).disposition
      childSignal = m.disposition childSignal := by
    rw [disposition_setDisposition, if_neg (by decide), before]
  simp only [spawnAndWait, fork]
  refine ⟨stderr_becomeProgram m path argv, rfl, ?_, ?_⟩
  · simp only [waitFor, HearsChildren, not_not]
    rw [← course, ← heard, ← children_becomeProgram m path argv]
    rfl
  · intro signal
    rw [← before signal]
    exact disposition_restored _ _ alarmSignal .wakeUp rfl signal

/-! ## The outcome -/

/-- How long the child runs by itself. -/
def lifetime (m : Machine) (path : CString) (argv : Argv) : ℕ∞ := span (m.child path argv).1

/-- How the child ends by itself. -/
def ending (m : Machine) (path : CString) (argv : Argv) : Ending := (m.child path argv).2

/-- The line about a failure, if there is one. -/
def failureLine : Except SpawnError Nat → Bytes
  | .ok _ => []
  | .error e => utf8 ("FAIL: " ++ e.message ++ "\n")

/-- What is known of a program that was waited for. -/
structure Settled (m : Machine) (path : CString) (argv : Argv) (timeout : Option Duration)
    (spawned : Spawned) (later : Machine) : Prop where
  /-- The status of a child that ends in time is returned, and nothing is said. -/
  exited : ∀ status, m.HearsChildren → m.lifetime path argv < Duration.limit timeout →
    m.ending path argv = .exited status → status ≠ 127 →
    spawned.result = .ok (.ok status) ∧ later.stderr = m.stderr
  /-- One status stands for a program that could not be executed. -/
  notExecuted : m.HearsChildren →
    (m.lifetime path argv < Duration.limit timeout ∧ m.ending path argv = .exited 127 ∨
      ∃ e, m.findProgram path argv.toList = .error e) →
    spawned.result = .ok (.error .execFailed) ∧ later.errno.number = 2
  killed : ∀ signal, m.HearsChildren → m.lifetime path argv < Duration.limit timeout →
    m.ending path argv = .killed signal →
    spawned.result = .ok (.error (.signaled signal)) ∧ later.errno.number = 4
  /-- A process that ignores the ends of its children is only told that there is no child. -/
  unheard : ¬ m.HearsChildren → m.lifetime path argv < Duration.limit timeout →
    spawned.result = .ok (.error (.waitFailed .noChild)) ∧ later.errno.number = 10
  /-- A child that does not end in time is killed. -/
  late : Duration.limit timeout ≤ m.lifetime path argv →
    spawned.result = .ok (.error .timedOut) ∧ later.errno.number = 16 ∧
      ∃ w, m.watch path argv timeout = .ok w ∧ w.child = some (.killed 9)
  /-- With a timeout every second is counted while the child runs and time is left. Without one no
      second is ever counted, for no alarm is armed: that is `Watch.ticks_run_none`. -/
  counted : Duration.limit timeout ≠ ⊤ →
    (spawned.ticks : ℕ∞) = min (m.lifetime path argv) (Duration.limit timeout)
  /-- The child says why it could not become its program, and then every failure is said in a line
      of its own. -/
  said : ∃ result, spawned.result = .ok result ∧
    later.stderr = m.stderr ++ m.childSays path argv ++ failureLine result
  reaped : (∃ w, m.watch path argv timeout = .ok w ∧ w.unreaped = false) ∧
    later.children = m.children
  alarm : later.alarm = false
  dispositions : ∀ signal, later.disposition signal = m.disposition signal

theorem reportFailure_keeps (m : Machine) (spawned : Spawned) :
    (m.reportFailure spawned).children = m.children ∧
      (m.reportFailure spawned).alarm = m.alarm ∧
      (m.reportFailure spawned).dispositions = m.dispositions := by
  rw [reportFailure]
  split <;> exact ⟨rfl, rfl, rfl⟩

theorem errno_reportFailure {spawned : Spawned} {e : SpawnError}
    (failed : spawned.result = .ok (.error e)) (m : Machine) :
    (m.reportFailure spawned).errno = e.errno := by
  rw [reportFailure, failed]

theorem stderr_reportFailure {spawned : Spawned} {result : Except SpawnError Nat}
    (known : spawned.result = .ok result)
    (text : ∀ e, result = .error e → e.report = utf8 ("FAIL: " ++ e.message ++ "\n")) (m : Machine) :
    (m.reportFailure spawned).stderr = m.stderr ++ failureLine result := by
  cases result with
  | ok status => simp only [reportFailure, known, failureLine, List.append_nil]
  | error e => simp only [reportFailure, known, failureLine, say, text e rfl]

theorem watch_of_lt (fits : ∀ n : ℕ, Duration.limit timeout = n → n < UInt64.size)
    (inTime : m.lifetime path argv < Duration.limit timeout) :
    ∃ w, m.watch path argv timeout = .ok w ∧ w.watcher = .finished (.ended (m.ending path argv)) ∧
      w.unreaped = false ∧
      (Duration.limit timeout ≠ ⊤ → (w.ticks : ℕ∞) = m.lifetime path argv) := by
  obtain ⟨b, sum, seconds⟩ := Duration.span_budget fits
  have inTime' : span (m.child path argv).1 < span (b.map UInt64.toNat) := seconds ▸ inTime
  obtain ⟨finished, reaped, counted⟩ := Watch.run_of_lt inTime'
  refine ⟨_, congrArg (Except.map _) sum, finished, reaped, fun bounded => counted ?_⟩
  rintro rfl
  exact bounded seconds.symm

theorem watch_of_le (fits : ∀ n : ℕ, Duration.limit timeout = n → n < UInt64.size)
    (ends : m.lifetime path argv ≠ ⊤ ∨ Duration.limit timeout ≠ ⊤)
    (late : Duration.limit timeout ≤ m.lifetime path argv) :
    ∃ n : ℕ, Duration.limit timeout = n ∧ m.watch path argv timeout = .ok (Watch.expired n) := by
  obtain ⟨b, sum, seconds⟩ := Duration.span_budget fits
  cases b with
  | none =>
      have unlimited : Duration.limit timeout = ⊤ := seconds.symm
      rw [unlimited] at late ends
      exact absurd (top_le_iff.mp late) (ends.resolve_right (not_not_intro rfl))
  | some b =>
      have time : 0 < b.toNat := by
        have positive := Duration.limit_pos timeout
        rw [← seconds] at positive
        exact Nat.cast_pos.mp positive
      refine ⟨b.toNat, seconds.symm, ?_⟩
      rw [← seconds] at late
      rw [watch, sum, ← Watch.run_of_le time late]
      rfl

/-- What becomes of a wait that does not come to an end: either the seconds could not be counted, or
    there is no timeout and the program never ends. -/
theorem waitFor_error {halt : Halt} (stops : (m.waitFor path argv timeout).1.result = .error halt) :
    halt = .panicked ∧ Duration.budget timeout = .error ⟨⟩ ∨
      halt = .waiting ∧ Duration.limit timeout = ⊤ ∧ m.lifetime path argv = ⊤ := by
  rw [waitFor, wait] at stops
  cases sum : Duration.budget timeout with
  | error overflow =>
      rw [sum] at stops
      cases stops
      exact .inl ⟨rfl, rfl⟩
  | ok budget =>
      rw [sum] at stops
      cases budget with
      | some b =>
          obtain ⟨verdict, finished⟩ :=
            Watch.finished_run (Duration.budget_pos sum) (m.child path argv).1 (m.child path argv).2
          simp only [Spawned.ofWatch, finished] at stops
          cases stops
      | none =>
          rw [lifetime]
          cases lives : (m.child path argv).1 with
          | some seconds =>
              rw [lives] at stops
              cases stops
          | none =>
              rw [lives] at stops
              cases stops
              exact .inr ⟨rfl, Duration.limit_of_budget sum, rfl⟩

/-- Without a timeout a child that never ends is waited for without end. -/
theorem waitFor_endless (timeless : Duration.limit timeout = ⊤)
    (endless : m.lifetime path argv = ⊤) :
    (m.waitFor path argv timeout).1.result = .error .waiting := by
  rw [lifetime] at endless
  rw [waitFor, wait, Duration.budget_of_limit timeless]
  cases lives : (m.child path argv).1 with
  | none => rfl
  | some seconds =>
      rw [lives] at endless
      exact absurd endless (ENat.natCast_ne_top seconds)

/-- Only a program can go on without end. -/
theorem program_of_endless (endless : m.lifetime path argv = ⊤) :
    ∃ p, m.findProgram path argv.toList = .ok p ∧ p.lifetime = none := by
  rw [lifetime, child] at endless
  cases found : m.findProgram path argv.toList with
  | error e =>
      rw [found] at endless
      exact absurd endless (ENat.natCast_ne_top 0)
  | ok p =>
      rw [found] at endless
      refine ⟨p, rfl, ?_⟩
      cases lives : p.lifetime with
      | none => rfl
      | some seconds =>
          simp only [lives] at endless
          exact absurd endless (ENat.natCast_ne_top seconds)

/-- The verdict of the time. -/
def verdict (m : Machine) (path : CString) (argv : Argv) (timeout : Option Duration) : Verdict :=
  if m.lifetime path argv < Duration.limit timeout then .ended (m.ending path argv) else .timedOut

/-- What the process makes of it. -/
def answer (m : Machine) (path : CString) (argv : Argv) (timeout : Option Duration) :
    Except SpawnError Nat :=
  Spawned.ofVerdict (decide ¬ m.HearsChildren) (m.verdict path argv timeout)

/-- The wait comes to an end with the answer. -/
theorem settled_wait (fork : m.forkFailure = none)
    (fits : ∀ n : ℕ, Duration.limit timeout = n → n < UInt64.size)
    (ends : m.lifetime path argv ≠ ⊤ ∨ Duration.limit timeout ≠ ⊤) :
    (m.spawnAndWait path argv timeout).1.result = .ok (m.answer path argv timeout) ∧
      (∃ w, m.watch path argv timeout = .ok w ∧ w.unreaped = false) ∧
      (Duration.limit timeout ≠ ⊤ → ((m.spawnAndWait path argv timeout).1.ticks : ℕ∞) =
        min (m.lifetime path argv) (Duration.limit timeout)) := by
  rw [result_spawnAndWait fork, answer, verdict]
  by_cases inTime : m.lifetime path argv < Duration.limit timeout
  · obtain ⟨w, course, finished, reaped, counted⟩ := watch_of_lt fits inTime
    rw [waitFor_of_watch course, Spawned.ofWatch, finished, if_pos inTime, min_eq_left inTime.le]
    exact ⟨rfl, ⟨w, course, reaped⟩, counted⟩
  · have late := not_lt.mp inTime
    obtain ⟨n, limit, course⟩ := watch_of_le fits ends late
    rw [waitFor_of_watch course, if_neg inTime, min_eq_right late, limit]
    exact ⟨rfl, ⟨_, course, rfl⟩, fun _ => rfl⟩

/-! ### The answers -/

theorem answer_of_lt (hears : m.HearsChildren)
    (inTime : m.lifetime path argv < Duration.limit timeout) :
    m.answer path argv timeout = Spawned.ofEnding (m.ending path argv) := by
  rw [answer, verdict, if_pos inTime, decide_eq_false (not_not_intro hears)]
  rfl

theorem answer_unheard (deaf : ¬ m.HearsChildren)
    (inTime : m.lifetime path argv < Duration.limit timeout) :
    m.answer path argv timeout = .error (.waitFailed .noChild) := by
  rw [answer, verdict, if_pos inTime, decide_eq_true deaf]
  rfl

theorem answer_of_le (late : Duration.limit timeout ≤ m.lifetime path argv) :
    m.answer path argv timeout = .error .timedOut := by
  rw [answer, verdict, if_neg (not_lt.mpr late)]
  rfl

theorem ofEnding_exited {status : Nat} (other : status ≠ 127) :
    Spawned.ofEnding (.exited status) = .ok status :=
  if_neg other

/-- A child that cannot become its program ends at once, with the status for that. -/
theorem ending_of_error {e : Errno} (failed : m.findProgram path argv.toList = .error e) :
    m.lifetime path argv = 0 ∧ m.ending path argv = .exited 127 := by
  rw [lifetime, ending, child, failed]
  exact ⟨rfl, rfl⟩

theorem childSays_of_ending (other : m.ending path argv ≠ .exited 127) :
    m.childSays path argv = [] := by
  cases found : m.findProgram path argv.toList with
  | ok p => rw [childSays, found]
  | error e => exact absurd (ending_of_error found).2 other

/-- The failures of a program that was started are all said in full. -/
theorem report_of_answer {e : SpawnError}
    (named : ∀ signal, m.ending path argv = .killed signal → 1 ≤ signal ∧ signal ≤ 31)
    (failed : m.answer path argv timeout = .error e) :
    e.report = utf8 ("FAIL: " ++ e.message ++ "\n") := by
  by_cases inTime : m.lifetime path argv < Duration.limit timeout
  · by_cases hears : m.HearsChildren
    · rw [answer_of_lt hears inTime] at failed
      cases ended : m.ending path argv with
      | exited status =>
          rw [ended, Spawned.ofEnding] at failed
          split at failed
          · cases failed
            exact SpawnError.report_of_fits (by decide +kernel)
          · cases failed
      | killed signal =>
          rw [ended] at failed
          cases failed
          exact SpawnError.report_signaled (named signal ended).2
    · rw [answer_unheard hears inTime] at failed
      cases failed
      exact SpawnError.report_of_fits (by decide +kernel)
  · rw [answer_of_le (not_lt.mp inTime)] at failed
    cases failed
    exact SpawnError.report_of_fits (by decide +kernel)

/-! ### What is left of it -/

theorem stderr_spawn (fork : m.forkFailure = none)
    (known : (m.spawnAndWait path argv timeout).1.result = .ok (m.answer path argv timeout))
    (named : ∀ signal, m.ending path argv = .killed signal → 1 ≤ signal ∧ signal ≤ 31) :
    (m.spawn path argv timeout).2.stderr =
      m.stderr ++ m.childSays path argv ++ failureLine (m.answer path argv timeout) := by
  obtain ⟨stderr, -⟩ := machine_spawnAndWait fork path argv timeout
  rw [← stderr]
  exact stderr_reportFailure known (fun e failed => report_of_answer named failed) _

theorem errno_spawn {e : SpawnError}
    (known : (m.spawnAndWait path argv timeout).1.result = .ok (m.answer path argv timeout))
    (failed : m.answer path argv timeout = .error e) :
    (m.spawn path argv timeout).1.result = .ok (.error e) ∧
      (m.spawn path argv timeout).2.errno = e.errno :=
  ⟨failed ▸ known, errno_reportFailure (failed ▸ known) _⟩

theorem spawn_restores (fork : m.forkFailure = none) (path : CString) (argv : Argv)
    (timeout : Option Duration) :
    (m.spawn path argv timeout).2.alarm = false ∧
      (m.spawn path argv timeout).2.children =
        m.children + (if (m.waitFor path argv timeout).2 then 1 else 0) ∧
      ∀ signal, (m.spawn path argv timeout).2.disposition signal = m.disposition signal := by
  obtain ⟨-, alarm, children, dispositions⟩ :=
    machine_spawnAndWait fork path argv timeout
  obtain ⟨children', alarm', dispositions'⟩ :=
    reportFailure_keeps (m.spawnAndWait path argv timeout).2 (m.spawnAndWait path argv timeout).1
  refine ⟨alarm'.trans alarm, children'.trans children, fun signal => ?_⟩
  rw [← dispositions signal, disposition, disposition, ← dispositions']
  rfl

/-- Every ending of a program is told apart, and nothing of the wait is left behind. -/
theorem spawn_settled (fork : m.forkFailure = none)
    (fits : ∀ n : ℕ, Duration.limit timeout = n → n < UInt64.size)
    (ends : m.lifetime path argv ≠ ⊤ ∨ Duration.limit timeout ≠ ⊤)
    (named : ∀ signal, m.ending path argv = .killed signal → 1 ≤ signal ∧ signal ≤ 31) :
    m.Settled path argv timeout (m.spawn path argv timeout).1 (m.spawn path argv timeout).2 := by
  obtain ⟨known, reaped, counted⟩ := settled_wait fork fits ends
  have said := stderr_spawn fork known named
  obtain ⟨alarm, children, dispositions⟩ :=
    spawn_restores fork path argv timeout
  have failure {e : SpawnError} {n : Nat} (failed : m.answer path argv timeout = .error e)
      (number : e.errno.number = n) :
      (m.spawn path argv timeout).1.result = .ok (.error e) ∧
        (m.spawn path argv timeout).2.errno.number = n := by
    obtain ⟨result, errno⟩ := errno_spawn known failed
    exact ⟨result, errno ▸ number⟩
  refine ⟨?_, ?_, ?_, ?_, ?_, counted, ⟨_, known, said⟩, ⟨reaped, ?_⟩, alarm, dispositions⟩
  · intro status hears inTime ended other
    have returned := answer_of_lt hears inTime
    rw [ended, ofEnding_exited other] at returned
    have silent : m.childSays path argv = [] := by
      apply childSays_of_ending
      rw [ended]
      exact fun same => other (Ending.exited.inj same)
    refine ⟨returned ▸ known, ?_⟩
    rw [said, returned, silent, failureLine, List.append_nil, List.append_nil]
  · rintro hears (⟨inTime, ended⟩ | ⟨e, unfound⟩)
    · exact failure ((answer_of_lt hears inTime).trans (congrArg Spawned.ofEnding ended)) rfl
    · obtain ⟨atOnce, ended⟩ := ending_of_error unfound
      have inTime : m.lifetime path argv < Duration.limit timeout :=
        atOnce ▸ Duration.limit_pos timeout
      exact failure ((answer_of_lt hears inTime).trans (congrArg Spawned.ofEnding ended)) rfl
  · intro signal hears inTime ended
    exact failure ((answer_of_lt hears inTime).trans (congrArg Spawned.ofEnding ended)) rfl
  · intro deaf inTime
    exact failure (answer_unheard deaf inTime) rfl
  · intro late
    obtain ⟨result, errno⟩ := failure (answer_of_le late) (n := 16) rfl
    obtain ⟨n, -, course⟩ := watch_of_le fits ends late
    exact ⟨result, errno, _, course, rfl⟩
  · obtain ⟨w, course, unreaped⟩ := reaped
    rw [children, waitFor_of_watch course, unreaped]
    rfl

/-! ### Machines with one program -/

/-- A machine on which nothing but one program can be executed. -/
def withTool (p : Program) : Machine :=
  { bare with files := FileTree.empty.put [utf8 "tool"] (.file [] (.program p)) }

/-- A machine with one program, whose process ignores the ends of its children. -/
def deaf (p : Program) : Machine := { withTool p with dispositions := [(childSignal, .ignored)] }

/-- The arguments of the tool. -/
def toolArgv : Argv := ⟨[some (.text "tool"), none], 1⟩

/-- A program that takes its time. -/
def slowTool : Program := ⟨[], some 5, .exited 0, false⟩

/-- A program that ends at once. -/
def quickTool : Program := ⟨[], some 0, .exited 3, false⟩

theorem lifetime_slowTool : (withTool slowTool).lifetime (.text "tool") toolArgv = (5 : ℕ) := by
  have found : (withTool slowTool).child (.text "tool") toolArgv = (some 5, .exited 0) := by
    decide +kernel
  rw [lifetime, found]
  rfl

/-- A program that needs five seconds is given up after three and a half. -/
theorem slow_tool_settled :
    ((withTool slowTool).spawn (.text "tool") toolArgv
        (some ⟨3, 500000000, by decide⟩)).1.result = .ok (.error .timedOut) ∧
      ((withTool slowTool).spawn (.text "tool") toolArgv
        (some ⟨3, 500000000, by decide⟩)).2.children = 0 := by
  have limit : Duration.limit (some ⟨3, 500000000, by decide⟩) = (4 : ℕ) := by decide +kernel
  have ending : (withTool slowTool).ending (.text "tool") toolArgv = .exited 0 := by decide +kernel
  have fits : ∀ n : ℕ, Duration.limit (some ⟨3, 500000000, by decide⟩) = n → n < UInt64.size := by
    intro n same
    rw [limit, Nat.cast_inj] at same
    rw [← same]
    decide
  have ends : (withTool slowTool).lifetime (.text "tool") toolArgv ≠ ⊤ :=
    lifetime_slowTool ▸ ENat.natCast_ne_top 5
  have named : ∀ signal, (withTool slowTool).ending (.text "tool") toolArgv = .killed signal →
      1 ≤ signal ∧ signal ≤ 31 := by
    rw [ending]
    rintro signal ⟨⟩
  have late : Duration.limit (some ⟨3, 500000000, by decide⟩) ≤
      (withTool slowTool).lifetime (.text "tool") toolArgv := by
    rw [limit, lifetime_slowTool, Nat.cast_le]
    decide
  have settled := spawn_settled rfl fits (.inl ends) named
  exact ⟨(settled.late late).1, settled.reaped.2⟩

/-- A program may end in time and its status not be known, and without a timeout the seconds that it
    takes are not counted. -/
theorem status_unheard_and_uncounted :
    ((deaf quickTool).lifetime (.text "tool") toolArgv < Duration.limit (some (.ofSeconds 10)) ∧
      (deaf quickTool).ending (.text "tool") toolArgv = .exited 3 ∧
      ((deaf quickTool).spawn (.text "tool") toolArgv (some (.ofSeconds 10))).1.result ≠
        .ok (.ok 3)) ∧
    ((withTool slowTool).lifetime (.text "tool") toolArgv ≠ ⊤ ∧
      (((withTool slowTool).spawn (.text "tool") toolArgv none).1.ticks : ℕ∞) ≠
        min ((withTool slowTool).lifetime (.text "tool") toolArgv) (Duration.limit none)) := by
  have atOnce : (deaf quickTool).lifetime (.text "tool") toolArgv = 0 := by
    have found : (deaf quickTool).child (.text "tool") toolArgv = (some 0, .exited 3) := by
      decide +kernel
    rw [lifetime, found]
    rfl
  have uncounted : ((withTool slowTool).spawn (.text "tool") toolArgv none).1.ticks = 0 := by
    decide +kernel
  refine ⟨⟨?_, by decide +kernel, by decide +kernel⟩, ?_, ?_⟩
  · rw [atOnce]
    exact Duration.limit_pos _
  · rw [lifetime_slowTool]
    exact ENat.natCast_ne_top 5
  · rw [lifetime_slowTool, uncounted, Duration.limit, min_eq_left le_top]
    decide +kernel

end Machine

end Postmortem

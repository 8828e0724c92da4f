import Postmortem.Proofs.FileTree
import Postmortem.Command
import Postmortem.Delivery

/-! # What the machine keeps

Whatever a report and the programs that it starts do to files, they only add to them; and what has
been written to the error stream, and which programs have been started, is only ever continued.
-/

namespace Postmortem

namespace Machine

/-- What every step of a report leaves as it is, or only adds to. -/
structure Follows (m later : Machine) : Prop where
  working : later.working = m.working
  host : later.hostName = m.hostName
  status : later.status = m.status
  files : m.files.Grows later.files
  said : m.stderr <+: later.stderr
  launched : m.launches <+: later.launches

theorem Follows.refl (m : Machine) : m.Follows m :=
  ⟨rfl, rfl, rfl, .refl m.files, List.prefix_rfl, List.prefix_rfl⟩

theorem Follows.trans {m n o : Machine} (h : m.Follows n) (h' : n.Follows o) : m.Follows o where
  working := h'.working.trans h.working
  host := h'.host.trans h.host
  status := h'.status.trans h.status
  files := h.files.trans h'.files
  said := h.said.trans h'.said
  launched := h.launched.trans h'.launched

theorem Follows.taken {m later : Machine} {path : Bytes} (h : m.Follows later)
    (taken : m.files.Taken m.working path) : later.files.Taken later.working path := by
  rw [h.working]
  exact taken.of_grows h.files

theorem follows_files {m : Machine} {files : FileTree} (grows : m.files.Grows files) :
    m.Follows { m with files } :=
  ⟨rfl, rfl, rfl, grows, List.prefix_rfl, List.prefix_rfl⟩

theorem follows_say (m : Machine) (bytes : Bytes) : m.Follows (m.say bytes) :=
  ⟨rfl, rfl, rfl, .refl m.files, List.prefix_append _ _, List.prefix_rfl⟩

theorem follows_setDisposition (m : Machine) (signal : Nat) (d : Disposition) :
    m.Follows (m.setDisposition signal d) :=
  ⟨rfl, rfl, rfl, .refl m.files, List.prefix_rfl, List.prefix_rfl⟩

theorem follows_finish (m : Machine) (ending : Ending) : m.Follows (m.finish ending) := by
  rw [finish]
  split
  · exact .refl m
  · exact ⟨rfl, rfl, rfl, .refl m.files, List.prefix_rfl, List.prefix_rfl⟩

theorem extends_appendTo (m : Machine) (path bytes : Bytes) :
    m.files.Extends (m.appendTo path bytes).files := by
  rw [appendTo]
  split
  · next appended => exact FileTree.extends_of_append appended
  · exact .refl m.files

theorem extends_perform (m : Machine) (p : Program) (path : CString) (arguments : List CString) :
    m.files.Extends (m.perform p path arguments).files := by
  rw [perform]
  dsimp only
  generalize m.files = files
  induction p.appends generalizing files with
  | nil => exact .refl files
  | cons a rest ih =>
      rw [List.foldl_cons]
      refine FileTree.Extends.trans ?_ (ih _)
      split
      · exact .refl files
      · split
        · next appended => exact FileTree.extends_of_appendOrCreate appended
        · exact .refl files

theorem follows_appendTo (m : Machine) (path bytes : Bytes) : m.Follows (m.appendTo path bytes) := by
  have added := (m.extends_appendTo path bytes).grows
  rw [appendTo] at added ⊢
  split
  · next appended =>
    rw [appended] at added
    exact follows_files added
  · exact .refl m

theorem follows_perform (m : Machine) (p : Program) (path : CString) (arguments : List CString) :
    m.Follows (m.perform p path arguments) :=
  follows_files (m.extends_perform p path arguments).grows

/-! ## Programs -/

theorem follows_becomeProgram (m : Machine) (path : CString) (argv : Argv) :
    m.Follows (m.becomeProgram path argv).2 := by
  let launch : Launch := ⟨path, argv.toList, m.findProgram path argv.toList⟩
  have recorded : m.Follows { m with launches := m.launches ++ [launch] } :=
    ⟨rfl, rfl, rfl, .refl m.files, List.prefix_rfl, List.prefix_append _ _⟩
  rw [becomeProgram]
  split
  · exact recorded.trans (follows_perform _ _ _ _)
  · exact recorded.trans (follows_say _ _)

theorem follows_spawnAndWait (m : Machine) (path : CString) (argv : Argv)
    (timeout : Option Duration) : m.Follows (m.spawnAndWait path argv timeout).2 := by
  rw [spawnAndWait]
  split
  · exact .refl m
  · have started := follows_becomeProgram m path argv
    have waited (n : Machine) (c : Nat) : n.Follows { n with alarm := false, children := c } :=
      ⟨rfl, rfl, rfl, .refl n.files, List.prefix_rfl, List.prefix_rfl⟩
    exact ((started.trans (follows_setDisposition _ _ _)).trans (waited _ _)).trans
      (follows_setDisposition _ _ _)

theorem follows_reportFailure (m : Machine) (spawned : Spawned) :
    m.Follows (m.reportFailure spawned) := by
  rw [reportFailure]
  split
  · exact ⟨rfl, rfl, rfl, .refl m.files, List.prefix_append _ _, List.prefix_rfl⟩
  · exact .refl m

theorem follows_start (m : Machine) (t : CommandTemplate) (override : CString) (fatal : Bool)
    (table : Substitutions) (timeout : Duration) (what : String) :
    m.Follows (t.start override fatal table timeout what m).2 := by
  rw [CommandTemplate.start]
  split
  · exact .refl m
  · exact follows_say _ _
  · exact follows_spawnAndWait _ _ _ _

/-! ## Signals -/

theorem follows_defaultEffect (m : Machine) (n : Int) : m.Follows (m.defaultEffect n) := by
  rw [defaultEffect]
  split
  · exact .refl m
  · split
    · exact follows_finish _ _
    · exact .refl m
    · exact ⟨rfl, rfl, rfl, .refl m.files, List.prefix_rfl, List.prefix_rfl⟩

theorem follows_callHandler (m : Machine) (n : Int) (given : Option Circumstances) :
    m.Follows (m.callHandler n given) :=
  ⟨rfl, rfl, rfl, .refl m.files, List.prefix_rfl, List.prefix_rfl⟩

theorem follows_signalEffect (m : Machine) (n : Int) (c : Circumstances) (d : Disposition) :
    m.Follows (m.signalEffect n c d) := by
  cases d with
  | standard => exact follows_defaultEffect m n
  | ignored => exact .refl m
  | handler => exact follows_callHandler m n none
  | infoHandler => exact follows_callHandler m n (some c)
  | crashReport => exact .refl m
  | wakeUp => exact .refl m

/-- A machine with nothing on it but its root. -/
def bare : Machine where
  files := .empty
  working := []
  environment := ⟨[]⟩
  stdout := []
  stderr := []
  launches := []
  errno := ⟨0⟩
  pid := 42
  hostName := some (utf8 "box")
  userSeconds := some 0
  clock := 0
  epochSeconds := 0
  executable := none
  tails := fun _ => []
  tailsUsed := 0
  forkFailure := none
  dispositions := []
  calls := []
  circumstances := fun _ => ⟨0, 0⟩
  status := []
  alarm := false
  children := 0
  fate := .running
  stack := []
  symbols := []

end Machine

end Postmortem

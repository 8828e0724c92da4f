import Postmortem.FileTree
import Postmortem.Text.Quoted

/-! # Checking report files

The files that reports leave behind: which of the files in a directory they are, and whether one of
them has the parts that it should have.
-/

namespace Postmortem.Check

/-- Why a file or directory cannot be read. -/
inductive AccessError where
  | system (e : Errno)
  /-- A name with a NUL in it is the name of nothing. -/
  | nulInName
  | notText
  deriving Repr, DecidableEq

/-- The wording of the failure. -/
def AccessError.message : AccessError → String
  | .system e => e.osMessage
  | .nulInName => "file name contained an unexpected NUL byte"
  | .notText => "stream did not contain valid UTF-8"

/-- What is wrong with report files. -/
inductive ReportFault where
  | directory (path : Bytes) (e : AccessError)
  | unreadable (path : Bytes) (e : AccessError)
  | firstLine (line path : Bytes)
  | noSection (path contents : Bytes)
  | postmortem (expected : Bool) (contents : Bytes)
  deriving Repr, DecidableEq

/-- A text in quotes. -/
def quotedText (text : Bytes) : Bytes := utf8Chars (Text.quotedChars (Utf8.decodeLossy text))

/-- A path in quotes. -/
def quotedPath (path : Bytes) : Bytes := utf8Chars (Text.quotedPath path)

/-- The wording of a fault. -/
def ReportFault.message : ReportFault → Bytes
  | .directory path e => utf8 "reading " ++ quotedPath path ++ utf8 ": " ++ utf8 e.message
  | .unreadable path e =>
    utf8 "reading report at " ++ quotedPath path ++ utf8 ": " ++ utf8 e.message
  | .firstLine line path =>
    utf8 "Unexpected first line " ++ quotedText line ++ utf8 " in " ++ quotedPath path
  | .noSection path contents =>
    utf8 "Missing postmortem section in " ++ quotedPath path ++ utf8 ": " ++ quotedText contents
  | .postmortem expected contents =>
    utf8 "Postmortem output expected: " ++ utf8 (if expected then "true" else "false")
      ++ utf8 ", got " ++ quotedText contents

/-- What the postmortem command of a rehearsal appends, up to the process id. -/
def postmortemMark : Bytes := utf8 "postmortem ran for pid"

/-- What stands before the part that the postmortem command appends. -/
def sectionMark : Bytes := utf8 "\nPostmortem Stack Trace\n"

/-- The first line of the report on this reason. -/
def firstLineFor (reason : Bytes) : Bytes :=
  utf8 "This stack trace was requested because: " ++ reason

/-- Reads a file as text. -/
def readText (tree : FileTree) (working : Place) (path : Bytes) : Except AccessError Bytes :=
  if (0 : UInt8) ∈ path then .error .nulInName
  else
    match tree.read working path with
    | .error e => .error (.system e)
    | .ok contents => if (Utf8.decode? contents).isSome then .ok contents else .error .notText

/-- Checks the contents of a report file: its first line gives the reason, it has a section for the
    postmortem command, and that command has left its mark exactly if it was expected to. -/
def contents (path reason : Bytes) (expectPostmortem : Bool) (text : Bytes) :
    Except ReportFault Unit :=
  let first := (Bytes.lines text).head?.getD []
  if first ≠ firstLineFor reason then .error (.firstLine first path)
  else if !Bytes.occursIn sectionMark text then .error (.noSection path text)
  else if Bytes.occursIn postmortemMark text ≠ expectPostmortem then
    .error (.postmortem expectPostmortem text)
  else .ok ()

/-- Checks a report file; the result is its contents. -/
def report (tree : FileTree) (working : Place) (path reason : Bytes) (expectPostmortem : Bool) :
    Except ReportFault Bytes :=
  match readText tree working path with
  | .error e => .error (.unreadable path e)
  | .ok text => (contents path reason expectPostmortem text).map fun _ => text

/-- Is this the name of a report file? -/
def isReportName (stem name : Bytes) : Bool :=
  (Utf8.decode? name).isSome && (stem ++ utf8 "_").isPrefixOf name

/-- A name in a directory as a path. -/
def inDirectory (directory name : Bytes) : Bytes :=
  if FileTree.endsInSlash directory then directory ++ name
  else directory ++ Bytes.slash :: name

/-- The report files in a directory, in the order of their names. -/
def reportFiles (tree : FileTree) (working : Place) (directory stem : Bytes) :
    Except ReportFault (List Bytes) :=
  if (0 : UInt8) ∈ directory then .error (.directory directory .nulInName)
  else
    match tree.list working directory with
    | .error e => .error (.directory directory (.system e))
    | .ok names =>
      let reports := (names.filter (isReportName stem)).mergeSort fun a b => !Bytes.precedes b a
      .ok (reports.map (inDirectory directory))

end Postmortem.Check

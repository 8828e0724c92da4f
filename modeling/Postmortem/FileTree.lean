import Postmortem.Errno
import Postmortem.Program

/-! # Files

A tree of directories and files, addressed by paths. A path is walked component by component from
the working directory (or from the root, if it begins with a separator); every directory on the way
has to be there. The operations are those that reports need, with the errors the system gives.
-/

namespace Postmortem

/-- What happens if a file is executed. -/
inductive Executable where
  /-- Execution is not permitted. -/
  | forbidden
  /-- Execution is permitted, but the content is no program. -/
  | unrecognized
  | program (p : Program)
  deriving Repr, DecidableEq

/-- What a name in a directory stands for. -/
inductive FileEntry where
  | directory
  | file (content : Bytes) (run : Executable)
  /-- A file that belongs to others: it cannot be written or executed. If it can be opened at all,
      reading it fails after these bytes. -/
  | foreign (readable : Option Bytes)
  deriving Repr, DecidableEq

/-- The place of an entry: the names on the way from the root. -/
abbrev Place := List Bytes

/-- The entries below the root, by their places. -/
structure FileTree where
  entries : List (Place × FileEntry)
  deriving Repr, DecidableEq

namespace FileTree

/-- The longest name in a directory. -/
def maxName : Nat := 255

/-- The longest path. -/
def maxPath : Nat := 4095

/-- The name of a directory in itself. -/
def here : Bytes := utf8 "."

/-- The name of the directory above in a directory. -/
def above : Bytes := utf8 ".."

/-- The tree with nothing but the root. -/
def empty : FileTree := ⟨[]⟩

/-- The entry at a place. -/
def entry? (tree : FileTree) (place : Place) : Option FileEntry :=
  if place.isEmpty then some .directory else tree.entries.lookup place

/-- Puts an entry at a place, replacing the one that was there. -/
def put (tree : FileTree) (place : Place) (entry : FileEntry) : FileTree :=
  if (tree.entries.lookup place).isSome then
    ⟨tree.entries.map fun (p, e) => if p = place then (p, entry) else (p, e)⟩
  else ⟨tree.entries ++ [(place, entry)]⟩

/-- The names that make up a path; separators in a row count as one. -/
def components (path : Bytes) : List Bytes :=
  (Bytes.pieces Bytes.slash path).filter (!·.isEmpty)

/-- Does the path end in a separator? -/
def endsInSlash (path : Bytes) : Bool := path.getLast? = some Bytes.slash

/-- Where walking a path begins. -/
def start (working : Place) (path : Bytes) : Place :=
  if path.head? = some Bytes.slash then [] else working

/-- Walks on from a place. -/
def walk (tree : FileTree) (place : Place) : List Bytes → Except Errno Place
  | [] => .ok place
  | name :: rest =>
    match tree.entry? place with
    | none => .error .notFound
    | some (.file _ _) => .error .notDirectory
    | some (.foreign _) => .error .notDirectory
    | some .directory =>
      if name = here then walk tree place rest
      else if name = above then walk tree place.dropLast rest
      else if maxName < name.length then .error .nameTooLong
      else if (tree.entry? (place ++ [name])).isNone then .error .notFound
      else walk tree (place ++ [name]) rest

/-- The place and the entry that a path leads to. -/
def locate (tree : FileTree) (working : Place) (path : Bytes) : Except Errno (Place × FileEntry) :=
  if path.isEmpty then .error .notFound
  else if maxPath < path.length then .error .nameTooLong
  else
    match tree.walk (start working path) (components path) with
    | .error e => .error e
    | .ok place =>
      match tree.entry? place with
      | none => .error .notFound
      | some .directory => .ok (place, .directory)
      | some (.file content run) =>
        if endsInSlash path then .error .notDirectory else .ok (place, .file content run)
      | some (.foreign readable) =>
        if endsInSlash path then .error .notDirectory else .ok (place, .foreign readable)

/-- The place where a path would create an entry. Nothing may be there yet. -/
def vacancy (tree : FileTree) (working : Place) (path : Bytes) : Except Errno Place :=
  if path.isEmpty then .error .notFound
  else if maxPath < path.length then .error .nameTooLong
  else
    match (components path).getLast? with
    | none => .error .alreadyExists
    | some name =>
      match tree.walk (start working path) (components path).dropLast with
      | .error e => .error e
      | .ok parent =>
        match tree.entry? parent with
        | none => .error .notFound
        | some (.file _ _) => .error .notDirectory
        | some (.foreign _) => .error .notDirectory
        | some .directory =>
          if endsInSlash path then .error .isDirectory
          else if name = here ∨ name = above then .error .alreadyExists
          else if maxName < name.length then .error .nameTooLong
          else if (tree.entry? (parent ++ [name])).isSome then .error .alreadyExists
          else .ok (parent ++ [name])

/-- Creates an empty file where nothing was. -/
def createExclusive (tree : FileTree) (working : Place) (path : Bytes) : Except Errno FileTree :=
  (tree.vacancy working path).map fun place => tree.put place (.file [] .forbidden)

/-- The content of a file. A directory can be opened, but not read. -/
def read (tree : FileTree) (working : Place) (path : Bytes) : Except Errno Bytes :=
  match tree.locate working path with
  | .error e => .error e
  | .ok (_, .directory) => .error .isDirectory
  | .ok (_, .foreign none) => .error .accessDenied
  | .ok (_, .foreign (some _)) => .error .inputOutput
  | .ok (_, .file content _) => .ok content

/-- Appends to a file that is there. -/
def append (tree : FileTree) (working : Place) (path bytes : Bytes) : Except Errno FileTree :=
  match tree.locate working path with
  | .error e => .error e
  | .ok (_, .directory) => .error .isDirectory
  | .ok (_, .foreign _) => .error .accessDenied
  | .ok (place, .file content run) => .ok (tree.put place (.file (content ++ bytes) run))

/-- Appends to a file, which is created if it is not there. -/
def appendOrCreate (tree : FileTree) (working : Place) (path bytes : Bytes) :
    Except Errno FileTree :=
  match tree.append working path bytes with
  | .error e =>
    if e = .notFound then
      (tree.createExclusive working path).bind fun tree => tree.append working path bytes
    else .error e
  | .ok tree => .ok tree

/-- Opens a file that is there to append to it. The result is where it is. -/
def openToAppend (tree : FileTree) (working : Place) (path : Bytes) : Except Errno Place :=
  match tree.locate working path with
  | .error e => .error e
  | .ok (_, .directory) => .error .isDirectory
  | .ok (_, .foreign _) => .error .accessDenied
  | .ok (place, .file _ _) => .ok place

/-- Opens a file to read it. A directory can be opened too. -/
def openToRead (tree : FileTree) (working : Place) (path : Bytes) : Except Errno Place :=
  match tree.locate working path with
  | .error e => .error e
  | .ok (_, .foreign none) => .error .accessDenied
  | .ok (place, _) => .ok place

/-- Appends to an open file. -/
def appendAt (tree : FileTree) (place : Place) (bytes : Bytes) : Except Errno FileTree :=
  match tree.entry? place with
  | some (.file content run) => .ok (tree.put place (.file (content ++ bytes) run))
  | _ => .error .badDescriptor

/-- What can be read from an open file, and why reading it fails after that, if it does. -/
def contentAt (tree : FileTree) (place : Place) : Bytes × Option Errno :=
  match tree.entry? place with
  | some (.file content _) => (content, none)
  | some (.foreign (some front)) => (front, some .inputOutput)
  | some .directory => ([], some .isDirectory)
  | _ => ([], some .badDescriptor)

/-- What a path leads to when it is executed. -/
def execute (tree : FileTree) (working : Place) (path : Bytes) : Except Errno Program :=
  match tree.locate working path with
  | .error e => .error e
  | .ok (_, .directory) => .error .accessDenied
  | .ok (_, .foreign _) => .error .accessDenied
  | .ok (_, .file _ .forbidden) => .error .accessDenied
  | .ok (_, .file _ .unrecognized) => .error .notExecutable
  | .ok (_, .file _ (.program p)) => .ok p

/-- The names in a directory. -/
def list (tree : FileTree) (working : Place) (path : Bytes) : Except Errno (List Bytes) :=
  match tree.locate working path with
  | .error e => .error e
  | .ok (_, .file _ _) => .error .notDirectory
  | .ok (_, .foreign _) => .error .notDirectory
  | .ok (place, .directory) =>
    .ok <| tree.entries.filterMap fun (p, _) =>
      match p.getLast? with
      | some name => if p = place ++ [name] then some name else none
      | none => none

/-- A directory at a place, with those above it, where there is none yet. -/
def makeDirectories (tree : FileTree) (place : Place) : FileTree :=
  (List.range place.length).foldl (fun tree n =>
    let above := place.take (n + 1)
    if (tree.entry? above).isNone then tree.put above .directory else tree) tree

/-- A file at a place, with the directories above it. -/
def makeFile (tree : FileTree) (place : Place) (content : Bytes) (run : Executable) : FileTree :=
  (tree.makeDirectories place.dropLast).put place (.file content run)

end FileTree

end Postmortem

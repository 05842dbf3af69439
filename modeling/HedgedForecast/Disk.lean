/-! # Files and directories

As much of a disk as settings need: what stands at a path, reading a text, making the directories
above a file, and replacing a file's contents.
-/

namespace HedgedForecast

/-- The parts of a path, outermost first; an absolute path starts with an empty part. -/
abbrev Path := List String

/-- A path as a text. -/
def Path.text (path : Path) : String :=
  "/".intercalate path

/-- The path of a text. -/
def Path.ofText (s : String) : Path :=
  (s.toList.splitOn '/').map String.ofList

/-- What stands at a path. -/
inductive DiskNode where
  | file (contents : ByteArray)
  | directory

instance : DecidableEq DiskNode
  | .file left, .file right =>
    match ByteArray.instDecidableEq left right with
    | .isTrue same => .isTrue (congrArg _ same)
    | .isFalse different => .isFalse fun same => different (DiskNode.file.inj same)
  | .directory, .directory => .isTrue rfl
  | .file _, .directory | .directory, .file _ => .isFalse (by simp)

/-- Why the disk refuses. -/
inductive DiskError where
  | missing
  | exists
  | notDirectory
  | isDirectory
  | notText
  deriving DecidableEq, Repr

/-- The wording of a refusal. -/
def DiskError.message : DiskError → String
  | missing => "No such file or directory (os error 2)"
  | «exists» => "File exists (os error 17)"
  | notDirectory => "Not a directory (os error 20)"
  | isDirectory => "Is a directory (os error 21)"
  | notText => "stream did not contain valid UTF-8"

/-- What stands at each path. -/
structure Disk where
  node? : Path → Option DiskNode

namespace Disk

/-- The disk with one node replaced. -/
def set (disk : Disk) (path : Path) (node : DiskNode) : Disk :=
  ⟨fun other => if other = path then some node else disk.node? other⟩

/-- Whether a file stands at a path. -/
def isFile (disk : Disk) (path : Path) : Bool :=
  match disk.node? path with
  | some (.file _) => true
  | _ => false

/-- Whether a directory stands at a path. -/
def isDirectory (disk : Disk) (path : Path) : Bool :=
  match disk.node? path with
  | some .directory => true
  | _ => false

/-- The path and all paths above it, outermost first. -/
def downTo (path : Path) : List Path :=
  (List.range path.length).map fun n => path.take (n + 1)

/-- All paths above the path, outermost first. -/
def above (path : Path) : List Path :=
  (downTo path).dropLast

/-- The text of a file. -/
def readText (disk : Disk) (path : Path) : Except DiskError String :=
  match disk.node? path with
  | some (.file contents) =>
    match String.fromUTF8? contents with
    | some text => .ok text
    | none => .error .notText
  | some .directory => .error .isDirectory
  | none => .error (if (above path).any disk.isFile then .notDirectory else .missing)

/-- Makes a directory and those above it; nothing is made if a file is in the way. -/
def makeDirectories (disk : Disk) (path : Path) : Except DiskError Disk :=
  if (above path).any disk.isFile then .error .notDirectory
  else if disk.isFile path then .error .exists
  else .ok ((downTo path).foldl (fun disk path => disk.set path .directory) disk)

/-- Replaces the contents of a file, or makes it. -/
def writeText (disk : Disk) (path : Path) (text : String) : Except DiskError Disk :=
  if disk.isDirectory path then .error .isDirectory
  else .ok (disk.set path (.file text.toUTF8))

end Disk

end HedgedForecast

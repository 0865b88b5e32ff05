import Rollout.Command.Run
import Std.Time.DateTime

/-!
# The program

The outer layer: it looks at the file system, runs the command line on what it saw, carries out
the edits in order and prints the reply. Nothing is decided here.
-/

namespace Rollout.Program

/-- The location of an absolute path by its text. -/
def locationOf (p : Path) : Location :=
  p.segments.foldl (fun l name =>
    if Path.isIdle name then l else if name = ".." then l.dropLast else l ++ [name]) []

def textOf (l : Location) : String := (Path.ofSegments true l).text

/-- The environment variables that count. -/
def variableNames : List String :=
  [Config.platformVariable, Config.registryVariable, Config.documentVariable, Config.jsonVariable,
    "XDG_CONFIG_HOME", "HOME"]

def environment : IO (Dict String) := do
  let found ← variableNames.filterMapM fun name => do
    return (← IO.getEnv name).map fun value => (name, value)
  return Dict.ofEntries found

/-- The content of a file. -/
def contentAt (path : String) : IO Content := do
  let bytes ← IO.FS.readBinFile path
  match String.fromUTF8? bytes with
  | some s => return .text s
  | none => return .bytes bytes.toList

/-- What is at a location. -/
def look (l : Location) : IO (List (Location × Entry)) := do
  try
    let path ← IO.FS.realPath (textOf l)
    let entry ← if ← path.isDir then pure Entry.folder else Entry.file <$> contentAt (textOf l)
    return [(l, entry)]
  catch _ => return []

/-- The names and kinds of everything below a folder; links are not followed. -/
partial def lookBelow (l : Location) : IO (List (Location × Entry)) := do
  try
    let folder ← IO.FS.realPath (textOf l)
    let mut found := []
    for e in ← folder.readDir do
      let child := l ++ [e.fileName]
      if ← e.path.isDir then
        let real ← IO.FS.realPath e.path
        let inner ← if real == e.path then lookBelow child else pure []
        found := inner ++ (child, Entry.folder) :: found
      else
        found := (child, Entry.file (.text "")) :: found
    return found
  catch _ => return []

/-- A tree of entries, of which later ones count. -/
def treeOf (entries : List (Location × Entry)) : Tree :=
  entries.foldl (fun t (l, e) => t.plant l e) ⟨[]⟩

/-- The files that settle where the workspace is and how the program is configured. -/
def markers (env : Config.Environment) (current : Path) (workspace : Option Path) : List Path :=
  let start := (workspace.map current.join).getD current
  (start.ancestors.flatMap fun folder =>
    [folder, folder.child (Command.markingDocument env), folder.child Config.fileName,
      folder.child Command.repositoryName]) ++
    ((Config.userFile? env).map current.join).toList

/-- What a command line may ask about. -/
def survey (env : Config.Environment) (current : Path) (words : List String) : IO Tree := do
  match Command.Invocation.read words with
  | .error _ => return ⟨[]⟩
  | .ok i =>
    let marked ← (markers env current i.workspace).flatMapM fun p => look (locationOf p)
    let first := (locationOf current, .folder) :: marked
    let view : View := ⟨treeOf first, locationOf current⟩
    let c := Command.Context.find view env i.workspace i.json
    let below ← lookBelow (locationOf (current.join c.root))
    let document ← look (locationOf (current.join c.document))
    return treeOf (below ++ first ++ document)

/-- Carries out an edit. -/
def carryOut : Edit → IO Unit
  | .put l .folder => IO.FS.createDir (textOf l)
  | .put l (.file (.text s)) => IO.FS.writeFile (textOf l) s
  | .put l (.file (.bytes bs)) => IO.FS.writeBinFile (textOf l) ⟨bs.toArray⟩
  | .remove l => do
    let path ← IO.FS.realPath (textOf l)
    if ← path.isDir then IO.FS.removeDirAll path else IO.FS.removeFile path
  | .clear l => do
    for e in ← (← IO.FS.realPath (textOf l)).readDir do
      if (← e.path.symlinkMetadata).type == .dir then IO.FS.removeDirAll e.path
      else IO.FS.removeFile e.path
  | .move source target => IO.FS.rename (textOf source) (textOf target)

def digits (width : Nat) (n : Int) : String :=
  let ds := String.ofList (Nat.toDigits 10 n.toNat)
  String.ofList (List.replicate (width - ds.length) '0') ++ ds

/-- The time of day in universal time. -/
def now : IO String := do
  let t := Std.Time.DateTime.ofTimestampWithZone (← Std.Time.Timestamp.now) .UTC
  return digits 4 t.year.toInt ++ "-" ++ digits 2 t.month.val ++ "-" ++ digits 2 t.day.val ++ "T" ++
    digits 2 t.hour.val ++ ":" ++ digits 2 t.minute.val ++ ":" ++ digits 2 t.second.val ++ "." ++
    digits 9 t.nanosecond.val ++ "+00:00"

def program (words : List String) : IO UInt32 := do
  let env ← environment
  let current : Path := ⟨(← IO.currentDir).toString⟩
  let tree ← survey env.get? current words
  let suffix := toString (← IO.rand 100000 999999)
  let setting : Command.Setting := { env := fun name => env.get? name, suffix }
  let (reply, disk) := (Command.run setting words).run (Disk.ofTree tree (locationOf current))
  for edit in disk.journal.reverse do
    carryOut edit
  let out ← IO.getStdout
  for piece in reply.output do
    out.putStr (piece.write (← now))
  out.flush
  (← IO.getStderr).putStr reply.notes
  return reply.exit.toUInt32

end Rollout.Program

/-- Runs the command line. -/
def main (words : List String) : IO UInt32 := Rollout.Program.program words

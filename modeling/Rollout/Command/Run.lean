import Rollout.Command.Answers
import Rollout.Command.Discovery
import Rollout.Command.Invocation
import Rollout.Compile.Profile
import Rollout.Switch.Standard

/-!
# Running commands

What each command does on a disk and what it replies: an exit code, the pieces of its output,
events among them, and the text of its errors and notes.
-/

namespace Rollout.Command

/-- A piece of output; an event is written as a line with a time stamp. -/
inductive Piece where
  | text (s : String)
  | event (e : Switch.Event)
deriving DecidableEq, Repr

def Piece.write (time : String) : Piece → String
  | text s => s
  | event e => e.line time

/-- The reply of a command. -/
structure Reply where
  exit : UInt8
  output : List Piece := []
  notes : String := ""
deriving DecidableEq, Repr

namespace Reply

def done (output : List Piece) (notes : String := "") : Reply := ⟨0, output, notes⟩

def failed (message : String) (output : List Piece := []) : Reply :=
  ⟨1, output, "Error: " ++ message ++ "\n"⟩

def withNotes (r : Reply) (notes : String) : Reply := { r with notes := notes ++ r.notes }

end Reply

/-! ### Compiling -/

/-- The settings of a compilation. -/
def compileSettings (c : Context) (platform : Option Platform) (registry : Option String) :
    CompileSettings :=
  { platform := platform.getD c.config.platform
    registryOverride := registry
    defaultRegistry := c.config.registry
    workspaceRoot := c.root }

/-- Loads a workspace and compiles the profiles of the selected projects. -/
def compileDocument (producers : Producers) (settings : CompileSettings) (document : Path)
    (selected : List String) : DiskTask StoreError (List Profile) := do
  let w ← Document.load document
  match Profile.compile producers (← get).exists? settings w selected with
  | .ok profiles => return profiles
  | .error e => throw (.invalid e)

/-- The note on compiled profiles. -/
def compiledNote (profiles : List Profile) : String :=
  "Compiled " ++ toString profiles.length ++ " profile(s): " ++
    Text.joined ", " (profiles.map (·.name)) ++ "\n"

def compile (c : Context) (projects : List String) (platform : Option Platform)
    (registry : Option String) : StateM Disk Reply := do
  let producers := Producers.builtin c.config.chartTable
  let settings := compileSettings c platform registry
  match ← (compileDocument producers settings c.document projects).run with
  | .error e => return .failed e.message
  | .ok profiles =>
    return .done [.text ((Profile.allJson profiles).pretty ++ "\n")]
      (if c.json then "" else compiledNote profiles)

/-! ### Resolving -/

/-- A row of the table of settings. -/
def settingsRow (label value : String) : String :=
  label ++ String.ofList (List.replicate (12 - label.length) ' ') ++ " " ++ value ++ "\n"

/-- The settings as a table. -/
def settingsTable (s : Settings) : String :=
  String.join [
    settingsRow "project" s.project,
    settingsRow "environment" s.environment,
    settingsRow "registry" (if s.registry = "" then "(none)" else s.registry),
    settingsRow "port" (toString s.port.toNat),
    settingsRow "region" s.region,
    settingsRow "cluster" s.cluster,
    settingsRow "namespace" s.namespace_,
    settingsRow "targets" (Text.joined ", " s.deployTargets),
    settingsRow "config path" s.configPath]

def resolve (c : Context) (project environment : String) (registry : Option String) :
    StateM Disk Reply := do
  match ← (Document.load c.document).run with
  | .error e => return .failed e.message
  | .ok w =>
    match w.project project with
    | .error e => return .failed e.message
    | .ok p =>
      let s := Settings.resolve w environment project p { registry }
      return .done [.text (if c.json then s.toJson.compact ++ "\n" else settingsTable s)]

/-! ### Switching -/

/-- The file that a switch opens so that no two run at once. -/
def lockName : String := ".keel.lock"

def troubleText : Trouble → String
  | .absent => "No such file or directory (os error 2)"
  | .unusable => "Is a directory (os error 21)"

def lockFailure (path : Path) (t : Trouble) : String :=
  "failed to open " ++ path.text ++ "\n\nCaused by:\n    " ++ troubleText t

/-- Whether a deletion is approved: by hand, or by the answer of a person at a terminal, who is
not asked when the output is JSON. -/
def approves (yes json : Bool) (answer : Option Bool) : Bool := yes || (!json && answer.getD false)

/-- A path as it is shown to a person. -/
def shown (root path : Path) : String := ((Path.below? root path).getD path).text

def reportText (root : Path) (r : Switch.Report) : String :=
  let lines := ["Switched '" ++ r.project ++ "' from " ++ r.origin.getD "(none)" ++ " to " ++
      r.target.id] ++
    (r.removed.toList.map fun path => "  removed  " ++ shown root path) ++
    ((r.written ++ r.workflows).map fun path => "  wrote    " ++ shown root path) ++
    (r.leftover.toList.map fun path =>
      "  warning: previous files left in " ++ shown root path ++ "; delete it by hand")
  String.join (lines.map (· ++ "\n"))

def outcomeText (root : Path) : Switch.Outcome → String
  | .alreadyActive project d =>
    "'" ++ project ++ "' already deploys with " ++ d.id ++ "; nothing to do\n"
  | .cancelled project => "Switch of '" ++ project ++ "' cancelled; nothing was changed\n"
  | .switched report => reportText root report

/-- The last line of a stream of events. -/
def resultLine (outcome : Switch.Outcome) : String :=
  (Json.object [("command", .text "switch"), ("event", .text "result"),
    ("outcome", outcome.toJson)]).compact ++ "\n"

def switch (c : Context) (suffix : String) (request : Switch.Request) (approve : Bool) :
    StateM Disk Reply := do
  let lock := c.root.child lockName
  match ← (Disk.openFile lock).run with
  | .error t => return .failed (lockFailure lock t)
  | .ok () =>
    let means := Switch.Means.standard c.document suffix fun _ _ => approve
    let (result, progress) := Switch.run means request (← get)
    set progress.disk
    let events := if c.json then progress.events.map Piece.event else []
    match result with
    | .error e => return .failed e.message events
    | .ok outcome =>
      return .done (events ++
        [.text (if c.json then resultLine outcome else outcomeText c.root outcome)])

/-! ### The command line -/

def versionText : String := "keel 0.4.0\n"

def helpText : String :=
  "Usage: keel [-C DIR] [--json] [-v] <COMMAND>\n\nCommands: compile, resolve, switch\n"

def warningText (w : Config.Warning) : String :=
  "⚠ Unknown config key '" ++ w.key ++ "' in " ++ w.place ++ "\n" ++
    match w.suggestion with
    | some known => "   Did you mean '" ++ known ++ "'?\n\n"
    | none => ""

/-- What a command runs with besides its command line. -/
structure Setting where
  env : Config.Environment
  /-- Sets the folders that a switch makes apart from those of other switches. -/
  suffix : String
  /-- The answer of the person at the terminal, if there is one. -/
  answer : Option Bool := none

def perform (s : Setting) (c : Context) : Action → StateM Disk Reply
  | .compile projects platform registry => compile c projects platform registry
  | .resolve project environment registry => resolve c project environment registry
  | .switch project deployer configPath answers yes =>
    match readAnswers answers with
    | .error e => return .failed e.message
    | .ok answers =>
      switch c s.suffix { project, deployer, configPath, answers } (approves yes c.json s.answer)

/-- Runs a command line. -/
def run (s : Setting) (words : List String) : StateM Disk Reply := do
  match Invocation.read words with
  | .error .misuse => return ⟨2, [], helpText⟩
  | .error .help => return .done [.text helpText]
  | .error .version => return .done [.text versionText]
  | .ok i =>
    let c := Context.find (← get).toView s.env i.workspace i.json
    let reply ← perform s c i.action
    return reply.withNotes (String.join (c.warnings.map warningText))

end Rollout.Command

import Rollout.Workspace.Basic

/-!
# Workspace documents

Reading a workspace from JSON and writing it back. Every structure takes the members that it
knows, each at most once, and keeps the others as `extra`; a spec drops what it does not know
and may be given as the list of its fields. Absent members have defaults, save the root of a
project and the tool of a spec.
-/

namespace Rollout.Document

open Json (Source)

/-- Reads a structure; the number is the room for nested levels. -/
abbrev Reader (α : Type) := Nat → Source → Option α

def text : Reader String
  | _, .text content => content
  | _, _ => none

def optionalText : Reader (Option String)
  | _, .null => some none
  | room, source => (text room source).map some

/-- A version number: an integer of 32 bits. -/
def version : Reader Nat
  | _, .number n =>
    match n.value? with
    | some (.integer i) => if 0 ≤ i ∧ i < UInt32.size then some i.toNat else none
    | _ => none
  | _, _ => none

/-- Members with keys that are texts. -/
def keyed? : List (Option String × Source) → Option (List (String × Source))
  | [] => some []
  | (some key, source) :: members => (keyed? members).map ((key, source) :: ·)
  | (none, _) :: _ => none

/-- The members of an object and the room inside. -/
def members? : Nat → Source → Option (Nat × List (String × Source))
  | room + 1, .object members => (keyed? members).map fun ms => (room, ms)
  | _, _ => none

/-- The one member with a key; a second one is refused. -/
def member? (members : List (String × Source)) (key : String) : Option (Option Source) :=
  match members.filter (·.1 = key) with
  | [] => some none
  | [(_, source)] => some (some source)
  | _ => none

/-- Reads a member that may be absent. -/
def field {α : Type} (reader : Reader α) (default : α) (room : Nat)
    (members : List (String × Source)) (key : String) : Option α := do
  match ← member? members key with
  | none => return default
  | some source => reader room source

/-- Reads a member that must be there. -/
def required {α : Type} (reader : Reader α) (room : Nat) (members : List (String × Source))
    (key : String) : Option α := do
  match ← member? members key with
  | none => none
  | some source => reader room source

/-- The members with other keys than the known ones. -/
def extra? (room : Nat) (known : List String) (members : List (String × Source)) :
    Option Extra := do
  let others := members.filter fun (key, _) => !known.contains key
  let values ← others.mapM fun (key, source) => (source.value? room).map fun v => (key, v)
  return Dict.ofEntries values

def dict {α : Type} (reader : Reader α) : Reader (Dict α) := fun room source => do
  let (room, members) ← members? room source
  let entries ← members.mapM fun (key, source) => (reader room source).map fun v => (key, v)
  return Dict.ofEntries entries

def optionMap : Reader OptionMap := OptionMap.ofSource?

/-- The fields of a spec in order. -/
def specOfList? (room : Nat) : List Source → Option Spec
  | [] => none
  | tool :: fields => do
    let tool ← text room tool
    match fields with
    | [] => return ⟨tool, [], [], none⟩
    | options :: fields =>
      let options ← optionMap room options
      match fields with
      | [] => return ⟨tool, options, [], none⟩
      | configurations :: fields =>
        let configurations ← dict optionMap room configurations
        match fields with
        | [] => return ⟨tool, options, configurations, none⟩
        | [default] => return ⟨tool, options, configurations, ← optionalText room default⟩
        | _ => none

/-- A spec whose tool is called `toolKey`. -/
def spec (toolKey : String) : Reader Spec := fun room source =>
  match room, source with
  | room + 1, .array fields => specOfList? room fields
  | _, _ => do
    let (room, ms) ← members? room source
    return {
      tool := ← required text room ms toolKey
      options := ← field optionMap [] room ms "options"
      configurations := ← field (dict optionMap) [] room ms "configurations"
      defaultConfiguration := ← field optionalText none room ms "defaultConfiguration" }

def optional {α : Type} (reader : Reader α) : Reader (Option α)
  | _, .null => some none
  | room, source => (reader room source).map some

def architect : Reader Architect := fun room source => do
  let (room, ms) ← members? room source
  return {
    build := ← field (optional (spec "builder")) none room ms "build"
    deploy := ← field (optional (spec "deployer")) none room ms "deploy"
    extra := ← extra? room ["build", "deploy"] ms }

def project : Reader Project := fun room source => do
  let (room, ms) ← members? room source
  return {
    root := ← required text room ms "root"
    language := ← field text "" room ms "type"
    architect := ← field architect {} room ms "architect"
    localOptions := ← field (dict optionMap) [] room ms "local"
    metadata := ← field optionMap [] room ms "metadata"
    extra := ← extra? room ["root", "type", "architect", "local", "metadata"] ms }

def info : Reader WorkspaceInfo := fun room source => do
  let (room, ms) ← members? room source
  return {
    name := ← field text "" room ms "name"
    extra := ← extra? room ["name"] ms }

def build : Reader BuildDefaults := fun room source => do
  let (room, ms) ← members? room source
  return {
    registry := ← field optionalText none room ms "registry"
    platform := ← field optionalText none room ms "platform"
    extra := ← extra? room ["registry", "platform"] ms }

def environment : Reader EnvironmentDefaults := fun room source => do
  let (room, ms) ← members? room source
  return {
    registry := ← field optionalText none room ms "registry"
    region := ← field optionalText none room ms "region"
    cluster := ← field optionalText none room ms "cluster"
    namespace_ := ← field optionalText none room ms "namespace"
    extra := ← extra? room ["registry", "region", "cluster", "namespace"] ms }

def provider : Reader ProviderDefaults := fun room source => do
  let (room, ms) ← members? room source
  return {
    cluster := ← field optionalText none room ms "cluster"
    namespace_ := ← field optionalText none room ms "namespace"
    region := ← field optionalText none room ms "region"
    projectId := ← field optionalText none room ms "projectId"
    extra := ← extra? room ["cluster", "namespace", "region", "projectId"] ms }

/-- The members of a document that a workspace knows. -/
def knownMembers : List String :=
  ["version", "workspace", "projects", "build", "environments", "infrastructure"]

/-- A workspace with the version that its document states. -/
def workspace : Reader (Nat × Workspace) := fun room source => do
  let (room, ms) ← members? room source
  let found ← field version Workspace.formatVersion room ms "version"
  return (found, {
    info := ← field info {} room ms "workspace"
    projects := ← field (dict project) [] room ms "projects"
    build := ← field build {} room ms "build"
    environments := ← field (dict environment) [] room ms "environments"
    infrastructure := ← field (dict provider) [] room ms "infrastructure"
    extra := ← extra? room knownMembers ms })

/-- Reads the document in `file`. The version is looked at once all else is in order, and the
projects are named by their keys. -/
def read (file : Path) (content : String) : Except WorkspaceError Workspace :=
  match (Source.read? content).bind (workspace Json.nestingLimit) with
  | none => .error (.invalidDocument file)
  | some (found, w) =>
    if found = Workspace.formatVersion then .ok w.named else .error (.unsupportedVersion found)

/-! ### Writing -/

/-- A member that is left out where there is no value. -/
def given (key : String) (value : Option String) : List (String × Json) :=
  match value with
  | some s => [(key, .text s)]
  | none => []

def configurationsJson (configurations : Dict OptionMap) : Json :=
  .object (configurations.map fun (key, options) => (key, options.toJson))

def specJson (toolKey : String) (s : Spec) : Json :=
  .object ([(toolKey, .text s.tool), ("options", s.options.toJson),
    ("configurations", configurationsJson s.configurations)] ++
    given "defaultConfiguration" s.defaultConfiguration)

def specMember (key toolKey : String) (s : Option Spec) : List (String × Json) :=
  match s with
  | some s => [(key, specJson toolKey s)]
  | none => []

def architectMembers (a : Architect) : List (String × Json) :=
  specMember "build" "builder" a.build ++ specMember "deploy" "deployer" a.deploy ++ a.extra

/-- A member that is left out where its object would be empty. -/
def unlessEmpty (key : String) (members : List (String × Json)) : List (String × Json) :=
  if members.isEmpty then [] else [(key, .object members)]

def projectJson (p : Project) : Json :=
  .object ([("root", .text p.root), ("type", .text p.language)] ++
    unlessEmpty "architect" (architectMembers p.architect) ++
    unlessEmpty "local" (p.localOptions.map fun (key, options) => (key, options.toJson)) ++
    [("metadata", p.metadata.toJson)] ++ p.extra)

def infoJson (i : WorkspaceInfo) : Json := .object (("name", .text i.name) :: i.extra)

def buildJson (b : BuildDefaults) : Json :=
  .object (given "registry" b.registry ++ given "platform" b.platform ++ b.extra)

def environmentJson (e : EnvironmentDefaults) : Json :=
  .object (given "registry" e.registry ++ given "region" e.region ++ given "cluster" e.cluster ++
    given "namespace" e.namespace_ ++ e.extra)

def providerJson (p : ProviderDefaults) : Json :=
  .object (given "cluster" p.cluster ++ given "namespace" p.namespace_ ++
    given "region" p.region ++ given "projectId" p.projectId ++ p.extra)

/-- The document of a workspace, the members it knows in order and then the others. -/
def toJson (w : Workspace) : Json :=
  .object ([("version", .number (.integer Workspace.formatVersion)),
    ("workspace", infoJson w.info),
    ("projects", .object (w.projects.map fun (key, p) => (key, projectJson p))),
    ("build", buildJson w.build),
    ("environments", .object (w.environments.map fun (key, e) => (key, environmentJson e))),
    ("infrastructure", .object (w.infrastructure.map fun (key, p) => (key, providerJson p)))] ++
    w.extra)

/-- The text of a workspace's document. -/
def write (w : Workspace) : String := (toJson w).pretty ++ "\n"

end Rollout.Document

import Rollout.Config.Basic
import Rollout.Config.Warning
import Rollout.FileTree.Disk
import Rollout.Toml.Reader

/-!
# Configuration files

Reading the configuration from TOML. A section is a table or the list of its fields in order;
keys that mean nothing are reported by their paths, in the order of the file. A configuration is
taken from the first usable file of the workspace and of the user.
-/

namespace Rollout.Config

open Toml (Item Entries)

/-- The name under which a date stands where a table is wanted. -/
def momentKey : String := "$__toml_private_datetime"

/-- An item as a table. -/
def entriesOf? : Item → Option Entries
  | .table _ entries => some entries
  | .moment normal => some [(momentKey, .text normal)]
  | _ => none

/-- An item as a list. -/
def itemsOf? : Item → Option (List Item)
  | .array items => some items
  | .tables elements => some (elements.map (.table .header))
  | _ => none

def text? : Item → Option String
  | .text s => some s
  | _ => none

def bool? : Item → Option Bool
  | .bool b => some b
  | _ => none

def isEmptyItem : Item → Bool
  | .array [] => true
  | .table _ [] => true
  | .tables [] => true
  | _ => false

/-- A platform by its id, which may also be the only key of a table, with nothing in it. -/
def platform? : Item → Option Platform
  | .text id => Platform.ofId? id
  | .table _ [(id, item)] => if isEmptyItem item then Platform.ofId? id else none
  | _ => none

/-- The value of an item that may be absent. -/
def valueOr {α : Type} (default : α) (read : Item → Option α) : Option Item → Option α
  | none => some default
  | some item => read item

/-- A section with these fields: how to find each of them, and the keys it does not know. -/
def section? (fields : List String) (item : Item) :
    Option ((String → Option Item) × List String) :=
  match entriesOf? item with
  | some entries => some (fun key => entries.lookup key, (entries.map (·.1)).filter (!fields.contains ·))
  | none => (itemsOf? item).map fun items =>
    (fun key => (fields.zip items).lookup key, [])

/-- A configuration so far, with the paths of the unknown keys. -/
abbrev Found := Config × List String

/-- Takes an entry of the file into the configuration. -/
def take? (found : Found) (entry : String × Item) : Option Found := do
  let (c, unknown) := found
  let (key, item) := entry
  let reported (keys : List String) := unknown ++ keys.map fun inner => key ++ "." ++ inner
  if key = "compile" then
    let (get, keys) ← section? ["platform", "registry"] item
    let platform ← valueOr .host platform? (get "platform")
    let registry ← valueOr none (fun i => (text? i).map some) (get "registry")
    return ({ c with platform, registry }, reported keys)
  else if key = "charts" then
    let entries ← entriesOf? item
    let charts ← entries.mapM fun (language, chart) => (text? chart).map fun s => (language, s)
    return ({ c with charts := Dict.ofEntries charts }, unknown)
  else if key = "workspace" then
    let (get, keys) ← section? ["file"] item
    return ({ c with document := ← valueOr ({} : Config).document text? (get "file") },
      reported keys)
  else if key = "output" then
    let (get, keys) ← section? ["json"] item
    return ({ c with json := ← valueOr false bool? (get "json") }, reported keys)
  else return (c, unknown ++ [key])

def ofEntries? (entries : Entries) : Option Found := entries.foldlM take? ({}, [])

/-- Reads a configuration; the file is named in the warnings. -/
def read? (file : Path) (content : String) : Option (Config × List Warning) := do
  let (c, unknown) ← ofEntries? (← Toml.read? content)
  return (c, unknown.map (Warning.make file content))

/-- Why a configuration file is of no use. -/
inductive LoadError where
  | unreadable
  | invalid (file : Path)
deriving DecidableEq, Repr

def LoadError.message : LoadError → String
  | unreadable => "I/O error"
  | invalid file => "invalid configuration in " ++ file.text

/-- Loads a configuration file. -/
def load (v : View) (file : Path) : Except LoadError (Config × List Warning) :=
  match (Disk.read file).run.run ⟨v, []⟩ with
  | (.error _, _) => .error .unreadable
  | (.ok content, _) =>
    match read? file content with
    | some found => .ok found
    | none => .error (.invalid file)

/-- The configuration file of a workspace, seen from its folder. -/
def fileName : String := "keel.toml"

/-- The configuration file of the user. -/
def userFile? (env : Environment) : Option Path :=
  let folder : Option Path := match (env "XDG_CONFIG_HOME").filter (· ≠ "") with
    | some folder => some ⟨folder⟩
    | none => ((env "HOME").filter (· ≠ "")).map fun home => Path.child ⟨home⟩ ".config"
  folder.map fun folder => (folder.child "keel").child "config.toml"

/-- The configuration of the first usable file, if there is one, with the environment's
overrides. -/
def loadOrDefault (v : View) (env : Environment) (root : Path) : Config × List Warning :=
  let files := root.child fileName :: (userFile? env).toList
  let (c, warnings) := (files.findSome? fun file => (load v file).toOption).getD ({}, [])
  (c.override env, warnings)

end Rollout.Config

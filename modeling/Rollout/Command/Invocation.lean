import Rollout.Command.Switches
import Rollout.Path
import Rollout.Platform

/-!
# Invocations

The commands of the program and their arguments. Switches for every command may stand before
the command's name or after it; where both give a value, the one after the name counts.
-/

namespace Rollout.Command

/-- A command with its arguments. -/
inductive Action where
  | compile (projects : List String) (platform : Option Platform) (registry : Option String)
  | resolve (project environment : String) (registry : Option String)
  | switch (project deployer : String) (configPath : Option String) (answers : List String)
      (yes : Bool)
deriving DecidableEq, Repr

/-- A command line. -/
structure Invocation where
  workspace : Option Path
  json : Bool
  action : Action
deriving DecidableEq, Repr

def commonSwitches : List Switch :=
  [{ name := "workspace", letter := some 'C', arity := .single, accepts := fun v => v ≠ "" },
    { name := "json", arity := .flag },
    { name := "verbose", letter := some 'v', arity := .count },
    { name := "help", letter := some 'h', arity := .stop .help }]

def versionSwitch : Switch := { name := "version", letter := some 'V', arity := .stop .version }

def registrySwitch : Switch := { name := "registry", arity := .single }

def compileSwitches : List Switch :=
  [{ name := "project", letter := some 'p', arity := .many },
    { name := "platform", arity := .single, accepts := fun v => (Platform.ofId? v).isSome },
    registrySwitch]

def resolveSwitches : List Switch :=
  [{ name := "env", letter := some 'e', arity := .single }, registrySwitch]

def switchSwitches : List Switch :=
  [{ name := "config-path", arity := .single }, { name := "set", arity := .many },
    { name := "yes", letter := some 'y', arity := .flag }]

/-- The environment that is resolved unless another one is given. -/
def defaultEnvironment : String := "local"

def compileAction (words : List String) : Except Stop (Words × Action) := do
  let w ← readWords (compileSwitches ++ commonSwitches) false [] 0 words
  return (w, .compile (w.values "project") ((w.value? "platform").bind Platform.ofId?)
    (w.value? "registry"))

def resolveAction (words : List String) : Except Stop (Words × Action) := do
  let w ← readWords (resolveSwitches ++ commonSwitches) false [] 1 words
  match w.operands with
  | [project] =>
    return (w, .resolve project ((w.value? "env").getD defaultEnvironment) (w.value? "registry"))
  | _ => throw .misuse

def switchAction (words : List String) : Except Stop (Words × Action) := do
  let w ← readWords (switchSwitches ++ commonSwitches) false [] 2 words
  match w.operands with
  | [project, deployer] =>
    return (w, .switch project deployer (w.value? "config-path") (w.values "set") (w.has "yes"))
  | _ => throw .misuse

/-- The request for help about the program or about one of its commands. -/
def helpStop : List String → Stop
  | [] => .help
  | [name] => if ["compile", "resolve", "switch", "help"].contains name then .help else .misuse
  | _ => .misuse

def readAction (name : String) (words : List String) : Except Stop (Words × Action) :=
  match name with
  | "compile" => compileAction words
  | "resolve" => resolveAction words
  | "switch" => switchAction words
  | "help" => .error (helpStop words)
  | _ => .error .misuse

/-- Reads a command line. -/
def Invocation.read (words : List String) : Except Stop Invocation := do
  let outer ← readWords (versionSwitch :: commonSwitches) true [] 0 words
  match outer.operands with
  | [] => throw .misuse
  | name :: rest =>
    let (inner, action) ← readAction name rest
    return {
      workspace := ((inner.value? "workspace").or (outer.value? "workspace")).map Path.mk
      json := inner.has "json" || outer.has "json"
      action }

end Rollout.Command

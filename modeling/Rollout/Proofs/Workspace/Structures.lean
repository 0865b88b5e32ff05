import Mathlib.Tactic.Common
import Rollout.Proofs.Workspace.Members

/-!
# The structures of a document

For each structure that takes in the members of other tools: the members that it knows as they
are written, and what was read from an object of which it was read (`Taken`), with the readings
of its own members.
-/

namespace Rollout.Document

open Json (Source)

/-! ### The parts of a written structure -/

theorem keys_given (key : String) (v : Option String) :
    (Dict.keys (given key v)).Sublist [key] := by
  cases v with
  | none => exact List.nil_sublist _
  | some s => exact List.Sublist.refl _

theorem get?_given (key k : String) (v : Option String) :
    Dict.get? key (given k v) = if k = key then v.map .text else none := by
  cases v with
  | none => by_cases hk : k = key <;> simp [given, Dict.get?]
  | some s => rfl

theorem keys_specMember (key toolKey : String) (s : Option Spec) :
    (Dict.keys (specMember key toolKey s)).Sublist [key] := by
  cases s with
  | none => exact List.nil_sublist _
  | some s => exact List.Sublist.refl _

theorem get?_specMember (key k toolKey : String) (s : Option Spec) :
    Dict.get? key (specMember k toolKey s) =
      if k = key then s.map (specJson toolKey) else none := by
  cases s with
  | none => by_cases hk : k = key <;> simp [specMember, Dict.get?]
  | some s => rfl

theorem keys_unlessEmpty (key : String) (ms : List (String × Json)) :
    (Dict.keys (unlessEmpty key ms)).Sublist [key] := by
  cases ms with
  | nil => exact List.nil_sublist _
  | cons m ms => exact List.Sublist.refl _

theorem get?_unlessEmpty (key k : String) (ms : List (String × Json)) :
    Dict.get? key (unlessEmpty k ms) =
      if k = key then (if ms.isEmpty then none else some (.object ms)) else none := by
  cases ms with
  | nil => by_cases hk : k = key <;> simp [unlessEmpty, Dict.get?]
  | cons m ms => rfl

/-- The keys of two parts that follow one another. -/
theorem keys_parts {first second : List (String × Json)} {ks ls : List String}
    (hfirst : (Dict.keys first).Sublist ks) (hsecond : (Dict.keys second).Sublist ls) :
    (Dict.keys (first ++ second)).Sublist (ks ++ ls) := by
  rw [Dict.keys, List.map_append]
  exact hfirst.append hsecond

/-! ### Specs -/

/-- The keys of a spec's fields. -/
def specKeys (toolKey : String) : List String :=
  [toolKey, "options", "configurations", "defaultConfiguration"]

/-- The members of a written spec. -/
def specMembers (toolKey : String) (s : Spec) : List (String × Json) :=
  [(toolKey, .text s.tool), ("options", s.options.toJson),
    ("configurations", configurationsJson s.configurations)] ++
    given "defaultConfiguration" s.defaultConfiguration

theorem specLayout {toolKey : String} (hkey : (specKeys toolKey).Nodup) (s : Spec) :
    Layout (specKeys toolKey) (specMembers toolKey s) [] where
  nodup := hkey
  front := by
    have hfront : (Dict.keys [(toolKey, Json.text s.tool), ("options", s.options.toJson),
        ("configurations", configurationsJson s.configurations)]).Sublist
        [toolKey, "options", "configurations"] := List.Sublist.refl _
    exact keys_parts hfront (keys_given "defaultConfiguration" s.defaultConfiguration)
  sorted := Dict.sorted_nil
  others := nofun

/-- What is written for each field of a spec. -/
theorem get?_specMembers {toolKey : String} (hkey : (specKeys toolKey).Nodup) (s : Spec) :
    Dict.get? toolKey (specMembers toolKey s) = some (.text s.tool) ∧
      Dict.get? "options" (specMembers toolKey s) = some s.options.toJson ∧
      Dict.get? "configurations" (specMembers toolKey s) =
        some (configurationsJson s.configurations) ∧
      Dict.get? "defaultConfiguration" (specMembers toolKey s) =
        s.defaultConfiguration.map .text := by
  have htool : toolKey ≠ "options" ∧ toolKey ≠ "configurations" ∧
      toolKey ≠ "defaultConfiguration" := by
    simpa [specKeys] using hkey
  simp [specMembers, Dict.get?, get?_given, htool]

/-! ### What was read -/

/-- How a structure was read from an object: the room inside and the members there, of which the
others were collected. -/
structure Taken (known : List String) (front : List (String × Json)) (extra : Extra) (room : Nat)
    (source : Source) (inside : Nat) (members : List (String × Source)) : Prop where
  room_eq : room = inside + 1
  members_eq : members? room source = some (inside, members)
  others : extra? inside known members = some extra
  layout : Layout known front extra

/-- The others go with any known members. -/
theorem Layout.front_of_sublist {known : List String} {front front' : List (String × Json)}
    {extra : Extra} (h : Layout known front extra) (hfront : (Dict.keys front').Sublist known) :
    Layout known front' extra :=
  { h with front := hfront }

theorem Taken.of_read {known : List String} {front : List (String × Json)} {extra : Extra}
    {room inside : Nat} {source : Source} {members : List (String × Source)}
    (hmembers : members? room source = some (inside, members))
    (hothers : extra? inside known members = some extra) (hknown : known.Nodup)
    (hfront : (Dict.keys front).Sublist known) :
    Taken known front extra room source inside members :=
  ⟨room_of_members? hmembers, hmembers, hothers, .of_extra? hothers hknown hfront⟩

section

variable {room : Nat} {source : Source}

/-! ### Defaults -/

def infoFront (i : WorkspaceInfo) : List (String × Json) := [("name", .text i.name)]

theorem info_taken {i : WorkspaceInfo} (h : info room source = some i) :
    ∃ inside members, Taken ["name"] (infoFront i) i.extra room source inside members ∧
      field text "" inside members "name" = some i.name := by
  simp only [info, bind, Option.bind_eq_some_iff] at h
  obtain ⟨⟨inside, members⟩, hmembers, name, hname, extra, hothers, hi⟩ := h
  cases hi
  exact ⟨inside, members, .of_read hmembers hothers (by decide) (List.Sublist.refl _), hname⟩

def buildFront (b : BuildDefaults) : List (String × Json) :=
  given "registry" b.registry ++ given "platform" b.platform

theorem build_taken {b : BuildDefaults} (h : build room source = some b) :
    ∃ inside members,
      Taken ["registry", "platform"] (buildFront b) b.extra room source inside members := by
  simp only [build, bind, Option.bind_eq_some_iff] at h
  obtain ⟨⟨inside, members⟩, hmembers, registry, -, platform, -, extra, hothers, hb⟩ := h
  cases hb
  exact ⟨inside, members, .of_read hmembers hothers (by decide)
    (keys_parts (keys_given "registry" registry) (keys_given "platform" platform))⟩

def environmentFront (e : EnvironmentDefaults) : List (String × Json) :=
  given "registry" e.registry ++ given "region" e.region ++ given "cluster" e.cluster ++
    given "namespace" e.namespace_

theorem environment_taken {e : EnvironmentDefaults} (h : environment room source = some e) :
    ∃ inside members, Taken ["registry", "region", "cluster", "namespace"] (environmentFront e)
      e.extra room source inside members := by
  simp only [environment, bind, Option.bind_eq_some_iff] at h
  obtain ⟨⟨inside, members⟩, hmembers, registry, -, region, -, cluster, -, ns, -, extra, hothers,
    he⟩ := h
  cases he
  exact ⟨inside, members, .of_read hmembers hothers (by decide)
    (keys_parts (keys_parts (keys_parts (keys_given "registry" registry)
      (keys_given "region" region)) (keys_given "cluster" cluster)) (keys_given "namespace" ns))⟩

def providerFront (p : ProviderDefaults) : List (String × Json) :=
  given "cluster" p.cluster ++ given "namespace" p.namespace_ ++ given "region" p.region ++
    given "projectId" p.projectId

theorem provider_taken {p : ProviderDefaults} (h : provider room source = some p) :
    ∃ inside members, Taken ["cluster", "namespace", "region", "projectId"] (providerFront p)
      p.extra room source inside members := by
  simp only [provider, bind, Option.bind_eq_some_iff] at h
  obtain ⟨⟨inside, members⟩, hmembers, cluster, -, ns, -, region, -, projectId, -, extra, hothers,
    hp⟩ := h
  cases hp
  exact ⟨inside, members, .of_read hmembers hothers (by decide)
    (keys_parts (keys_parts (keys_parts (keys_given "cluster" cluster)
      (keys_given "namespace" ns)) (keys_given "region" region))
      (keys_given "projectId" projectId))⟩

/-! ### Projects and workspaces -/

def architectFront (a : Architect) : List (String × Json) :=
  specMember "build" "builder" a.build ++ specMember "deploy" "deployer" a.deploy

theorem keys_architectFront (a : Architect) :
    (Dict.keys (architectFront a)).Sublist ["build", "deploy"] :=
  keys_parts (keys_specMember "build" "builder" a.build)
    (keys_specMember "deploy" "deployer" a.deploy)

theorem architect_taken {a : Architect} (h : architect room source = some a) :
    ∃ inside members,
      Taken ["build", "deploy"] (architectFront a) a.extra room source inside members ∧
      field (optional (spec "builder")) none inside members "build" = some a.build ∧
      field (optional (spec "deployer")) none inside members "deploy" = some a.deploy := by
  simp only [architect, bind, Option.bind_eq_some_iff] at h
  obtain ⟨⟨inside, members⟩, hmembers, build, hbuild, deploy, hdeploy, extra, hothers, ha⟩ := h
  cases ha
  exact ⟨inside, members, .of_read hmembers hothers (by decide) (keys_architectFront _), hbuild,
    hdeploy⟩

def projectFront (p : Project) : List (String × Json) :=
  [("root", .text p.root), ("type", .text p.language)] ++
    unlessEmpty "architect" (architectMembers p.architect) ++
    unlessEmpty "local" (p.localOptions.map fun e => (e.1, e.2.toJson)) ++
    [("metadata", p.metadata.toJson)]

theorem keys_projectFront (p : Project) : (Dict.keys (projectFront p)).Sublist
    ["root", "type", "architect", "local", "metadata"] := by
  have hfirst : (Dict.keys [("root", Json.text p.root), ("type", .text p.language)]).Sublist
      ["root", "type"] := List.Sublist.refl _
  have hlast : (Dict.keys [("metadata", p.metadata.toJson)]).Sublist ["metadata"] :=
    List.Sublist.refl _
  exact keys_parts (keys_parts (keys_parts hfirst (keys_unlessEmpty "architect" _))
    (keys_unlessEmpty "local" _)) hlast

theorem get?_architect_front (p : Project) :
    Dict.get? "architect" (projectFront p) =
      if (architectMembers p.architect).isEmpty then none
      else some (.object (architectMembers p.architect)) := by
  simp [projectFront, Dict.get?_append, Dict.get?, get?_unlessEmpty]

theorem project_taken {p : Project} (h : project room source = some p) :
    ∃ inside members, Taken ["root", "type", "architect", "local", "metadata"] (projectFront p)
        p.extra room source inside members ∧
      field text "" inside members "type" = some p.language ∧
      field architect {} inside members "architect" = some p.architect ∧
      field (dict optionMap) [] inside members "local" = some p.localOptions ∧
      field optionMap [] inside members "metadata" = some p.metadata ∧ p.name = "" := by
  simp only [project, bind, Option.bind_eq_some_iff] at h
  obtain ⟨⟨inside, members⟩, hmembers, root, -, language, hlanguage, architect, harchitect,
    localOptions, hlocal, metadata, hmetadata, extra, hothers, hp⟩ := h
  cases hp
  exact ⟨inside, members, .of_read hmembers hothers (by decide) (keys_projectFront _), hlanguage,
    harchitect, hlocal, hmetadata, rfl⟩

def workspaceFront (w : Workspace) : List (String × Json) :=
  [("version", .number (.integer Workspace.formatVersion)),
    ("workspace", infoJson w.info),
    ("projects", .object (w.projects.map fun e => (e.1, projectJson e.2))),
    ("build", buildJson w.build),
    ("environments", .object (w.environments.map fun e => (e.1, environmentJson e.2))),
    ("infrastructure", .object (w.infrastructure.map fun e => (e.1, providerJson e.2)))]

theorem workspace_taken {found : Nat} {w : Workspace}
    (h : workspace room source = some (found, w)) :
    ∃ inside members, Taken knownMembers (workspaceFront w) w.extra room source inside members ∧
      field info {} inside members "workspace" = some w.info ∧
      field (dict project) [] inside members "projects" = some w.projects ∧
      field build {} inside members "build" = some w.build ∧
      field (dict environment) [] inside members "environments" = some w.environments ∧
      field (dict provider) [] inside members "infrastructure" = some w.infrastructure := by
  simp only [workspace, bind, Option.bind_eq_some_iff] at h
  obtain ⟨⟨inside, members⟩, hmembers, found', -, info, hinfo, projects, hprojects, build, hbuild,
    environments, henvironments, infrastructure, hinfrastructure, extra, hothers, hw⟩ := h
  cases hw
  exact ⟨inside, members, .of_read hmembers hothers (by decide) (List.Sublist.refl _), hinfo,
    hprojects, hbuild, henvironments, hinfrastructure⟩

end

/-! ### Documents -/

/-- The names of projects are not written, they are keys. -/
theorem toJson_named (w : Workspace) : toJson w.named = toJson w := by
  simp [toJson, Workspace.named, projectJson, Function.comp_def]

theorem read_eq_ok {file : Path} {content : String} {w : Workspace}
    (h : read file content = .ok w) : ∃ source w', Source.read? content = some source ∧
      workspace Json.nestingLimit source = some (Workspace.formatVersion, w') ∧ w = w'.named := by
  unfold read at h
  split at h
  · cases h
  · rename_i found w' hread
    obtain ⟨source, hsource, hw⟩ := Option.bind_eq_some_iff.1 hread
    split at h
    · rename_i hfound
      cases h
      exact ⟨source, w', hsource, hfound ▸ hw, rfl⟩
    · cases h

theorem read_of_workspace {content : String} {source : Source} {w : Workspace}
    (hsource : Source.read? content = some source)
    (hw : workspace Json.nestingLimit source = some (Workspace.formatVersion, w)) (file : Path) :
    read file content = .ok w.named := by
  rw [read, hsource, Option.bind_some, hw]
  exact if_pos rfl

end Rollout.Document

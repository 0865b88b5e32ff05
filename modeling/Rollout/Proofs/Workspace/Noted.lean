import Mathlib.Tactic.Common
import Rollout.Proofs.Options.Depth
import Rollout.Proofs.Workspace.RoundTrip
import Rollout.Switch.Plan

/-!
# Texts in a document

A text among the notes of a project is there again in whatever is read of the document of its
workspace (`noted_of_read`), and so are the tool of its deploy spec (`deployed_of_read`) and the
texts among the options of its specs (`SpecKept`). Unlike that all of the workspace is read again
this asks nothing of its numbers: a text is read as it is written, whatever stands beside it.
-/

namespace Rollout

/-! ### Entries that are read again -/

namespace OptionValue

open Json (Source)

theorem entry_of_ofMembers? {room : Nat} {o : OptionMap} {entries : List (String × OptionValue)}
    (h : ofMembers? room (Json.toSourceMembers (toJsonMembers o)) = some entries) :
    Dict.keys entries = o.keys ∧
      ∀ key s, o.get? key = some (.text s) → Dict.get? key entries = some (.text s) := by
  induction o generalizing entries with
  | nil =>
    cases h
    exact ⟨rfl, nofun⟩
  | cons e o ih =>
    simp only [toJsonMembers, Json.toSourceMembers, ofMembers?, bind, Option.bind_eq_some_iff] at h
    obtain ⟨k, hk, v, hv, rest, hrest, hentries⟩ := h
    cases hk
    cases hentries
    obtain ⟨hkeys, hget⟩ := ih hrest
    refine ⟨congrArg (e.1 :: ·) hkeys, fun key s hs => ?_⟩
    rw [Dict.get?] at hs ⊢
    split_ifs at hs ⊢
    · rw [Option.some.inj hs] at hv
      exact hv.symm
    · exact hget key s hs

end OptionValue

namespace OptionMap

/-- Options with the keys of others and the texts among them. -/
structure KeepsTexts (o o' : OptionMap) : Prop where
  sorted : o'.Sorted
  keys : o'.keys = o.keys
  texts : ∀ key s, o.get? key = some (.text s) → o'.get? key = some (.text s)

/-- The texts among options are read again with them. -/
theorem keepsTexts_of_ofSource? {room : Nat} {o o' : OptionMap} (hsorted : o.Sorted)
    (h : OptionMap.ofSource? room o.toJson.toSource = some o') : KeepsTexts o o' := by
  rw [OptionMap.ofSource?] at h
  split at h
  · rename_i entries hmap
    cases h
    cases room with
    | zero => cases hmap
    | succ room =>
      obtain ⟨read, hread, heq⟩ := Option.map_eq_some_iff.1 hmap
      obtain rfl := OptionValue.map.inj heq
      obtain ⟨hkeys, hget⟩ := OptionValue.entry_of_ofMembers? hread
      have hread : Dict.Sorted read := by
        rw [Dict.Sorted, hkeys]
        exact hsorted
      rw [Dict.ofEntries_eq_self hread]
      exact ⟨hread, hkeys, hget⟩
  · cases h

end OptionMap

namespace Document

open Json (Source)
open Switch

/-- What is read of a map has its keys, and its entries are read one by one. -/
theorem mapM_of_dict {α : Type} {reader : Reader α} {json : α → Json} {room : Nat} {d d' : Dict α}
    (hsorted : d.Sorted)
    (h : dict reader (room + 1) (Json.object (d.map fun e => (e.1, json e.2))).toSource = some d') :
    d'.keys = d.keys ∧ ((sourced (d.map fun e => (e.1, json e.2))).mapM fun m =>
      (reader room m.2).map fun v => (m.1, v)) = some d' := by
  simp only [dict, members?_toSource, bind, Option.bind_some, Option.bind_eq_some_iff] at h
  obtain ⟨entries, hentries, hd⟩ := h
  cases hd
  have hkeys : Dict.keys entries = d.keys := by
    rw [keys_of_mapM hentries, keys_sourced]
    simp [Dict.keys, Function.comp_def]
  have hentriesSorted : Dict.Sorted entries := by
    rw [Dict.Sorted, hkeys]
    exact hsorted
  rw [Dict.ofEntries_eq_self hentriesSorted]
  exact ⟨hkeys, hentries⟩

/-- Each entry of a map is read again under its key, whatever it is read as. -/
theorem get?_of_dict {α : Type} {reader : Reader α} {json : α → Json} {room : Nat} {d d' : Dict α}
    (hsorted : d.Sorted)
    (h : dict reader (room + 1) (Json.object (d.map fun e => (e.1, json e.2))).toSource = some d')
    {key : String} {a : α} (ha : d.get? key = some a) :
    ∃ a', d'.get? key = some a' ∧ reader room (json a).toSource = some a' := by
  obtain ⟨hkeys, hentries⟩ := mapM_of_dict hsorted h
  have hmember : (key, (json a).toSource) ∈ sourced (d.map fun e => (e.1, json e.2)) :=
    List.mem_map_of_mem (f := fun m : String × Json => (m.1, m.2.toSource))
      (List.mem_map_of_mem (f := fun e : String × α => (e.1, json e.2)) (Dict.mem_of_get? ha))
  obtain ⟨a', hread, hmem⟩ := read_of_mem_members hentries hmember
  refine ⟨a', ?_, hread⟩
  have hsorted' : d'.Sorted := by
    rw [Dict.Sorted, hkeys]
    exact hsorted
  rwa [Dict.get?_eq_some_iff hsorted']

/-! ### Documents as they are laid out -/

/-- A workspace that is written with the members of other tools apart from its own, and so are its
projects. -/
structure LaidOut (w : Workspace) : Prop where
  members : Layout knownMembers (workspaceFront w) w.extra
  sorted : w.projects.Sorted
  projects : ∀ e ∈ w.projects, Layout ["root", "type", "architect", "local", "metadata"]
    (projectFront e.2) e.2.extra
  architects : ∀ e ∈ w.projects,
    Layout ["build", "deploy"] (architectFront e.2.architect) e.2.architect.extra
  notes : ∀ e ∈ w.projects, e.2.metadata.Sorted
  info : Layout ["name"] (infoFront w.info) w.info.extra
  builds : ∀ e ∈ w.projects, ∀ s, e.2.build = some s → s.configurations.Sorted

theorem sorted_metadata {room : Nat} {members : List (String × Source)} {o : OptionMap}
    (h : field optionMap [] (room + 1) members "metadata" = some o) : o.Sorted := by
  rcases field_eq_some h with rfl | ⟨source, hsource⟩
  · exact Dict.sorted_nil
  · exact (OptionMap.ofSource?_eq_some hsource).1

theorem layout_architect {room : Nat} {members : List (String × Source)} {a : Architect}
    (h : field architect {} room members "architect" = some a) :
    Layout ["build", "deploy"] (architectFront a) a.extra := by
  rcases field_eq_some h with rfl | ⟨source, hsource⟩
  · exact ⟨by decide, keys_architectFront _, Dict.sorted_nil, nofun⟩
  · obtain ⟨_, _, ht, -⟩ := architect_taken hsource
    exact ht.layout

theorem layout_info {room : Nat} {members : List (String × Source)} {i : WorkspaceInfo}
    (h : field info {} room members "workspace" = some i) :
    Layout ["name"] (infoFront i) i.extra := by
  rcases field_eq_some h with rfl | ⟨source, hsource⟩
  · exact ⟨by decide, List.Sublist.refl _, Dict.sorted_nil, nofun⟩
  · obtain ⟨_, _, ht, -⟩ := info_taken hsource
    exact ht.layout

theorem sorted_build {room : Nat} {members : List (String × Source)} {a : Architect}
    (h : field architect {} (room + 3) members "architect" = some a) {s : Spec}
    (hs : a.build = some s) : s.configurations.Sorted := by
  rcases field_eq_some h with rfl | ⟨source, hsource⟩
  · cases hs
  obtain ⟨inside, members, ht, hbuild, -⟩ := architect_taken hsource
  obtain rfl : room + 2 = inside := Nat.succ.inj ht.room_eq
  rw [hs] at hbuild
  rcases field_eq_some hbuild with hnone | ⟨source, hsource⟩
  · cases hnone
  rcases (specRead_of_spec (optional_eq_some hsource)).configurations with hnil | ⟨_, hdict⟩
  · rw [hnil]
    exact Dict.sorted_nil
  · exact (dict_eq_some hdict).1

theorem laidOut_of_workspace (room : Nat) {found : Nat} {source : Source} {w : Workspace}
    (h : workspace (room + 6) source = some (found, w)) : LaidOut w := by
  obtain ⟨inside, members, ht, hinfo, hprojects, -⟩ := workspace_taken h
  obtain rfl : room + 5 = inside := Nat.succ.inj ht.room_eq
  have hentries : ∀ e ∈ w.projects, ∃ source, project (room + 4) source = some e.2 := by
    rcases field_eq_some hprojects with hdefault | ⟨source, hsource⟩
    · rw [hdefault]
      nofun
    · exact (dict_eq_some hsource).2
  refine ⟨ht.layout, sorted_of_field hprojects, fun e he => ?_, fun e he => ?_, fun e he => ?_,
    layout_info hinfo, fun e he s hs => ?_⟩
  · obtain ⟨source, hsource⟩ := hentries e he
    obtain ⟨_, _, hp, -⟩ := project_taken hsource
    exact hp.layout
  · obtain ⟨source, hsource⟩ := hentries e he
    obtain ⟨_, _, -, -, harchitect, -⟩ := project_taken hsource
    exact layout_architect harchitect
  · obtain ⟨source, hsource⟩ := hentries e he
    obtain ⟨inside, members, hp, -, -, -, hmetadata, -⟩ := project_taken hsource
    obtain rfl : room + 3 = inside := Nat.succ.inj hp.room_eq
    exact sorted_metadata hmetadata
  · obtain ⟨source, hsource⟩ := hentries e he
    obtain ⟨inside, members, hp, -, harchitect, -⟩ := project_taken hsource
    obtain rfl : room + 3 = inside := Nat.succ.inj hp.room_eq
    exact sorted_build harchitect hs

/-- The names of the projects are not laid out. -/
theorem LaidOut.named {w : Workspace} (h : LaidOut w) : LaidOut w.named := by
  refine ⟨h.members.front_of_sublist (List.Sublist.refl _), ?_, fun e he => ?_, fun e he => ?_,
    fun e he => ?_, h.info, fun e he => ?_⟩
  · rw [Dict.Sorted, w.keys_named]
    exact h.sorted
  · obtain ⟨entry, hentry, rfl⟩ := List.mem_map.1 he
    exact h.projects entry hentry
  · obtain ⟨entry, hentry, rfl⟩ := List.mem_map.1 he
    exact h.architects entry hentry
  · obtain ⟨entry, hentry, rfl⟩ := List.mem_map.1 he
    exact h.notes entry hentry
  · obtain ⟨entry, hentry, rfl⟩ := List.mem_map.1 he
    exact h.builds entry hentry

theorem laidOut_of_read {file : Path} {content : String} {w : Workspace}
    (h : read file content = .ok w) : LaidOut w := by
  obtain ⟨source, w, -, hw, rfl⟩ := read_eq_ok h
  exact (laidOut_of_workspace 121 hw).named

theorem LaidOut.switched {w w' : Workspace} {name : String} {d : Deployer} {s : Spec}
    (h : LaidOut w) (hswitched : switchedWorkspace w name d s = .ok w') : LaidOut w' := by
  obtain ⟨p, hp⟩ : ∃ p, w.project name = .ok p := by
    cases hp : w.project name with
    | ok p => exact ⟨p, rfl⟩
    | error e =>
      rw [switchedWorkspace, Workspace.update, hp] at hswitched
      cases hswitched
  obtain rfl := Except.ok.inj ((Workspace.update_eq_ok hp).symm.trans hswitched)
  have hmem := Dict.mem_of_get? (Workspace.project_eq_ok.1 hp)
  refine ⟨h.members.front_of_sublist (List.Sublist.refl _), Dict.sorted_insert h.sorted _ _,
    fun e he => ?_, fun e he => ?_, fun e he => ?_, h.info, fun e he => ?_⟩
  · rcases Dict.mem_of_mem_insert he with rfl | he
    · exact (h.projects _ hmem).front_of_sublist (keys_projectFront _)
    · exact h.projects e he
  · rcases Dict.mem_of_mem_insert he with rfl | he
    · exact (h.architects _ hmem).front_of_sublist (keys_architectFront _)
    · exact h.architects e he
  · rcases Dict.mem_of_mem_insert he with rfl | he
    · exact Dict.sorted_insert (h.notes _ hmem) _ _
    · exact h.notes e he
  · rcases Dict.mem_of_mem_insert he with rfl | he
    · exact h.builds (name, p) hmem
    · exact h.builds e he

/-- What is written for a structure is what is read where it is read. -/
theorem Taken.members_written {known : List String} {front front' : List (String × Json)}
    {extra extra' : Extra} {room inside : Nat} {members : List (String × Source)}
    (h : Taken known front extra room (Json.object (front' ++ extra')).toSource inside members) :
    members = sourced (front' ++ extra') := by
  have hmembers := h.members_eq
  rw [h.room_eq, members?_toSource] at hmembers
  exact (congrArg Prod.snd (Option.some.inj hmembers)).symm

theorem noted_of_project {room : Nat} {p p' : Project} {note s : String}
    (hlayout : Layout ["root", "type", "architect", "local", "metadata"] (projectFront p) p.extra)
    (hsorted : p.metadata.Sorted) (h : project room (projectJson p).toSource = some p')
    (hs : p.metadata.get? note = some (.text s)) : p'.metadata.get? note = some (.text s) := by
  obtain ⟨inside, members, ht, -, -, -, hmetadata, -⟩ := project_taken h
  have hfront : Dict.get? "metadata" (projectFront p) = some p.metadata.toJson := by
    simp [projectFront, Dict.get?_append, Dict.get?, get?_unlessEmpty]
  have hmembers : members = sourced (projectFront p ++ p.extra) := ht.members_written
  rw [hmembers, hlayout.field_found (by simp) hfront] at hmetadata
  exact (OptionMap.keepsTexts_of_ofSource? hsorted hmetadata).texts _ _ hs

/-- A spec that has the tool of another one, the texts among its options and its configurations
with the texts in them. -/
structure SpecKept (s s' : Spec) : Prop where
  tool : s'.tool = s.tool
  options : s.options.Sorted → s.options.KeepsTexts s'.options
  keys : s.configurations.Sorted → s'.configurations.keys = s.configurations.keys
  configurations : s.configurations.Sorted → ∀ key o, s.configurations.get? key = some o →
    o.Sorted → ∃ o', s'.configurations.get? key = some o' ∧ o.KeepsTexts o'

/-- Whatever a spec is read as, it is kept. -/
theorem kept_of_spec {toolKey : String} (hkey : (specKeys toolKey).Nodup) {room : Nat}
    {s s' : Spec} (h : spec toolKey room (specJson toolKey s).toSource = some s') :
    SpecKept s s' := by
  have hlayout := specLayout hkey s
  obtain ⟨hget, hgetOptions, hgetConfigurations, -⟩ := get?_specMembers hkey s
  have hjson : specJson toolKey s = .object (specMembers toolKey s ++ []) := by
    rw [List.append_nil]
    rfl
  rw [hjson] at h
  unfold spec at h
  split at h
  · rename_i hlist
    cases hlist
  · simp only [bind, Option.bind_eq_some_iff] at h
    obtain ⟨⟨inside, members⟩, hmembers, tool, htool, options, hoptions, configurations,
      hconfigurations, _, _, hs⟩ := h
    cases hs
    obtain rfl := room_of_members? hmembers
    obtain rfl : sourced (specMembers toolKey s ++ []) = members := by
      simpa [members?_toSource] using hmembers
    rw [hlayout.required_eq (by simp [specKeys]) hget] at htool
    rw [hlayout.field_found (by simp [specKeys]) hgetOptions] at hoptions
    rw [hlayout.field_found (by simp [specKeys]) hgetConfigurations] at hconfigurations
    obtain ⟨room, rfl⟩ : ∃ room, inside = room + 1 := by
      cases inside with
      | zero => cases hconfigurations
      | succ room => exact ⟨room, rfl⟩
    refine ⟨(Option.some.inj htool).symm, fun hsorted =>
      OptionMap.keepsTexts_of_ofSource? hsorted hoptions,
      fun hsorted => (mapM_of_dict hsorted hconfigurations).1, fun hsorted key o ho hsorted' => ?_⟩
    obtain ⟨o', ho', hread⟩ := get?_of_dict hsorted hconfigurations ho
    exact ⟨o', ho', OptionMap.keepsTexts_of_ofSource? hsorted' hread⟩

section Project

variable {room : Nat} {p p' : Project}
  (hlayout : Layout ["root", "type", "architect", "local", "metadata"] (projectFront p) p.extra)
  (h : project room (projectJson p).toSource = some p')
include hlayout h

theorem root_of_project : p'.root = p.root := by
  have hjson : (projectJson p).toSource = (Json.object (projectFront p ++ p.extra)).toSource := rfl
  simp only [project, hjson, bind, Option.bind_eq_some_iff] at h
  obtain ⟨⟨inside, members⟩, hmembers, root, hroot, _, _, _, _, _, _, _, _, _, _, hp⟩ := h
  cases hp
  obtain rfl := room_of_members? hmembers
  obtain rfl : sourced (projectFront p ++ p.extra) = members := by
    simpa [members?_toSource] using hmembers
  rw [hlayout.required_eq (by simp) rfl] at hroot
  exact (Option.some.inj hroot).symm

/-- A project with a spec is read with what its architect is read as. -/
theorem architect_of_project (hne : p.architect ≠ {}) :
    ∃ inside, field (optional (spec "builder")) none inside
        (sourced (architectFront p.architect ++ p.architect.extra)) "build" =
          some p'.architect.build ∧
      field (optional (spec "deployer")) none inside
        (sourced (architectFront p.architect ++ p.architect.extra)) "deploy" =
          some p'.architect.deploy := by
  obtain ⟨inside, members, ht, -, hread, -⟩ := project_taken h
  have hsome : architectMembers p.architect ≠ [] := fun hnil => hne (architectMembers_eq_nil.1 hnil)
  have hfront : Dict.get? "architect" (projectFront p) =
      some (.object (architectMembers p.architect)) := by
    simp [projectFront, Dict.get?_append, Dict.get?, get?_unlessEmpty, hsome]
  have hmembers : members = sourced (projectFront p ++ p.extra) := ht.members_written
  rw [hmembers, hlayout.field_found (by simp) hfront] at hread
  obtain ⟨inside, members, ht, hbuild, hdeploy⟩ := architect_taken hread
  have hmembers : members = sourced (architectFront p.architect ++ p.architect.extra) :=
    ht.members_written
  rw [hmembers] at hbuild hdeploy
  exact ⟨inside, hbuild, hdeploy⟩

variable (harchitect : Layout ["build", "deploy"] (architectFront p.architect) p.architect.extra)
include harchitect

theorem deployed_of_project {s : Spec} (hs : p.deploy = some s) :
    ∃ s', p'.deploy = some s' ∧ SpecKept s s' := by
  have hne : p.architect ≠ {} := fun hempty => by
    rw [Project.deploy, hempty] at hs
    cases hs
  obtain ⟨inside, -, hdeploy⟩ := architect_of_project hlayout h hne
  have hget : Dict.get? "deploy" (architectFront p.architect) =
      p.deploy.map (specJson "deployer") := by
    simp [architectFront, Dict.get?_append, get?_specMember, Project.deploy]
  have hobject (s : Spec) : (specJson "deployer" s).toSource ≠ .null := fun h => by cases h
  rw [harchitect.field_optional_eq (by simp) hobject hget, hs] at hdeploy
  obtain ⟨s', hspec, heq⟩ := Option.map_eq_some_iff.1 hdeploy
  exact ⟨s', heq.symm, kept_of_spec (by decide) hspec⟩

/-- The configuration keys that a project builds are read again. -/
theorem buildKeys_of_project (hne : p.architect ≠ {})
    (hsorted : ∀ s, p.build = some s → s.configurations.Sorted) : p'.buildKeys = p.buildKeys := by
  obtain ⟨inside, hbuild, -⟩ := architect_of_project hlayout h hne
  have hget : Dict.get? "build" (architectFront p.architect) =
      p.build.map (specJson "builder") := by
    simp [architectFront, Dict.get?_append, get?_specMember, Project.build]
  have hobject (s : Spec) : (specJson "builder" s).toSource ≠ .null := fun h => by cases h
  rw [harchitect.field_optional_eq (by simp) hobject hget] at hbuild
  cases hs : p.build with
  | none =>
    rw [hs] at hbuild
    have hnone : p'.build = none := (Option.some.inj hbuild).symm
    rw [Project.buildKeys, Project.buildKeys, hnone, hs]
  | some s =>
    rw [hs] at hbuild
    obtain ⟨s', hspec, heq⟩ := Option.map_eq_some_iff.1 hbuild
    have hsome : p'.build = some s' := heq.symm
    rw [Project.buildKeys, Project.buildKeys, hsome, hs]
    exact (kept_of_spec (by decide) hspec).keys (hsorted s hs)

end Project

/-- What is read of the document of a workspace has its name. -/
theorem name_of_read {document : Path} {w w' : Workspace} (hw : LaidOut w)
    (h : read document (write w) = .ok w') : w'.name = w.name := by
  obtain ⟨source, w₀, hsource, hread, rfl⟩ := read_eq_ok h
  obtain rfl : (toJson w).toSource = source :=
    Option.some.inj ((Json.read?_pretty _).symm.trans hsource)
  obtain ⟨inside, members, ht, hinfo, -⟩ := workspace_taken hread
  have hmembers : members = sourced (workspaceFront w ++ w.extra) := ht.members_written
  rw [hmembers, hw.members.field_found (by decide) rfl] at hinfo
  obtain ⟨inside, members, ht, hname⟩ := info_taken hinfo
  have hmembers : members = sourced (infoFront w.info ++ w.info.extra) := ht.members_written
  rw [hmembers, hw.info.field_found (by simp) rfl] at hname
  have hname : w₀.info.name = w.info.name := (Option.some.inj hname).symm
  rw [Workspace.name, Workspace.name, ← hname]
  rfl

/-- What is read of the document of a workspace has its projects, as they are read. -/
theorem project_of_read {document : Path} {w w' : Workspace} (hw : LaidOut w)
    (h : read document (write w) = .ok w') {name : String} {p : Project}
    (hp : w.projects.get? name = some p) :
    ∃ p', w'.projects.get? name = some { p' with name } ∧
      project 125 (projectJson p).toSource = some p' := by
  obtain ⟨source, w₀, hsource, hread, rfl⟩ := read_eq_ok h
  obtain rfl : (toJson w).toSource = source :=
    Option.some.inj ((Json.read?_pretty _).symm.trans hsource)
  obtain ⟨inside, members, ht, -, hprojects, -⟩ := workspace_taken hread
  obtain rfl : 126 = inside := Nat.succ.inj ht.room_eq
  have hmembers : members = sourced (workspaceFront w ++ w.extra) := ht.members_written
  rw [hmembers, hw.members.field_found (by decide) rfl] at hprojects
  obtain ⟨p', hp', hproject⟩ := get?_of_dict hw.sorted hprojects hp
  refine ⟨p', ?_, hproject⟩
  rw [Workspace.get?_named, hp']
  rfl

section Read

variable {document : Path} {w w' : Workspace} (hw : LaidOut w)
  (h : read document (write w) = .ok w') {name : String} {p : Project}
  (hp : w.projects.get? name = some p)
include hw h hp

/-- What is read of the document of a workspace has the texts among its notes. -/
theorem noted_of_read {note s : String} (hs : p.metadata.get? note = some (.text s)) :
    ∃ p', w'.projects.get? name = some p' ∧ p'.metadata.get? note = some (.text s) := by
  obtain ⟨p', hp', hproject⟩ := project_of_read hw h hp
  have hmem := Dict.mem_of_get? hp
  have hnoted := noted_of_project (hw.projects _ hmem) (hw.notes _ hmem) hproject hs
  exact ⟨_, hp', hnoted⟩

/-- A project that is deployed is read with its root, the keys that it builds and its spec. -/
theorem kept_of_read {s : Spec} (hs : p.deploy = some s) :
    ∃ p' s', w'.projects.get? name = some p' ∧ p'.root = p.root ∧ p'.buildKeys = p.buildKeys ∧
      p'.deploy = some s' ∧ SpecKept s s' := by
  obtain ⟨p', hp', hproject⟩ := project_of_read hw h hp
  have hmem := Dict.mem_of_get? hp
  have hlayout := hw.projects _ hmem
  have harchitect := hw.architects _ hmem
  obtain ⟨s', hdeploy, hkept⟩ := deployed_of_project hlayout hproject harchitect hs
  have hne : p.architect ≠ {} := fun hempty => by
    rw [Project.deploy, hempty] at hs
    cases hs
  have hroot := root_of_project hlayout hproject
  have hkeys := buildKeys_of_project hlayout hproject harchitect hne (hw.builds _ hmem)
  exact ⟨_, s', hp', hroot, hkeys, hdeploy, hkept⟩

/-- It names the tools that the projects are deployed with. -/
theorem deployed_of_read {s : Spec} (hs : p.deploy = some s) :
    ∃ p' s', w'.projects.get? name = some p' ∧ p'.deploy = some s' ∧ s'.tool = s.tool := by
  obtain ⟨p', s', hp', -, -, hdeploy, hkept⟩ := kept_of_read hw h hp hs
  exact ⟨p', s', hp', hdeploy, hkept.tool⟩

end Read

end Document
end Rollout

import Mathlib.Tactic.Common
import Rollout.Proofs.Options.Depth
import Rollout.Proofs.Workspace.RoundTrip

/-!
# Documents with another deploy spec

The options of a deploy spec stand six levels down in a document. The document of a workspace in
which one project was given another deploy spec is read as that workspace exactly if no option is
nested deeper than the levels that are left for it (`read_write_switched`).
-/

namespace Rollout.Document

open Json (Source)
open Switch

/-- The levels that are left for the value of an option of a deploy spec. -/
def optionRoom : Nat := 121

/-- Around the value are the document, its projects, the project, its architect, the spec and its
options. -/
theorem optionRoom_add_six : optionRoom + 6 = Json.nestingLimit := rfl

/-- The options of a spec fit where there are enough levels for each of them. -/
def Fits (s : Spec) : Prop := ∀ e ∈ s.options, e.2.depth ≤ optionRoom

instance (s : Spec) : Decidable (Fits s) :=
  inferInstanceAs (Decidable (∀ e ∈ s.options, e.2.depth ≤ optionRoom))

/-- A spec with options that some text stands for, and with one text in each configuration. -/
structure Readable (s : Spec) : Prop where
  sorted : s.options.Sorted
  options : ∀ e ∈ s.options, e.2.Readable
  sortedConfigurations : s.configurations.Sorted
  configurations : ∀ e ∈ s.configurations, ∃ key value, e.2 = [(key, .text value)]

/-! ### Specs -/

variable {s : Spec}

theorem optionMap_toJson (hs : Readable s) (hf : s.options.toJson.Faithful) :
    optionMap (optionRoom + 1) s.options.toJson.toSource =
      if Fits s then some s.options else none := by
  split_ifs with hfits
  · exact OptionMap.ofSource?_toJson_of_room hs.sorted hs.options hf hfits
  · cases hread : optionMap (optionRoom + 1) s.options.toJson.toSource with
    | none => rfl
    | some o => exact absurd (OptionMap.depth_le_of_ofSource? hread) hfits

theorem configurations_toJson (hs : Readable s) :
    dict optionMap (optionRoom + 1) (configurationsJson s.configurations).toSource =
      some s.configurations := by
  refine dict_toJson hs.sortedConfigurations fun e he => ?_
  obtain ⟨key, value, heq⟩ := hs.configurations e he
  rw [heq]
  rfl

theorem deploy_toJson (hs : Readable s) (hf : s.options.toJson.Faithful) :
    spec "deployer" (optionRoom + 2) (specJson "deployer" s).toSource =
      if Fits s then some s else none := by
  rw [spec_toJson (by decide) (configurations_toJson hs), optionMap_toJson hs hf]
  split_ifs <;> rfl

/-! ### Projects -/

variable {p : Project} {members : List (String × Source)}

theorem redeployed_architect_toJson
    (h : field architect {} (optionRoom + 3) members "architect" = some p.architect)
    (hs : Readable s)
    (hf : (Json.object (architectMembers { p.architect with deploy := some s })).Faithful) :
    architect (optionRoom + 3)
        (Json.object (architectMembers { p.architect with deploy := some s })).toSource =
      if Fits s then some { p.architect with deploy := some s } else none := by
  obtain ⟨source, hsource⟩ : ∃ source, architect (optionRoom + 3) source = some p.architect := by
    rcases field_eq_some h with hdefault | hread
    · exact ⟨.object [], hdefault ▸ rfl⟩
    · exact hread
  have hspec : (specJson "deployer" s).Faithful :=
    hf.member ("deploy", specJson "deployer" s) (by simp [architectMembers, specMember])
  have hoptions : s.options.toJson.Faithful :=
    hspec.member ("options", s.options.toJson) (.tail _ (.head _))
  have hread : (some s).mapM (fun s => spec "deployer" (optionRoom + 2)
      (specJson "deployer" s).toSource) = (spec "deployer" (optionRoom + 2)
      (specJson "deployer" s).toSource).map some := rfl
  rw [architect_toJson optionRoom hsource (some s) hf, hread, deploy_toJson hs hoptions]
  split_ifs <;> rfl

/-- Metadata that were read are read again with a text among them. -/
theorem noted_metadata_toJson {key value : String}
    (h : field optionMap [] (optionRoom + 3) members "metadata" = some p.metadata)
    (hf : (OptionMap.toJson (p.metadata.insert key (.text value))).Faithful) :
    optionMap (optionRoom + 3) (OptionMap.toJson (p.metadata.insert key (.text value))).toSource =
      some (p.metadata.insert key (.text value)) := by
  obtain ⟨hsorted, hentries⟩ : p.metadata.Sorted ∧
      ∀ e ∈ p.metadata, ∃ source, OptionValue.ofSource? (optionRoom + 2) source = some e.2 := by
    rcases field_eq_some h with hdefault | ⟨source, hsource⟩
    · rw [hdefault]
      exact ⟨Dict.sorted_nil, nofun⟩
    · exact OptionMap.ofSource?_eq_some hsource
  refine OptionMap.ofSource?_toJson_of_room (Dict.sorted_insert hsorted _ _) ?_ hf ?_
  · intro e he
    rcases Dict.mem_of_mem_insert he with rfl | he
    · exact OptionValue.readable_text value
    · exact ⟨_, hentries e he⟩
  · intro e he
    have hfaithful := OptionValue.faithful_member hf e he
    rcases Dict.mem_of_mem_insert he with rfl | he
    · exact Nat.zero_le _
    · obtain ⟨source, hsource⟩ := hentries e he
      exact OptionValue.depth_le_of_ofSource? (OptionValue.ofSource?_toJson hsource hfaithful)

theorem switchedProject_toJson {source : Source} (h : project (optionRoom + 4) source = some p)
    (d : Deployer) (hs : Readable s) (hf : (projectJson (switchedProject p d s)).Faithful) :
    project (optionRoom + 4) (projectJson (switchedProject p d s)).toSource =
      if Fits s then some (switchedProject p d s) else none := by
  obtain ⟨inside, members, ht, -, harchitect, -, hmetadata, -⟩ := project_taken h
  obtain rfl : optionRoom + 3 = inside := Nat.succ.inj ht.room_eq
  have hmember : ∀ m ∈ projectFront (switchedProject p d s), m.2.Faithful := fun m hm =>
    hf.member m (List.mem_append_left p.extra hm)
  have hmetadata := noted_metadata_toJson hmetadata
    (hmember ("metadata", (switchedProject p d s).metadata.toJson) (by simp [projectFront]))
  have hsome : (architectMembers (switchedProject p d s).architect).isEmpty = false := by
    simp [switchedProject, withDeploy, architectMembers, specMember]
  have harchitect := redeployed_architect_toJson harchitect hs
    (hmember ("architect", _) (Dict.mem_of_get? ((get?_architect_front _).trans
      (if_neg (by simp [hsome])))))
  refine (project_toJson h (switchedProject p d s).architect hmetadata hf).trans ?_
  rw [if_neg (by simp [hsome])]
  refine (congrArg (Option.map _) harchitect).trans ?_
  split_ifs <;> rfl

/-! ### Workspaces -/

theorem insert_projects_toJson {source : Source} {found : Nat} {w : Workspace} {key : String}
    (h : workspace Json.nestingLimit source = some (found, w))
    (hp : w.projects.get? key = some p) (d : Deployer) (hs : Readable s)
    (hf : (toJson { w with projects := w.projects.insert key (switchedProject p d s) }).Faithful) :
    workspace Json.nestingLimit
        (toJson { w with projects := w.projects.insert key (switchedProject p d s) }).toSource =
      if Fits s then some (Workspace.formatVersion,
        { w with projects := w.projects.insert key (switchedProject p d s) }) else none := by
  obtain ⟨inside, members, ht, -, hprojects, -⟩ := workspace_taken h
  obtain rfl : optionRoom + 5 = inside := Nat.succ.inj ht.room_eq
  obtain ⟨hsorted, hentries⟩ : w.projects.Sorted ∧
      ∀ e ∈ w.projects, ∃ source, project (optionRoom + 4) source = some e.2 := by
    rcases field_eq_some hprojects with hdefault | ⟨source, hsource⟩
    · rw [hdefault]
      exact ⟨Dict.sorted_nil, nofun⟩
    · exact dict_eq_some hsource
  have hmember : ∀ e ∈ w.projects.insert key (switchedProject p d s),
      (projectJson e.2).Faithful := fun e he =>
    (hf.member ("projects", _) (.tail _ (.tail _ (.head _)))).member _
      (List.mem_map_of_mem (f := fun e => (e.1, projectJson e.2)) he)
  have hsorted := Dict.sorted_insert hsorted key (switchedProject p d s)
  have hthere : (key, switchedProject p d s) ∈ w.projects.insert key (switchedProject p d s) :=
    Dict.mem_of_get? (by rw [Dict.get?_insert, if_pos rfl])
  obtain ⟨psource, hpsource⟩ := hentries _ (Dict.mem_of_get? hp)
  have hproject := switchedProject_toJson hpsource d hs
    (hmember (key, switchedProject p d s) hthere)
  have hdict : dict project (optionRoom + 5) (Json.object
      ((w.projects.insert key (switchedProject p d s)).map
        fun e => (e.1, projectJson e.2))).toSource =
      if Fits s then some (w.projects.insert key (switchedProject p d s)) else none := by
    split_ifs at hproject ⊢ with hfits
    · refine dict_toJson hsorted fun e he => ?_
      rcases Dict.mem_of_mem_insert he with rfl | hold
      · exact hproject
      · obtain ⟨source, hsource⟩ := hentries e hold
        exact rereads_project optionRoom hsource (hmember e he)
    · exact dict_toJson_eq_none hthere hproject
  refine (workspace_toJson optionRoom h _ hf).trans ?_
  rw [hdict]
  split_ifs <;> rfl

/-- The document of a workspace that was read, with another deploy spec for one project, is read
as that workspace where the options of the spec fit, and it is no document any more where they do
not. -/
theorem read_write_switched {file : Path} {content : String} {w w' : Workspace} {name : String}
    {d : Deployer} (h : read file content = .ok w)
    (hswitched : switchedWorkspace w name d s = .ok w') (hs : Readable s)
    (hf : (toJson w').Faithful) (document : Path) :
    read document (write w') =
      if Fits s then .ok w' else .error (.invalidDocument document) := by
  obtain ⟨source, w₀, -, hw, rfl⟩ := read_eq_ok h
  obtain ⟨p, hp⟩ : ∃ p, w₀.named.project name = .ok p := by
    cases hp : w₀.named.project name with
    | ok p => exact ⟨p, rfl⟩
    | error e =>
      rw [switchedWorkspace, Workspace.update, hp] at hswitched
      cases hswitched
  have hinsert := Except.ok.inj (hswitched.symm.trans (Workspace.update_eq_ok hp))
  rw [Workspace.project_eq_ok, Workspace.get?_named] at hp
  obtain ⟨p₀, hp₀, rfl⟩ := Option.map_eq_some_iff.1 hp
  have hnamed := (Workspace.named_insert w₀ name (switchedProject p₀ d s)).trans hinsert.symm
  rw [← hnamed, toJson_named] at hf
  have hback := insert_projects_toJson hw hp₀ d hs hf
  rw [← hnamed, write, toJson_named]
  split_ifs at hback ⊢
  · exact read_of_workspace (Json.read?_pretty _) hback document
  · rw [read, Json.read?_pretty, Option.bind_some, hback]

end Rollout.Document

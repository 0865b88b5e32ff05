import Mathlib.Tactic.Common
import Rollout.Proofs.Output.Files
import Rollout.Proofs.Workspace.Named
import Rollout.Proofs.Workspace.Structures

/-!
# Loading what was saved

The document that is written for a workspace that was read is read as the same workspace
(`read_write`), provided that its floating point numbers are read back as they are printed.
-/

namespace Rollout.Document

open Json (Source)

/-! ### Defaults -/

theorem rereads_info (room : Nat) : Rereads info infoJson room := by
  intro source i h hf
  obtain ⟨inside, members, ht, hname⟩ := info_taken h
  obtain rfl := ht.room_eq
  have hname := ht.layout.field_always hf (by simp) (rereads_text inside) rfl hname rfl
  have hothers := ht.layout.extra?_again hf ht.others
  change info (inside + 1) (Json.object (infoFront i ++ i.extra)).toSource = _
  simp only [info, members?_toSource, bind, Option.bind_some, hname, hothers]
  rfl

theorem rereads_build (room : Nat) : Rereads build buildJson room := by
  intro source b h hf
  obtain ⟨inside, members, ht⟩ := build_taken h
  obtain rfl := ht.room_eq
  have hregistry := ht.layout.field_given inside "registry" b.registry
    (by simp) (by simp [buildFront, Dict.get?_append, get?_given])
  have hplatform := ht.layout.field_given inside "platform" b.platform
    (by simp) (by simp [buildFront, Dict.get?_append, get?_given])
  have hothers := ht.layout.extra?_again hf ht.others
  change build (inside + 1) (Json.object (buildFront b ++ b.extra)).toSource = _
  simp only [build, members?_toSource, bind, Option.bind_some, hregistry, hplatform, hothers]
  rfl

theorem rereads_environment (room : Nat) : Rereads environment environmentJson room := by
  intro source e h hf
  obtain ⟨inside, members, ht⟩ := environment_taken h
  obtain rfl := ht.room_eq
  have hregistry := ht.layout.field_given inside "registry" e.registry
    (by simp) (by simp [environmentFront, Dict.get?_append, get?_given])
  have hregion := ht.layout.field_given inside "region" e.region
    (by simp) (by simp [environmentFront, Dict.get?_append, get?_given])
  have hcluster := ht.layout.field_given inside "cluster" e.cluster
    (by simp) (by simp [environmentFront, Dict.get?_append, get?_given])
  have hns := ht.layout.field_given inside "namespace" e.namespace_
    (by simp) (by simp [environmentFront, Dict.get?_append, get?_given])
  have hothers := ht.layout.extra?_again hf ht.others
  change environment (inside + 1) (Json.object (environmentFront e ++ e.extra)).toSource = _
  simp only [environment, members?_toSource, bind, Option.bind_some, hregistry, hregion, hcluster,
    hns, hothers]
  rfl

theorem rereads_provider (room : Nat) : Rereads provider providerJson room := by
  intro source p h hf
  obtain ⟨inside, members, ht⟩ := provider_taken h
  obtain rfl := ht.room_eq
  have hcluster := ht.layout.field_given inside "cluster" p.cluster
    (by simp) (by simp [providerFront, Dict.get?_append, get?_given])
  have hns := ht.layout.field_given inside "namespace" p.namespace_
    (by simp) (by simp [providerFront, Dict.get?_append, get?_given])
  have hregion := ht.layout.field_given inside "region" p.region
    (by simp) (by simp [providerFront, Dict.get?_append, get?_given])
  have hprojectId := ht.layout.field_given inside "projectId" p.projectId
    (by simp) (by simp [providerFront, Dict.get?_append, get?_given])
  have hothers := ht.layout.extra?_again hf ht.others
  change provider (inside + 1) (Json.object (providerFront p ++ p.extra)).toSource = _
  simp only [provider, members?_toSource, bind, Option.bind_some, hcluster, hns, hregion,
    hprojectId, hothers]
  rfl

/-! ### Specs -/

/-- What the fields of a spec are, whether they were given by name or as a list. -/
structure SpecRead (room : Nat) (s : Spec) : Prop where
  options : s.options = [] ∨ ∃ source, optionMap room source = some s.options
  configurations : s.configurations = [] ∨
    ∃ source, dict optionMap room source = some s.configurations

theorem specRead_of_list {room : Nat} {fields : List Source} {s : Spec}
    (h : specOfList? room fields = some s) : SpecRead room s := by
  unfold specOfList? at h
  split at h
  · cases h
  · simp only [bind, Option.bind_eq_some_iff] at h
    obtain ⟨tool, -, h⟩ := h
    split at h
    · cases h
      exact ⟨.inl rfl, .inl rfl⟩
    · obtain ⟨options, hoptions, h⟩ := Option.bind_eq_some_iff.1 h
      split at h
      · cases h
        exact ⟨.inr ⟨_, hoptions⟩, .inl rfl⟩
      · obtain ⟨configurations, hconfigurations, h⟩ := Option.bind_eq_some_iff.1 h
        split at h
        · cases h
          exact ⟨.inr ⟨_, hoptions⟩, .inr ⟨_, hconfigurations⟩⟩
        · obtain ⟨default, -, h⟩ := Option.bind_eq_some_iff.1 h
          cases h
          exact ⟨.inr ⟨_, hoptions⟩, .inr ⟨_, hconfigurations⟩⟩
        · cases h

theorem specRead_of_spec {toolKey : String} {room : Nat} {source : Source} {s : Spec}
    (h : spec toolKey (room + 1) source = some s) : SpecRead room s := by
  unfold spec at h
  split at h
  · rename_i hroom
    cases hroom
    exact specRead_of_list h
  · simp only [bind, Option.bind_eq_some_iff] at h
    obtain ⟨⟨inside, members⟩, hmembers, tool, -, options, hoptions, configurations,
      hconfigurations, default, -, hs⟩ := h
    cases hs
    obtain rfl : room = inside := Nat.succ.inj (room_of_members? hmembers)
    exact ⟨field_eq_some hoptions, field_eq_some hconfigurations⟩

/-- A spec whose configurations are read is read with the options that are read for it. -/
theorem spec_toJson {toolKey : String} (hkey : (specKeys toolKey).Nodup) {room : Nat} {s : Spec}
    (hconfigurations : dict optionMap (room + 1) (configurationsJson s.configurations).toSource =
      some s.configurations) :
    spec toolKey (room + 2) (specJson toolKey s).toSource =
      (optionMap (room + 1) s.options.toJson.toSource).map fun options => { s with options } := by
  obtain ⟨hget, hgetOptions, hgetConfigurations, hgetDefault⟩ := get?_specMembers hkey s
  have hlayout := specLayout hkey s
  have hjson : specJson toolKey s = .object (specMembers toolKey s ++ []) := by
    rw [List.append_nil]
    rfl
  rw [hjson]
  have htool : required text (room + 1) (sourced (specMembers toolKey s ++ [])) toolKey =
      some s.tool := hlayout.required_eq (by simp [specKeys]) hget
  have hoptions : field optionMap [] (room + 1) (sourced (specMembers toolKey s ++ [])) "options" =
      optionMap (room + 1) s.options.toJson.toSource :=
    hlayout.field_found (by simp [specKeys]) hgetOptions
  have hconfigurations : field (dict optionMap) [] (room + 1)
      (sourced (specMembers toolKey s ++ [])) "configurations" = some s.configurations :=
    (hlayout.field_found (by simp [specKeys]) hgetConfigurations).trans hconfigurations
  have hdefault := hlayout.field_given (room + 1) _ _ (by simp [specKeys]) hgetDefault
  unfold spec
  split
  · rename_i hlist
    cases hlist
  · simp only [members?_toSource, bind, Option.bind_some, htool, hoptions, hconfigurations,
      hdefault]
    cases optionMap (room + 1) s.options.toJson.toSource <;> rfl

theorem rereads_spec {toolKey : String} (hkey : (specKeys toolKey).Nodup) (room : Nat) :
    Rereads (spec toolKey) (specJson toolKey) (room + 2) := by
  intro source s h hf
  obtain ⟨hoptions, hconfigurations⟩ := specRead_of_spec h
  have hmember : ∀ m ∈ specMembers toolKey s, m.2.Faithful := hf.member
  have hoptions := (rereads_optionMap (room + 1)).of_field rfl hoptions
    (hmember ("options", s.options.toJson) (.tail _ (.head _)))
  have hconfigurations := (rereads_optionMap room).dict.of_field rfl hconfigurations
    (hmember ("configurations", configurationsJson s.configurations) (.tail _ (.tail _ (.head _))))
  rw [spec_toJson hkey hconfigurations, hoptions]
  rfl

/-! ### Projects -/

/-- What was read for an architect is read again with another deploy spec, as that is read. -/
theorem architect_toJson (room : Nat) {source : Source} {a : Architect}
    (h : architect (room + 3) source = some a) (deploy : Option Spec)
    (hf : (Json.object (architectMembers { a with deploy })).Faithful) :
    architect (room + 3) (Json.object (architectMembers { a with deploy })).toSource =
      (deploy.mapM fun s => spec "deployer" (room + 2) (specJson "deployer" s).toSource).map
        fun deploy => { a with deploy } := by
  obtain ⟨inside, members, ht, hbuild, -⟩ := architect_taken h
  obtain rfl : room + 2 = inside := Nat.succ.inj ht.room_eq
  have hlayout := ht.layout.front_of_sublist (keys_architectFront { a with deploy })
  have hbuild := hlayout.field_optional hf (by simp) (rereads_spec (by decide) room) nofun hbuild
    (by simp [architectFront, Dict.get?_append, get?_specMember])
  have hdeploy : field (optional (spec "deployer")) none (room + 2)
      (sourced (architectFront { a with deploy } ++ a.extra)) "deploy" =
      deploy.mapM fun s => spec "deployer" (room + 2) (specJson "deployer" s).toSource :=
    hlayout.field_optional_eq (by simp) nofun
      (by simp [architectFront, Dict.get?_append, get?_specMember])
  have hothers := hlayout.extra?_again hf ht.others
  change architect (room + 2 + 1)
    (Json.object (architectFront { a with deploy } ++ a.extra)).toSource = _
  simp only [architect, members?_toSource, bind, Option.bind_some, hbuild, hdeploy, hothers]
  cases deploy.mapM fun s => spec "deployer" (room + 2) (specJson "deployer" s).toSource <;> rfl

theorem rereads_architect (room : Nat) :
    Rereads architect (fun a => .object (architectMembers a)) (room + 3) := by
  intro source a h hf
  obtain ⟨inside, members, ht, -, hdeploy⟩ := architect_taken h
  obtain rfl : room + 2 = inside := Nat.succ.inj ht.room_eq
  have hget : Dict.get? "deploy" (architectFront a) = a.deploy.map (specJson "deployer") := by
    simp [architectFront, Dict.get?_append, get?_specMember]
  have hdeploy := ht.layout.field_optional hf (by simp) (rereads_spec (by decide) room) nofun
    hdeploy hget
  rw [ht.layout.field_optional_eq (by simp) nofun hget] at hdeploy
  exact (architect_toJson room h a.deploy hf).trans (congrArg (Option.map _) hdeploy)

theorem architectMembers_eq_nil {a : Architect} : architectMembers a = [] ↔ a = {} := by
  obtain ⟨build, deploy, extra⟩ := a
  cases build <;> cases deploy <;> simp [architectMembers, specMember]

/-- What was read for a project is read again with another architect and other metadata, as the
architect is read. -/
theorem project_toJson {room : Nat} {source : Source} {p : Project}
    (h : project (room + 4) source = some p) (a : Architect) {metadata : OptionMap}
    (hmetadata : optionMap (room + 3) metadata.toJson.toSource = some metadata)
    (hf : (projectJson { p with architect := a, metadata }).Faithful) :
    project (room + 4) (projectJson { p with architect := a, metadata }).toSource =
      (if (architectMembers a).isEmpty then some {}
        else architect (room + 3) (Json.object (architectMembers a)).toSource).map
        fun architect => { p with architect, metadata } := by
  obtain ⟨inside, members, ht, hlanguage, -, hlocal, -, hname⟩ := project_taken h
  obtain rfl : room + 3 = inside := Nat.succ.inj ht.room_eq
  have hlayout := ht.layout.front_of_sublist
    (keys_projectFront { p with architect := a, metadata })
  have hroot : required text (room + 3)
      (sourced (projectFront { p with architect := a, metadata } ++ p.extra)) "root" =
      some p.root :=
    hlayout.required_eq (j := .text p.root) (by simp) (by simp [projectFront, Dict.get?])
  have hlanguage := hlayout.field_always hf (by simp) (rereads_text _) rfl hlanguage
    (by simp [projectFront, Dict.get?])
  have harchitect : field architect {} (room + 3)
      (sourced (projectFront { p with architect := a, metadata } ++ p.extra)) "architect" =
      if (architectMembers a).isEmpty then some {}
        else architect (room + 3) (Json.object (architectMembers a)).toSource := by
    rw [hlayout.field_eq (by simp), get?_architect_front]
    cases (architectMembers a).isEmpty <;> rfl
  have hlocal := hlayout.field_unlessEmpty hf (by simp) (rereads_optionMap _).dict hlocal rfl
    List.map_eq_nil_iff (by simp [projectFront, Dict.get?_append, Dict.get?, get?_unlessEmpty])
  have hmetadata : field optionMap [] (room + 3)
      (sourced (projectFront { p with architect := a, metadata } ++ p.extra)) "metadata" =
      some metadata := by
    refine (hlayout.field_found (by simp) ?_).trans hmetadata
    simp [projectFront, Dict.get?_append, Dict.get?, get?_unlessEmpty]
  have hothers := hlayout.extra?_again hf ht.others
  change project (room + 3 + 1)
    (Json.object (projectFront { p with architect := a, metadata } ++ p.extra)).toSource = _
  simp only [project, members?_toSource, bind, Option.bind_some, hroot, hlanguage, harchitect,
    hlocal, hmetadata, hothers]
  obtain ⟨name, root, language, _, localOptions, _, extra⟩ := p
  cases hname
  generalize (if (architectMembers a).isEmpty then some {}
    else architect (room + 3) (Json.object (architectMembers a)).toSource) = read
  cases read <;> rfl

theorem rereads_project (room : Nat) : Rereads project projectJson (room + 4) := by
  intro source p h hf
  obtain ⟨inside, members, ht, -, harchitect, -, hmetadata, -⟩ := project_taken h
  obtain rfl : room + 3 = inside := Nat.succ.inj ht.room_eq
  have hmetadata := (rereads_optionMap _).of_field rfl (field_eq_some hmetadata)
    (hf.member ("metadata", p.metadata.toJson) (by simp))
  have hmember : ∀ m ∈ projectFront p, m.2.Faithful := fun m hm =>
    hf.member m (List.mem_append_left p.extra hm)
  have harchitect : (if (architectMembers p.architect).isEmpty then some {}
      else architect (room + 3) (Json.object (architectMembers p.architect)).toSource) =
      some p.architect := by
    split_ifs with hempty
    · rw [architectMembers_eq_nil.1 (List.isEmpty_iff.1 hempty)]
    · rcases field_eq_some harchitect with hdefault | ⟨source, hsource⟩
      · exact absurd (List.isEmpty_iff.2 (architectMembers_eq_nil.2 hdefault)) hempty
      · refine rereads_architect room hsource ?_
        exact hmember ("architect", _)
          (Dict.mem_of_get? ((get?_architect_front p).trans (if_neg hempty)))
  exact (project_toJson h p.architect hmetadata hf).trans (congrArg (Option.map _) harchitect)

/-! ### Workspaces -/

/-- What was read for a workspace is read again with other projects, as those are read, in the
version that is written. -/
theorem workspace_toJson (room : Nat) {source : Source} {found : Nat} {w : Workspace}
    (h : workspace (room + 6) source = some (found, w)) (projects : Dict Project)
    (hf : (toJson { w with projects }).Faithful) :
    workspace (room + 6) (toJson { w with projects }).toSource =
      (dict project (room + 5)
        (Json.object (projects.map fun e => (e.1, projectJson e.2))).toSource).map
        fun projects => (Workspace.formatVersion, { w with projects }) := by
  obtain ⟨inside, members, ht, hinfo, -, hbuild, henvironments, hinfrastructure⟩ :=
    workspace_taken h
  obtain rfl : room + 5 = inside := Nat.succ.inj ht.room_eq
  have hlayout : Layout knownMembers (workspaceFront { w with projects }) w.extra :=
    ht.layout.front_of_sublist (List.Sublist.refl _)
  have hversion : field version Workspace.formatVersion (room + 5)
      (sourced (workspaceFront { w with projects } ++ w.extra)) "version" =
      some Workspace.formatVersion :=
    (hlayout.field_found (by decide) rfl).trans rfl
  have hinfo := hlayout.field_always hf (by decide) (rereads_info _) rfl hinfo rfl
  have hprojects : field (dict project) [] (room + 5)
      (sourced (workspaceFront { w with projects } ++ w.extra)) "projects" =
      dict project (room + 5)
        (Json.object (projects.map fun e => (e.1, projectJson e.2))).toSource :=
    hlayout.field_found (by decide) rfl
  have hbuild := hlayout.field_always hf (by decide) (rereads_build _) rfl hbuild rfl
  have henvironments := hlayout.field_always hf (by decide) (rereads_environment (room + 4)).dict
    rfl henvironments rfl
  have hinfrastructure := hlayout.field_always hf (by decide) (rereads_provider (room + 4)).dict
    rfl hinfrastructure rfl
  have hothers := hlayout.extra?_again hf ht.others
  change workspace (room + 5 + 1)
    (Json.object (workspaceFront { w with projects } ++ w.extra)).toSource = _
  simp only [workspace, members?_toSource, bind, Option.bind_some, hversion, hinfo,
    hprojects, hbuild, henvironments, hinfrastructure, hothers]
  cases dict project (room + 5)
    (Json.object (projects.map fun e => (e.1, projectJson e.2))).toSource <;> rfl

/-- The document of a workspace that was read is read as that workspace. -/
theorem rereads_workspace (room : Nat) {source : Source} {found : Nat} {w : Workspace}
    (h : workspace (room + 6) source = some (found, w)) (hf : (toJson w).Faithful) :
    workspace (room + 6) (toJson w).toSource = some (Workspace.formatVersion, w) := by
  obtain ⟨inside, members, ht, -, hprojects, -⟩ := workspace_taken h
  obtain rfl : room + 5 = inside := Nat.succ.inj ht.room_eq
  have hprojects := (rereads_project room).dict.of_field rfl (field_eq_some hprojects)
    (hf.member ("projects", _) (.tail _ (.tail _ (.head _))))
  exact (workspace_toJson room h w.projects hf).trans (congrArg (Option.map _) hprojects)

/-! ### Documents -/

theorem read_write {file : Path} {content : String} {w : Workspace}
    (h : read file content = .ok w) (hf : (toJson w).Faithful) (document : Path) :
    read document (write w) = .ok w := by
  obtain ⟨source, w', -, hw, rfl⟩ := read_eq_ok h
  rw [toJson_named] at hf
  have hback := rereads_workspace 121 hw hf
  rw [write, toJson_named]
  exact read_of_workspace (Json.read?_pretty _) hback document

/-- What a document that was saved holds. -/
theorem read_of_save {faults : WriteFaults} {document : Path} {w : Workspace} {d d' : Disk}
    (h : (save faults document w).on d = (.ok (), d')) :
    (Disk.read document).on d' = (.ok (write w), d') := by
  rw [save, DiskTask.on_adapt] at h
  rcases hw : (faults.write 1 document (write w)).on d with ⟨_ | _, d''⟩
  · rw [hw] at h
    cases h
  · rw [hw] at h
    obtain rfl : d'' = d' := (Prod.mk.inj h).2
    exact Disk.read_of_write (WriteFaults.write_ok hw)

/-- What is loaded of a document is what is read of it. -/
theorem on_load_of_read {document : Path} {content : String} {d : Disk}
    (h : (Disk.read document).on d = (.ok content, d)) :
    (load document).on d = ((read document content).mapError .invalid, d) := by
  rw [load, DiskTask.on_bind, DiskTask.on_adapt, h]
  simp only [Except.mapError]
  cases read document content <;> rfl

/-- A workspace that was loaded was read from the document. -/
theorem read_of_load {document : Path} {w : Workspace} {d d' : Disk}
    (h : (load document).on d = (.ok w, d')) :
    ∃ content, (Disk.read document).on d = (.ok content, d) ∧ read document content = .ok w := by
  rcases hread : (Disk.read document).on d with ⟨e | content, d''⟩
  · rw [load, DiskTask.on_bind, DiskTask.on_adapt, hread] at h
    cases h
  · obtain ⟨rfl, -⟩ := Disk.read_eq_ok.1 hread
    rw [on_load_of_read hread] at h
    refine ⟨content, rfl, ?_⟩
    cases hw : read document content with
    | error e =>
      rw [hw] at h
      cases h
    | ok w' =>
      rw [hw] at h
      exact congrArg _ (Except.ok.inj (Prod.mk.inj h).1)

theorem load_of_save {faults : WriteFaults} {document : Path} {w : Workspace} {d d' : Disk}
    (hsave : (save faults document w).on d = (.ok (), d'))
    (hread : read document (write w) = .ok w) : (load document).on d' = (.ok w, d') := by
  rw [on_load_of_read (read_of_save hsave), hread]
  rfl

/-- Loading undoes saving: what is written for a workspace that was read is read as the same
workspace, wherever it is, for which the same text is written again; and a document that was
saved is loaded as the workspace that was saved. -/
theorem load_undoes_save {file : Path} {content : String} {w : Workspace}
    (h : read file content = .ok w) (hf : (toJson w).Faithful) (document : Path) :
    read document (write w) = .ok w ∧
      (∀ w', read document (write w) = .ok w' → write w' = write w) ∧
      ∀ faults d d', (save faults document w).on d = (.ok (), d') →
        (load document).on d' = (.ok w, d') := by
  have hread := read_write h hf document
  refine ⟨hread, fun w' hw' => ?_, fun faults d d' hsave => load_of_save hsave hread⟩
  rw [hread] at hw'
  rw [Except.ok.inj hw']

section

/-- A document with a spec given as a list, numbers that differ in kind only, and members of
other tools. -/
def smallDocument : Json := .object
  [("projects", .object [("api", .object
      [("root", .text "apps/api"),
        ("architect", .object
          [("build", .array [.text "ko"]),
            ("deploy", .object
              [("deployer", .text "helm"),
                ("options", .object
                  [("replicas", .number (.integer 1)),
                    ("share", .number (.real ⟨0x3FF0000000000000⟩))])])]),
        ("owner", .text "payments")])]),
    ("limits", .object [("load", .number (.real ⟨0x3FE0000000000000⟩))])]

/-- The small document is loaded, and again once it was saved; its whole number that is written
as a floating point number stays one. -/
theorem load_smallDocument :
    let document : Path := ⟨"keel.json"⟩
    ∃ w d, read document smallDocument.compact = .ok w ∧ (toJson w).Faithful ∧
      (toJson w).reals = [⟨0x3FF0000000000000⟩, ⟨0x3FE0000000000000⟩] ∧
      read document (write w) = .ok w ∧
      (save .never document w).on (.ofTree ⟨[]⟩ []) = (.ok (), d) ∧
      (load document).on d = (.ok w, d) := by
  intro document
  have hsmall : (workspace Json.nestingLimit smallDocument.toSource).any fun read =>
      read.1 = Workspace.formatVersion ∧ (toJson read.2.named).Faithful ∧
        (toJson read.2.named).reals = [⟨0x3FF0000000000000⟩, ⟨0x3FE0000000000000⟩] ∧
        ((save .never document read.2.named).on (.ofTree ⟨[]⟩ [])).1.isOk := by
    decide +kernel
  obtain ⟨⟨found, w⟩, hw, hsmall⟩ := (Option.any_eq_true _ _).1 hsmall
  obtain ⟨rfl, hf, hreals, hsaved⟩ := of_decide_eq_true hsmall
  obtain ⟨result, d, hsave⟩ : ∃ result d,
      (save .never document w.named).on (.ofTree ⟨[]⟩ []) = (result, d) := ⟨_, _, rfl⟩
  have hread := read_of_workspace (Json.read?_compact smallDocument) hw document
  obtain ⟨hagain, -, hload⟩ := load_undoes_save hread hf document
  rw [hsave] at hsaved
  cases result with
  | error _ => cases hsaved
  | ok =>
    exact ⟨w.named, d, hread, hf, hreals, hagain, hsave, hload .never _ d hsave⟩

end

end Rollout.Document

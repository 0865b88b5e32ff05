import Mathlib.Tactic.Common
import Rollout.Proofs.Switch.Arrived
import Rollout.Proofs.Switch.Completed

/-!
# Where a switch leaves its files

The generator writes its files and nothing else, and they are in the folder that it is given
exactly if no key of a configuration leads out of it. Then a switch leaves them in the new folder,
at the paths that it reports, and changes no other file but the document and the workflow
(`generated_files_stay`). The file for a key that leads out is written elsewhere
(`key_leads_out`).
-/

namespace Rollout.Switch

open Disk DiskTask Location

/-- What generating files into a folder has done when it ends. -/
structure Generated (files : List (Path × String)) (dest : Path) (before : Disk)
    (result : Except OutputError (List Path)) (after : Disk) : Prop where
  /-- Where none of the files goes there are new folders at most. -/
  others : ∀ k, (∀ file ∈ files, k ≠ (dest.join file.1).spot before.current) →
    Stays (before.tree.get? k) (after.tree.get? k)
  /-- The paths that are returned are those of the files in their order. -/
  paths : ∀ paths, result = .ok paths → paths = files.map fun file => dest.join file.1
  /-- Each of them leads to a file. -/
  there : ∀ paths, result = .ok paths → ∀ p ∈ paths, after.isFile p

theorem generated {faults : WriteFaults} {d : Deployer} {name : String} {p : Project}
    {options : OptionMap} {dest : Path} {before after : Disk}
    {result : Except OutputError (List Path)}
    (h : (DeployFiles.generate faults d name p options dest).on before = (result, after)) :
    Generated (DeployFiles.files d name p options) dest before result after where
  others k hk := by
    have hothers := DeployFiles.get?_generate_of_ne faults hk
    rwa [h] at hothers
  paths paths hpaths := by
    rw [hpaths] at h
    rw [DeployFiles.paths_of_generate h, List.map_map]
    rfl
  there paths hpaths := DeployFiles.isFile_of_generate (hpaths ▸ h)

/-- What has become of the files when a switch has ended on a disk with a report. -/
structure Contained (m : Means) (disk : Disk) (report : Report) (d : Disk) : Prop where
  located : d.locate report.configFolder = .ok (report.configFolder.spot disk.current)
  /-- The files that are reported are in the new folder. -/
  inside : ∀ p ∈ report.written, report.configFolder.spot disk.current <+: p.spot disk.current
  files : ∀ p ∈ report.written, ∃ content,
    d.tree.get? (p.spot disk.current) = some (.file content)
  /-- Their paths lead to them, unless they are too long for any operation. -/
  reached : ∀ p ∈ report.written, View.isUnusable p = false → d.isFile p
  /-- Besides them there is the workflow at most. -/
  complete : ∀ k content,
    d.tree.get? (report.configFolder.spot disk.current ++ k) = some (.file content) →
      report.configFolder.spot disk.current ++ k = m.workflowSpot disk ∨
        ∃ p ∈ report.written, p.spot disk.current = report.configFolder.spot disk.current ++ k
  /-- Outside the folders of the switch, the document and the workflow nothing has changed, but
  for new folders. -/
  others : ∀ k, (∀ folder ∈ report.removed, ¬ folder.spot disk.current <+: k) →
    (∀ folder ∈ report.leftover, ¬ folder.spot disk.current <+: k) →
    ¬ report.configFolder.spot disk.current <+: k →
    k ≠ m.documentSpot disk → k ≠ m.workflowSpot disk → Stays (disk.tree.get? k) (d.tree.get? k)

variable {m : Means} {r : Request} {disk : Disk} {o : Opening m r disk}

theorem Staging.generated (hb : m.Builtin) (st : Staging o) :
    Generated o.files st.folder st.made (.ok st.files) st.disk := by
  obtain ⟨faults, hgenerate⟩ := st.exists_faults hb
  exact Switch.generated hgenerate

theorem KeysStay.isInward (hkeys : KeysStay m r disk) (o : Opening m r disk) :
    ∀ file ∈ o.files, file.1.IsInward := fun _ hfile =>
  DeployFiles.isInward_of_mem_files (hkeys o) hfile

theorem KeysStay.spot_join (hkeys : KeysStay m r disk) (o : Opening m r disk)
    {file : Path × String} (hfile : file ∈ o.files) (base : Path) (c : Location) :
    (base.join file.1).spot c = base.spot c ++ walk [] file.1.segments :=
  (hkeys.isInward o file hfile).spot_join base c

section End

variable (hm : m.Lawful) (hc : m.Confined r disk) (hp : disk.toView.Proper)
  (hu : m.Unforeseen r disk) (hb : m.Builtin) {st : Staging o} {rt : Retirement st}
  {pr : Promotion rt} {rc : Recording pr} {workflows : List Path} {d : Disk}
include hm hc

/-- The files of the new folder in their order. -/
theorem Promotion.written_eq (hb : m.Builtin) (hkeys : KeysStay m r disk) (pr : Promotion rt) :
    pr.written = o.files.map fun file => o.plan.newFolder.join file.1 := by
  have hfiles : st.files = (o.files.map (·.1)).map st.folder.join := by
    rw [List.map_map]
    exact (st.generated hb).paths _ rfl
  have hinward : ∀ p ∈ o.files.map (·.1), p.IsInward := by
    intro p hp
    obtain ⟨file, hfile, rfl⟩ := List.mem_map.1 hp
    exact hkeys.isInward o file hfile
  rw [Promotion.written, st.promoted_eq hm hc _ hinward hfiles, List.map_map]
  rfl

include hp hu hb

/-- Any other file in the new folder is the workflow: nothing else was staged. -/
theorem Disposal.complete_end (hkeys : KeysStay m r disk) (dp : Disposal rc)
    (h : (m.regenerate rc.workspace (Document.rootOf m.document)).on dp.disk = (.ok workflows, d))
    {k : Location} {content : Content}
    (hget : d.tree.get? (o.newSpot ++ k) = some (.file content)) :
    o.newSpot ++ k = m.workflowSpot disk ∨
      ∃ file ∈ o.files, (o.plan.newFolder.join file.1).spot disk.current = o.newSpot ++ k := by
  by_cases hworkflow : o.newSpot ++ k = m.workflowSpot disk
  · exact .inl hworkflow
  refine .inr ?_
  have hstaged : st.disk.tree.get? (m.stagingSpot disk ++ k) = some (.file content) := by
    rcases dp.new_end hm hc hp hu h hworkflow with heq | ⟨-, hfolder, -⟩
    · exact heq.symm.trans hget
    · cases hfolder.symm.trans hget
  by_contra hnone
  have hmade := ((st.generated hb).others _ fun file hfile heq => ?_).file hstaged
  · rw [st.get?_made hm] at hmade
    split_ifs at hmade
    cases hmade
  · rw [st.made_current hm, hkeys.spot_join o hfile, st.spot_folder hm] at heq
    refine hnone ⟨file, hfile, ?_⟩
    rw [hkeys.spot_join o hfile, ← List.append_cancel_left heq]
    rfl

theorem Disposal.contained (hkeys : KeysStay m r disk) (dp : Disposal rc)
    (h : (m.regenerate rc.workspace (Document.rootOf m.document)).on dp.disk = (.ok workflows, d)) :
    Contained m disk (dp.report workflows) d := by
  have hwritten : (dp.report workflows).written =
      o.files.map fun file => o.plan.newFolder.join file.1 := pr.written_eq hm hc hb hkeys
  have hmem {p : Path} (hp : p ∈ (dp.report workflows).written) :
      ∃ file ∈ o.files, o.plan.newFolder.join file.1 = p := by
    rw [hwritten] at hp
    exact List.mem_map.1 hp
  exact {
    located := dp.locate_end hm hc hp hu h
    inside := by
      intro p hp
      obtain ⟨file, hfile, rfl⟩ := hmem hp
      rw [hkeys.spot_join o hfile]
      exact List.prefix_append _ _
    files := by
      intro p hp'
      obtain ⟨file, hfile, rfl⟩ := hmem hp'
      exact dp.exists_inward_end hm hb hp hu h hfile (hkeys.isInward o file hfile)
    reached := by
      intro p hp' husable
      obtain ⟨file, hfile, rfl⟩ := hmem hp'
      exact dp.isFile_inward_end hm hb hp hu h hfile (hkeys.isInward o file hfile) husable
    complete := by
      intro k content hget
      refine (dp.complete_end hm hc hp hu hb hkeys h hget).imp_right ?_
      rintro ⟨file, hfile, hspot⟩
      exact ⟨_, hwritten ▸ List.mem_map_of_mem hfile, hspot⟩
    others := by
      intro k hold hleftover hnew hdocument hworkflow
      refine dp.others_end hm hc hp hu h hold hnew hdocument hworkflow fun hne => ?_
      obtain ⟨folder, hfolder⟩ := Option.ne_none_iff_exists'.1 hne
      have hholder := hleftover folder hfolder
      rwa [(dp.kept hm hc folder hfolder).2] at hholder }

end End

/-- The generator writes its files and nothing else, in the folder that it is given exactly if no
key leads out of it. Where no key does, a switch leaves them in the new folder at the paths that it
reports, and changes no file elsewhere but the document and the workflow. -/
theorem generated_files_stay (m : Means) (r : Request) (disk : Disk) :
    (∀ (faults : WriteFaults) (d : Deployer) (name : String) (p : Project) (options : OptionMap)
      (dest : Path) (before : Disk),
      let ended := (DeployFiles.generate faults d name p options dest).on before
      Generated (DeployFiles.files d name p options) dest before ended.1 ended.2) ∧
    (∀ (d : Deployer) (name : String) (p : Project) (options : OptionMap),
      (∀ key ∈ DeployFiles.overlayKeys d p, DeployFiles.KeyStays key) ↔
        ∀ (dest : Path) (c : Location), ∀ file ∈ DeployFiles.files d name p options,
          dest.spot c <+: (dest.join file.1).spot c) ∧
    (m.Lawful → m.Builtin → disk.toView.Proper → m.Unforeseen r disk → KeysStay m r disk →
      ∀ report, (run m r disk).1 = .ok (.switched report) →
        Contained m disk report (run m r disk).2.disk) := by
  refine ⟨fun _ _ _ _ _ _ _ => generated rfl, fun _ _ _ _ => DeployFiles.stays_iff, ?_⟩
  intro hm hb hp hu hkeys report h
  have hc := hb.confined_of_keysStay hm hkeys
  obtain ⟨o, st, rt, pr, rc, dp, workflows, hregenerate, rfl⟩ := exists_disposal h
  exact dp.contained hm hc hp hu hb hkeys hregenerate

/-! ### A workspace with one environment -/

namespace Small

/-- A workspace whose one environment has a name. -/
def withEnvironment (name : String) : Disk :=
  .ofTree ⟨[("w", .folder [
    ("keel.json", .file (.text ("\x7b\"environments\": \x7b\"" ++ name ++ "\": \x7b\x7d\x7d, " ++
      "\"projects\": \x7b\"web\": \x7b\"root\": \"web\", \"architect\": \x7b\"deploy\": " ++
        "\x7b\"deployer\": \"firebase\"\x7d\x7d\x7d\x7d\x7d"))),
    ("web", .folder [("deploy", .folder [("firebase.json", .file (.text "\x7b\x7d"))])])])]⟩ ["w"]

def toHelm : Request := { project := "web", deployer := "helm", force := true }

theorem keysStay_withEnvironment : KeysStay (means {}) toHelm (withEnvironment "eu/west") := by
  intro o key hkey
  have hstay := o.of_loaded
    (P := fun w p => ∀ key ∈ environmentsOf w p, DeployFiles.KeyStays key) (by decide +kernel)
  refine hstay key ?_
  rw [← keys_configurations]
  exact DeployFiles.overlayKeys_subset hkey

theorem unforeseen_withEnvironment :
    (means {}).Unforeseen toHelm (withEnvironment "eu/west") := fun o =>
  o.of_loaded (P := fun _ p => ∀ name ∈ [(means {}).stagingName, (means {}).retiredName],
    name ∉ (withEnvironment "eu/west").current ∧
      name ∉ (planFor (Document.rootOf (means {}).document) p toHelm).newFolder.segments)
    (by decide +kernel)

/-- What a switch of such a workspace reports. -/
def environmentReport (name : String) : Report :=
  { project := "web"
    origin := some "firebase"
    target := .helm
    configFolder := ⟨"./web/deploy"⟩
    removed := some ⟨"./web/deploy"⟩
    leftover := none
    written := [⟨"./web/deploy/Chart.yaml"⟩, ⟨"./web/deploy/values.yaml"⟩,
      ⟨"./web/deploy/envs/" ++ name ++ "/values.yaml"⟩]
    workflows := [⟨"./.github/workflows/keel-deploy.yml"⟩] }

end Small

/-- The files for an environment whose name is a path inwards are in the new folder. -/
theorem files_of_inward_environment_stay :
    Contained (Small.means {}) (Small.withEnvironment "eu/west")
      (Small.environmentReport "eu/west")
      (run (Small.means {}) Small.toHelm (Small.withEnvironment "eu/west")).2.disk :=
  (generated_files_stay _ _ _).2.2 (Small.lawful {}) (builtin_applyTo {} _) (by decide)
    Small.unforeseen_withEnvironment Small.keysStay_withEnvironment _ (by decide +kernel)

/-- The file for an environment whose name leads out of the folder is beside the document, and the
path that is reported for it leads nowhere. -/
theorem key_leads_out :
    let disk := Small.withEnvironment "../.."
    let ended := run (Small.means {}) Small.toHelm disk
    ended.1 = .ok (.switched (Small.environmentReport "../..")) ∧
      disk.exists? ⟨"values.yaml"⟩ = false ∧ ended.2.disk.isFile ⟨"values.yaml"⟩ ∧
      ended.2.disk.exists? ⟨"./web/deploy/envs/../../values.yaml"⟩ = false := by
  decide +kernel

end Rollout.Switch

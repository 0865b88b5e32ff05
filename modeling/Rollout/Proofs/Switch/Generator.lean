import Mathlib.Tactic.Common
import Rollout.Proofs.Output.DeployFiles
import Rollout.Proofs.Switch.Effects

/-!
# The generator of a switch

The generator of the program writes inside the folder that it is given where the keys of the
configurations do not lead out of it (`Means.Builtin.confined_of_keysStay`), and they do not where
environments have names that can be names of folders (`Means.Builtin.confined`). What it stages has
the names of deployment files (`Staging.fileName_of_builtin`).
-/

namespace Rollout.Switch

open Disk DiskTask Location

/-- The generator is the one of the program with some faults. -/
def Means.Builtin (m : Means) : Prop := ∀ d name p options dest disk,
  (∃ faults, (m.generate d name p options dest).on disk =
    (DeployFiles.generate faults d name p options dest).on disk) ∨
  ∃ result, (∀ files, result = .ok files → files = []) ∧
    (m.generate d name p options dest).on disk = (result, disk)

theorem builtin_applyTo (f : Faults) (m : Means) : (f.applyTo m).Builtin := by
  intro d name p options dest disk
  simp only [Faults.applyTo]
  rcases f.generator with _ | message | _
  · exact .inl ⟨f.fileWrites, rfl⟩
  · exact .inr ⟨.error (.render d.id message), by simp, rfl⟩
  · exact .inr ⟨.ok [], by simp, rfl⟩

variable {m : Means} {r : Request} {disk : Disk} {o : Opening m r disk}

/-- The new configurations are called as the environments of the project. -/
theorem keys_configurations (o : Opening m r disk) :
    (DeployFiles.configurations (withDeploy o.project o.spec)).keys =
      environmentsOf o.workspace o.project := by
  change ((environmentsOf o.workspace o.project).map _).map Prod.fst = _
  rw [List.map_map]
  exact List.map_id _

/-- The keys that name files of their own stay in the folder of the overlays. -/
def KeysStay (m : Means) (r : Request) (disk : Disk) : Prop := ∀ o : Opening m r disk,
  ∀ key ∈ DeployFiles.overlayKeys o.deployer (withDeploy o.project o.spec),
    DeployFiles.KeyStays key

theorem keysStay_of_isName (hnames : ∀ o : Opening m r disk,
    ∀ name ∈ environmentsOf o.workspace o.project, Path.IsName name) : KeysStay m r disk := by
  intro o key hkey
  refine DeployFiles.keyStays_of_isName (hnames o key ?_)
  rw [← keys_configurations]
  exact DeployFiles.overlayKeys_subset hkey

theorem Means.Builtin.confined_of_keysStay (hb : m.Builtin) (hm : m.Lawful)
    (hkeys : KeysStay m r disk) : m.Confined r disk := by
  intro o folder made hmake
  rw [o.base_eq hm] at hmake
  obtain ⟨-, hvacant, rfl⟩ := hm.makeFolder_ok hm.isName_stagingName hmake
  have hput := hvacant.get?_put .folder
  rcases hb o.deployer o.project.name (withDeploy o.project o.spec) o.spec.options folder
    (disk.after (.put (folder.spot disk.current) .folder)) with ⟨faults, heq⟩ | ⟨result, -, heq⟩
  · rw [heq]
    refine DeployFiles.through_generate faults (hkeys o) ?_ fun s hs =>
      ⟨?_, hvacant.not_prefix s hs⟩
    · exact decide_eq_true ((hput _).trans (if_pos rfl))
    · exact (hvacant.extends_put .folder).isFolder (hvacant.trail s hs)
  · rw [heq]
    exact .rest (.refl _ _)

theorem Means.Builtin.confined (hb : m.Builtin) (hm : m.Lawful)
    (hnames : ∀ o : Opening m r disk,
      ∀ name ∈ environmentsOf o.workspace o.project, Path.IsName name) : m.Confined r disk :=
  hb.confined_of_keysStay hm (keysStay_of_isName hnames)

/-- The files that the generator names, when a switch calls it, are in the folder it is given. -/
def Means.NamesInside (m : Means) (r : Request) (disk : Disk) : Prop :=
  ∀ (o : Opening m r disk) (folder : Path) (made d : Disk) (files : List Path),
    (m.makeFolder (Document.rootOf m.document) m.stagingName).on o.base = (.ok folder, made) →
    (m.generate o.deployer o.project.name (withDeploy o.project o.spec) o.spec.options folder).on
      made = (.ok files, d) →
    ∃ inner : List Path, (∀ p ∈ inner, p.IsInner) ∧ files = inner.map folder.join

theorem Means.Builtin.namesInside (hb : m.Builtin)
    (hnames : ∀ o : Opening m r disk,
      ∀ name ∈ environmentsOf o.workspace o.project, Path.IsName name) : m.NamesInside r disk := by
  intro o folder made d files _ hgenerate
  rcases hb o.deployer o.project.name (withDeploy o.project o.spec) o.spec.options folder made with
    ⟨faults, heq⟩ | ⟨result, hempty, heq⟩
  · refine ⟨_, ?_, DeployFiles.paths_of_generate (heq.symm.trans hgenerate)⟩
    intro p hp
    obtain ⟨file, hfile, rfl⟩ := List.mem_map.1 hp
    refine DeployFiles.isInner_of_mem_files ?_ hfile
    rw [keys_configurations]
    exact hnames o
  · obtain rfl := hempty files (congrArg Prod.fst (heq.symm.trans hgenerate))
    exact ⟨[], by simp, rfl⟩

/-- Nothing is in the staging folder when it is made. -/
theorem Staging.get?_made (hm : m.Lawful) (st : Staging o) (l : Location) :
    st.made.tree.get? (m.stagingSpot disk ++ l) = if l = [] then some .folder else none := by
  obtain ⟨-, hvacant, hmade⟩ := st.made_eq hm
  rw [hmade]
  change (disk.tree.put _ _).get? _ = _
  rw [hvacant.get?_put, Tree.get?_append_of_none hvacant.absent]
  simp

/-- The files that are to be generated. -/
def Opening.files (o : Opening m r disk) : List (Path × String) :=
  DeployFiles.files o.deployer o.project.name (withDeploy o.project o.spec) o.spec.options

section Staged

variable (hb : m.Builtin)
include hb

/-- Where files are staged the generator of the program has written them. -/
theorem Staging.exists_faults (st : Staging o) : ∃ faults,
    (DeployFiles.generate faults o.deployer o.project.name (withDeploy o.project o.spec)
      o.spec.options st.folder).on st.made = (.ok st.files, st.disk) := by
  rcases hb o.deployer o.project.name (withDeploy o.project o.spec) o.spec.options st.folder
    st.made with ⟨faults, heq⟩ | ⟨result, hempty, heq⟩
  · exact ⟨faults, heq.symm.trans st.generating⟩
  · rw [st.generating] at heq
    exact absurd (hempty _ (congrArg Prod.fst heq).symm) st.nonempty

/-- Where it is staged the path of a file leads to it. -/
theorem Staging.isFile_join (st : Staging o) {file : Path × String} (hfile : file ∈ o.files) :
    st.disk.isFile (st.folder.join file.1) := by
  obtain ⟨faults, hgenerate⟩ := st.exists_faults hb
  refine DeployFiles.isFile_of_generate hgenerate _ ?_
  rw [DeployFiles.paths_of_generate hgenerate]
  exact List.mem_map_of_mem (List.mem_map_of_mem hfile)

/-- A staged file has the name of a deployment file. -/
theorem Staging.fileName_of_builtin (hm : m.Lawful) (hc : m.Confined r disk)
    (st : Staging o) {l : Location} {content : Content}
    (h : st.disk.tree.get? (m.stagingSpot disk ++ l) = some (.file content)) :
    ∃ fileName ∈ DeployFiles.fileNames, l.getLast? = some fileName := by
  have hne : l ≠ [] := by
    rintro rfl
    rw [List.append_nil, Tree.get?_of_isFolder (st.staged hm hc).2.folder] at h
    cases h
  have hbefore := st.get?_made hm l
  rw [if_neg hne] at hbefore
  obtain ⟨faults, hgenerate⟩ := st.exists_faults hb
  have hdisk := congrArg Prod.snd hgenerate
  simp only at hdisk
  rw [← hdisk] at h
  rcases DeployFiles.get?_generate faults h with hold | ⟨fileName, hname, hl⟩
  · cases hbefore.symm.trans hold
  · rw [List.getLast?_append, List.getLast?_eq_some_getLast hne] at hl
    exact ⟨fileName, hname, (List.getLast?_eq_some_getLast hne).trans hl⟩

end Staged

/-! ### A small workspace

One project that is deployed with one tool and is to be deployed with another. -/

namespace Small

def documentText : String :=
  "\x7b\"projects\": \x7b\"web\": \x7b\"root\": \"web\", \"architect\": \x7b\"deploy\": " ++
    "\x7b\"deployer\": \"helm\"\x7d\x7d\x7d\x7d\x7d"

def tree : Tree :=
  ⟨[("w", .folder [("keel.json", .file (.text documentText)),
    ("web", .folder [("deploy", .folder [("Chart.yaml", .file (.text "name: web"))])])])]⟩

def start : Disk := .ofTree tree ["w"]

def request : Request := { project := "web", deployer := "cloudrun", force := true }

/-- The faults by which one of the moves is refused. -/
def refusing (n : Nat) : Faults := { rename := fun k => if k = n then some .io else none }

def means (f : Faults) : Means := f.applyTo (.standard ⟨"keel.json"⟩ "0aZb9X" fun _ _ => false)

theorem lawful (f : Faults) : (means f).Lawful := lawful_applyTo f _ (by decide) _

/-- No fault is in the way of loading. -/
theorem load_means (f : Faults) : (means f).load = (means {}).load := rfl

theorem isName_of_mem_environmentsOf {f : Faults} (o : Opening (means f) request start) :
    ∀ name ∈ environmentsOf o.workspace o.project, Path.IsName name :=
  o.of_loaded (P := fun w p => ∀ name ∈ environmentsOf w p, Path.IsName name) (by
    rw [load_means]
    decide +kernel)

theorem confined (f : Faults) : (means f).Confined request start :=
  (builtin_applyTo f _).confined (lawful f) isName_of_mem_environmentsOf

theorem namesInside (f : Faults) : (means f).NamesInside request start :=
  (builtin_applyTo f _).namesInside isName_of_mem_environmentsOf

end Small

end Rollout.Switch

import Mathlib.Data.List.Nodup
import Mathlib.Tactic.Common
import Rollout.Proofs.Json.Faithful
import Rollout.Proofs.Output.DeployFiles

/-!
# Files of environments

Each configuration has a file of its own beside the base files, in the folder that its key leads
to. Where no key leads to the folder of the base files, those hold what they hold without any
configuration, and where no two keys lead to one folder, each file holds its own overlay; keys made
of names do neither. For hosting the configurations share one file, in which each key with an id is
an alias of it (`environments_apart`).
-/

namespace Rollout

open Disk

/-- A path leads to a file with this content. -/
def Disk.Holds (d : Disk) (p : Path) (content : String) : Prop :=
  (Disk.read p).on d = (.ok content, d)

theorem Disk.holds_of_read {p : Path} {content : String} {d d' : Disk}
    (h : (Disk.read p).on d = (.ok content, d')) : d.Holds p content := by
  rw [Holds, h, (Disk.read_eq_ok.1 h).1]

namespace DeployFiles

/-- The project without its configurations. -/
def bare (p : Project) : Project :=
  { p with architect := { p.architect with
      deploy := p.deploy.map fun spec => { spec with configurations := [] } } }

/-- The name of the file of a configuration. -/
def overlayName? : Deployer → Option String
  | .helm => some "values.yaml"
  | .firebase => none
  | .cloudRun => some "config.yaml"

/-- The folder of a configuration, seen from the folder that files are generated into. -/
def overlayFolder (dest : Path) (c : Location) (key : String) : Location :=
  (dest.join ((Path.mk "envs").child key)).spot c

variable {d : Deployer} {name fileName : String} {p : Project} {options : OptionMap}

/-! ### Base files and overlays -/

theorem configurations_bare : configurations (bare p) = [] := by
  show ((p.deploy.map fun spec => { spec with configurations := [] }).map
    (·.configurations)).getD [] = []
  cases p.deploy <;> rfl

theorem portFor_bare : portFor (bare p) options d = portFor p options d := by
  have htarget : Settings.targetPort? (bare p) d.id = Settings.targetPort? p d.id := by
    unfold Settings.targetPort?
    rw [show (bare p).deploy = p.deploy.map fun spec => { spec with configurations := [] } from rfl]
    cases p.deploy <;> rfl
  simp only [portFor, Settings.portOf, htarget]
  rfl

/-- The files are the base files, which the configurations have no part in, and then the
overlays. -/
theorem files_eq (hd : overlayName? d = some fileName) :
    files d name p options = files d name (bare p) options ++ overlayFiles fileName p := by
  cases d with
  | helm =>
    cases hd
    simp [files, helmBase, overlayFiles, configurations_bare, portFor_bare]
  | firebase => cases hd
  | cloudRun =>
    cases hd
    simp [files, cloudRunBase, overlayFiles, configurations_bare, portFor_bare]

theorem mem_bare {file : Path × String} (h : file ∈ files d name (bare p) options) :
    ∃ baseName ∈ fileNames, file.1 = ⟨baseName⟩ := by
  obtain ⟨baseName, hname, hfile | ⟨key, hkey, -⟩⟩ := mem_files h
  · exact ⟨baseName, hname, hfile⟩
  · have hmem := overlayKeys_subset hkey
    rw [configurations_bare] at hmem
    cases hmem

theorem overlay_mem {key : String} {overlay : OptionMap} (h : (key, overlay) ∈ configurations p) :
    (overlayPath fileName key, overlay.toYaml.write) ∈ overlayFiles fileName p := by
  unfold overlayFiles
  exact List.mem_map.2 ⟨_, h, rfl⟩

/-- No two base files have one name. -/
theorem nodup_bare : ((files d name (bare p) options).map (·.1)).Nodup := by
  cases d with
  | helm => simp [files, helmBase, overlayFiles, configurations_bare]
  | firebase => simp [files, firebaseFiles]
  | cloudRun => simp [files, cloudRunBase, overlayFiles, configurations_bare]

theorem overlayName_mem (hd : overlayName? d = some fileName) : fileName ∈ fileNames := by
  cases d <;> cases hd <;> decide

/-! ### Where files are -/

theorem spot_base {baseName : String} (h : baseName ∈ fileNames) (dest : Path) (c : Location) :
    (dest.join ⟨baseName⟩).spot c = dest.spot c ++ [baseName] :=
  Path.spot_child (isName_of_mem_fileNames baseName h) dest c

theorem spot_overlay (h : fileName ∈ fileNames) (dest : Path) (c : Location) (key : String) :
    (dest.join (overlayPath fileName key)).spot c = overlayFolder dest c key ++ [fileName] :=
  spot_overlayPath (isName_of_mem_fileNames fileName h) dest c

/-- Overlays are in one place exactly if their keys lead to one folder. -/
theorem spot_overlay_inj (h : fileName ∈ fileNames) (dest : Path) (c : Location)
    (key key' : String) :
    (dest.join (overlayPath fileName key)).spot c = (dest.join (overlayPath fileName key')).spot c ↔
      overlayFolder dest c key = overlayFolder dest c key' := by
  rw [spot_overlay h, spot_overlay h, List.append_cancel_right_eq]

/-- An overlay is in the place of a base file exactly if it has its name and its key leads to the
folder of the base files. -/
theorem spot_overlay_eq_base (h : fileName ∈ fileNames) {baseName : String}
    (hbase : baseName ∈ fileNames) (dest : Path) (c : Location) (key : String) :
    (dest.join (overlayPath fileName key)).spot c = (dest.join ⟨baseName⟩).spot c ↔
      overlayFolder dest c key = dest.spot c ∧ fileName = baseName := by
  rw [spot_overlay h, spot_base hbase]
  constructor
  · intro heq
    obtain ⟨hfolder, hname⟩ := List.append_inj' heq rfl
    exact ⟨hfolder, by simpa using hname⟩
  · rintro ⟨hfolder, rfl⟩
    rw [hfolder]

/-- A key made of names leads down from the folder of the overlays by these. -/
theorem overlayFolder_inner {key : String} (h : (Path.mk key).IsInner) (dest : Path)
    (c : Location) :
    overlayFolder dest c key = dest.spot c ++ "envs" :: (Path.mk key).segments := by
  have henvs : (dest.child "envs").spot c = dest.spot c ++ ["envs"] :=
    Path.spot_child (by decide) dest c
  rw [overlayFolder, Path.child, ← Path.join_assoc, Path.spot_join _ h.1, ← Path.child, henvs,
    Path.walk_names h.2]
  simp

/-- Keys made of names lead to folders of their own. -/
theorem overlayFolder_inner_inj {key key' : String} (h : (Path.mk key).IsInner)
    (h' : (Path.mk key').IsInner) {dest : Path} {c : Location}
    (heq : overlayFolder dest c key = overlayFolder dest c key') : key = key' := by
  rw [overlayFolder_inner h, overlayFolder_inner h'] at heq
  have hsegs := (List.cons.inj (List.append_cancel_left heq)).2
  have hpath : Path.mk key = Path.mk key' := by
    rw [← Path.ofSegments_segments ⟨key⟩, ← Path.ofSegments_segments ⟨key'⟩, h.1, h'.1, hsegs]
  exact congrArg Path.text hpath

theorem overlayFolder_inner_ne {key : String} (h : (Path.mk key).IsInner) (dest : Path)
    (c : Location) : overlayFolder dest c key ≠ dest.spot c := by
  rw [overlayFolder_inner h]
  simp

/-! ### What is read after generating -/

section Generated

variable {faults : WriteFaults} {dest : Path} {disk disk' : Disk} {paths : List Path}

theorem generate_eq : generate faults d name p options dest = writeFiles faults 1
    ((files d name p options).map fun file => (dest.join file.1, file.2)) := rfl

/-- A file holds its content, where those that are generated with it or after it in its place have
the same. -/
theorem holds_generated (h : (generate faults d name p options dest).on disk = (.ok paths, disk'))
    (before : List (Path × String)) {after : List (Path × String)}
    (hfiles : files d name p options = before ++ after) {path : Path} {content : String}
    (hfile : (path, content) ∈ after)
    (hsame : ∀ file ∈ after,
      (dest.join file.1).spot disk.current = (dest.join path).spot disk.current →
        file.2 = content) :
    disk'.Holds (dest.join path) content := by
  rw [generate_eq, hfiles, List.map_append] at h
  obtain ⟨disk₁, rest, hc, hlast⟩ := writeFiles_append_ok h
  have hmem : (dest.join path, content) ∈ after.map fun file => (dest.join file.1, file.2) :=
    List.mem_map.2 ⟨_, hfile, rfl⟩
  refine Disk.holds_of_read (read_writeFiles hlast hmem ?_)
  rintro _ hother hspot
  obtain ⟨file, hfile, rfl⟩ := List.mem_map.1 hother
  exact hsame file hfile (hc ▸ hspot)

/-- A base file holds what it holds without configurations, unless it has the name of an overlay
and a key leads to its folder. -/
theorem holds_base (hd : overlayName? d = some fileName)
    (h : (generate faults d name p options dest).on disk = (.ok paths, disk'))
    {file : Path × String} (hfile : file ∈ files d name (bare p) options)
    (hfree : file.1 = ⟨fileName⟩ → ∀ key ∈ (configurations p).keys,
      overlayFolder dest disk.current key ≠ dest.spot disk.current) :
    disk'.Holds (dest.join file.1) file.2 := by
  obtain ⟨path, content⟩ := file
  obtain ⟨baseName, hname, rfl⟩ : ∃ baseName ∈ fileNames, path = ⟨baseName⟩ := mem_bare hfile
  refine holds_generated h [] (files_eq hd) (List.mem_append_left _ hfile) ?_
  rintro ⟨otherPath, otherContent⟩ hother hspot
  rcases List.mem_append.1 hother with hother | hother
  · obtain ⟨otherName, hname', rfl⟩ : ∃ baseName ∈ fileNames, otherPath = ⟨baseName⟩ :=
      mem_bare hother
    rw [spot_base hname', spot_base hname, List.append_cancel_left_eq] at hspot
    have heq : Path.mk otherName = ⟨baseName⟩ := congrArg Path.mk (List.cons.inj hspot).1
    have hsame : (Path.mk otherName, otherContent) = (Path.mk baseName, content) :=
      List.inj_on_of_nodup_map nodup_bare hother hfile heq
    exact (Prod.mk.inj hsame).2
  · obtain ⟨key, hkey, rfl⟩ : ∃ key ∈ (configurations p).keys,
        otherPath = overlayPath fileName key := mem_overlayFiles hother
    obtain ⟨hfolder, rfl⟩ := (spot_overlay_eq_base (overlayName_mem hd) hname dest _ key).1 hspot
    exact absurd hfolder (hfree rfl key hkey)

/-- The file of a configuration holds its overlay, unless another key leads to its folder: the base
files are there before it. -/
theorem holds_overlay (hd : overlayName? d = some fileName) (hsorted : (configurations p).Sorted)
    (h : (generate faults d name p options dest).on disk = (.ok paths, disk'))
    {key : String} {overlay : OptionMap} (hkey : (configurations p).get? key = some overlay)
    (hfree : ∀ other ∈ (configurations p).keys,
      overlayFolder dest disk.current other = overlayFolder dest disk.current key → other = key) :
    disk'.Holds (dest.join (overlayPath fileName key)) overlay.toYaml.write := by
  have hentry : (key, overlay) ∈ configurations p := (Dict.get?_eq_some_iff hsorted).1 hkey
  refine holds_generated h _ (files_eq hd) (overlay_mem hentry) fun file hfile hspot => ?_
  obtain ⟨⟨other, otherOverlay⟩, hother, rfl⟩ := List.mem_map.1 hfile
  have hfolder := (spot_overlay_inj (overlayName_mem hd) dest _ other key).1 hspot
  obtain rfl := hfree other (List.mem_map_of_mem hother) hfolder
  have hsame := (Dict.get?_eq_some_iff hsorted).2 hother
  rw [hkey] at hsame
  obtain rfl := Option.some.inj hsame
  rfl

end Generated

/-! ### Aliases -/

/-- The aliases with that of a configuration, if it has an id. -/
def addAlias (names : Dict String) (e : String × OptionMap) : Dict String :=
  match e.2.text? "projectId" with
  | some id => names.insert e.1 id
  | none => names

/-- The alias that the options give. -/
def defaultAlias (options : OptionMap) : Dict String :=
  ((options.text? "projectId").map fun id => ("default", id)).toList

theorem aliases_eq : aliases p options =
    (configurations p).foldl addAlias (defaultAlias options) := by
  unfold aliases defaultAlias
  cases options.text? "projectId" <;> rfl

theorem get?_addAlias (names : Dict String) (e : String × OptionMap) (key : String) :
    (addAlias names e).get? key =
      if e.1 = key then (e.2.text? "projectId").or (names.get? key) else names.get? key := by
  unfold addAlias
  cases e.2.text? "projectId" <;> simp [Dict.get?_insert]

/-- The alias of a key is the id of its configuration, else the one that it had. -/
theorem get?_foldl_addAlias {entries : Dict OptionMap} (h : entries.keys.Nodup)
    (names : Dict String) (key : String) :
    Dict.get? key (entries.foldl addAlias names) =
      ((Dict.get? key entries).bind (·.text? "projectId")).or (names.get? key) := by
  induction entries generalizing names with
  | nil => rfl
  | cons e entries ih =>
    obtain ⟨hnew, hentries⟩ := List.nodup_cons.1 h
    rw [List.foldl_cons, ih hentries, get?_addAlias]
    by_cases hkey : e.1 = key
    · subst hkey
      have hnone : Dict.get? e.1 entries = none := by
        by_contra hsome
        exact hnew (Dict.mem_keys_iff.2 hsome)
      simp [Dict.get?, hnone]
    · simp [Dict.get?, hkey]

theorem get?_aliases (hsorted : (configurations p).Sorted) (key : String) :
    (aliases p options).get? key =
      (((configurations p).get? key).bind (·.text? "projectId")).or
        (if key = "default" then options.text? "projectId" else none) := by
  rw [aliases_eq, get?_foldl_addAlias hsorted.nodup_keys, defaultAlias]
  cases options.text? "projectId" <;> simp [Dict.get?, eq_comm]

theorem sorted_aliases : (aliases p options).Sorted := by
  have hfold (entries : Dict OptionMap) {names : Dict String} (h : names.Sorted) :
      Dict.Sorted (entries.foldl addAlias names) := by
    induction entries generalizing names with
    | nil => exact h
    | cons e entries ih =>
      refine ih ?_
      unfold addAlias
      cases e.2.text? "projectId" with
      | none => exact h
      | some id => exact Dict.sorted_insert h e.1 id
  rw [aliases_eq, defaultAlias]
  refine hfold _ ?_
  cases options.text? "projectId" with
  | none => exact Dict.sorted_nil
  | some id => exact List.pairwise_singleton _ _

/-- The aliases are read back from their file. -/
theorem read?_aliasesJson {names : Dict String} (h : names.Sorted) :
    Json.read? ((aliasesJson names).pretty ++ "\n") = some (aliasesJson names) := by
  rw [Json.read?, Json.read?_pretty, aliasesJson]
  generalize hentries : List.map _ names = entries
  have hsorted : Dict.Sorted entries := by
    have hkeys : Dict.keys entries = names.keys := by
      simp [← hentries, Dict.keys, Function.comp_def]
    rw [Dict.Sorted, hkeys]
    exact h
  have hmembers : Json.Source.members? 125 (Json.toSourceMembers entries) = some entries := by
    refine Json.members?_toSourceMembers fun m hm => ?_
    obtain ⟨e, -, rfl⟩ := List.mem_map.1 (hentries ▸ hm)
    rfl
  have hprojects : Dict.Sorted [("projects", Json.object entries)] := List.pairwise_singleton _ _
  simp [Json.toSource, Json.toSourceMembers, Json.Source.value?, Json.Source.members?,
    Json.nestingLimit, hmembers, Dict.ofEntries_eq_self hsorted, Dict.ofEntries_eq_self hprojects]

theorem holds_aliases {faults : WriteFaults} {dest : Path} {disk disk' : Disk} {paths : List Path}
    (h : (generate faults .firebase name p options dest).on disk = (.ok paths, disk')) :
    disk'.Holds (dest.join ⟨".firebaserc"⟩) ((aliasesJson (aliases p options)).pretty ++ "\n") := by
  refine holds_generated h [_] rfl List.mem_cons_self fun file hfile _ => ?_
  rw [List.mem_singleton.1 hfile]

/-! ### Environments beside each other -/

/-- What is read after files were generated with overlays: each base file holds what it holds
without configurations, and each configuration has a file with its overlay. -/
structure OverlaysApart (d : Deployer) (fileName name : String) (p : Project) (options : OptionMap)
    (dest : Path) (c : Location) (disk : Disk) : Prop where
  base : ∀ file ∈ files d name (bare p) options,
    (file.1 = ⟨fileName⟩ →
      ∀ key ∈ (configurations p).keys, overlayFolder dest c key ≠ dest.spot c) →
    disk.Holds (dest.join file.1) file.2
  overlay : ∀ key overlay, (configurations p).get? key = some overlay →
    (∀ other ∈ (configurations p).keys,
      overlayFolder dest c other = overlayFolder dest c key → other = key) →
    disk.Holds (dest.join (overlayPath fileName key)) overlay.toYaml.write
  places : ∀ key key',
    (dest.join (overlayPath fileName key)).spot c = (dest.join (overlayPath fileName key')).spot c ↔
      overlayFolder dest c key = overlayFolder dest c key'
  inner : ∀ key, (Path.mk key).IsInner → overlayFolder dest c key ≠ dest.spot c ∧
    ∀ other, (Path.mk other).IsInner →
      overlayFolder dest c other = overlayFolder dest c key → other = key

/-- The aliases that are read after files were generated for hosting: a key is an alias of the id
of its configuration, and `default`, where that has none, of the id of the options. -/
structure AliasesApart (p : Project) (options : OptionMap) (dest : Path) (disk : Disk)
    (names : Dict String) : Prop where
  sorted : names.Sorted
  file : ∃ content, disk.Holds (dest.join ⟨".firebaserc"⟩) content ∧
    Json.read? content = some (aliasesJson names)
  names : ∀ key, names.get? key = (((configurations p).get? key).bind (·.text? "projectId")).or
    (if key = "default" then options.text? "projectId" else none)

/-- After all files are generated, environments are beside each other and the base: in files of
their own, where their keys lead to folders of their own, and in one file for hosting. -/
theorem environments_apart {faults : WriteFaults} {dest : Path} {disk disk' : Disk}
    {paths : List Path} (hsorted : (configurations p).Sorted)
    (h : (generate faults d name p options dest).on disk = (.ok paths, disk')) :
    (∀ fileName, overlayName? d = some fileName →
      OverlaysApart d fileName name p options dest disk.current disk') ∧
    (d = .firebase → ∃ names, AliasesApart p options dest disk' names) := by
  refine ⟨fun fileName hd => ?_, ?_⟩
  · exact {
      base := fun file hfile hfree => holds_base hd h hfile hfree
      overlay := fun key overlay hkey hfree => holds_overlay hd hsorted h hkey hfree
      places := spot_overlay_inj (overlayName_mem hd) dest disk.current
      inner := fun key hkey => ⟨overlayFolder_inner_ne hkey dest disk.current,
        fun other hother heq => overlayFolder_inner_inj hother hkey heq⟩ }
  · rintro rfl
    exact ⟨aliases p options, {
      sorted := sorted_aliases
      file := ⟨_, holds_aliases h, read?_aliasesJson sorted_aliases⟩
      names := get?_aliases hsorted }⟩

/-- A project with configurations. -/
def configured (tool : String) (entries : Dict OptionMap) : Project :=
  { name := "web", root := "web", language := "", localOptions := [], metadata := [], extra := []
    architect := { build := none, deploy := some ⟨tool, [], entries, none⟩ } }

/-- Generating the files of a project into a folder of an empty disk. -/
def generateOut (d : Deployer) (p : Project) (options : OptionMap) :
    Except OutputError (List Path) × Disk :=
  (generate .never d p.name p options ⟨"out"⟩).on (.ofTree ⟨[]⟩ [])

theorem exists_of_isOk {result : Except OutputError (List Path) × Disk} (h : result.1.isOk) :
    ∃ paths disk, result = (.ok paths, disk) := by
  obtain ⟨_ | paths, disk⟩ := result
  · cases h
  · exact ⟨paths, disk, rfl⟩

def replicas (n : Int64) : OptionMap := [("replicas", .integer n)]

theorem write_replicas : (replicas 1).toYaml.write = "replicas: 1\n" ∧
    (replicas 3).toYaml.write = "replicas: 3\n" := by
  simp only [replicas, OptionMap.toYaml, OptionValue.toYaml, OptionValue.toYamlEntries, Yaml.write,
    Yaml.node, Yaml.fields, Yaml.field]
  decide +kernel

def webValues : String :=
  "replicaCount: 1\nimage:\n  repository: web\n  tag: latest\nservice:\n  port: 8080\n"

theorem webValues_mem (entries : Dict OptionMap) :
    (⟨"values.yaml"⟩, webValues) ∈ files .helm "web" (bare (configured "helm" entries)) [] := by
  have hwrite : (valuesYaml "web" 8080 none).write = webValues := by
    simp only [valuesYaml, Yaml.write, Yaml.node, Yaml.fields, Yaml.field, Yaml.ofNat,
      List.append_nil]
    decide +kernel
  rw [← hwrite]
  exact List.mem_append_left _ (List.mem_cons_of_mem _ List.mem_cons_self)

/-- Two environments, one of them in a folder of a region, beside the values of the chart. -/
theorem two_environments_apart :
    let p := configured "helm" [("dev", replicas 1), ("eu/prod", replicas 3)]
    ∃ paths disk, generateOut .helm p [] = (.ok paths, disk) ∧
      disk.Holds ⟨"out/envs/dev/values.yaml"⟩ "replicas: 1\n" ∧
      disk.Holds ⟨"out/envs/eu/prod/values.yaml"⟩ "replicas: 3\n" ∧
      disk.Holds ⟨"out/values.yaml"⟩ webValues := by
  intro p
  have hkeys : (configurations p).keys = ["dev", "eu/prod"] := rfl
  have hsorted : (configurations p).Sorted :=
    show List.Pairwise (· < ·) ["dev", "eu/prod"] by decide +kernel
  have hinner : ∀ key ∈ (configurations p).keys, (Path.mk key).IsInner := by
    rw [hkeys]
    decide +kernel
  obtain ⟨paths, disk, h⟩ : ∃ paths disk, generateOut .helm p [] = (.ok paths, disk) :=
    exists_of_isOk (by decide +kernel)
  have hapart := (environments_apart hsorted h).1 "values.yaml" rfl
  have hfree (key : String) (hkey : key ∈ (configurations p).keys) :=
    hapart.inner key (hinner key hkey)
  have hoverlay (key : String) (overlay : OptionMap) (hkey : key ∈ (configurations p).keys)
      (hget : (configurations p).get? key = some overlay) :=
    hapart.overlay key overlay hget fun other hother =>
      (hfree key hkey).2 other (hinner other hother)
  have hdev := hoverlay "dev" (replicas 1) (by simp [hkeys]) rfl
  have hprod := hoverlay "eu/prod" (replicas 3) (by simp [hkeys]) rfl
  have hbase := hapart.base _ (webValues_mem _) fun _ key hkey => (hfree key hkey).1
  have hpaths : (Path.mk "out").join (overlayPath "values.yaml" "dev") =
        ⟨"out/envs/dev/values.yaml"⟩ ∧
      (Path.mk "out").join (overlayPath "values.yaml" "eu/prod") =
        ⟨"out/envs/eu/prod/values.yaml"⟩ ∧
      (Path.mk "out").join ⟨"values.yaml"⟩ = ⟨"out/values.yaml"⟩ := by
    decide +kernel
  rw [hpaths.1, write_replicas.1] at hdev
  rw [hpaths.2.1, write_replicas.2] at hprod
  rw [hpaths.2.2] at hbase
  exact ⟨paths, disk, h, hdev, hprod, hbase⟩

/-- The configuration of a key that leads up again. -/
def upward : Project := configured "helm" [("..", replicas 3)]

/-- The configuration of a key that is the alias of the options. -/
def namedDefault : Project := configured "firebase" [("default", [("projectId", .text "web-x")])]

/-- A key that leads up again puts its overlay in the place of the values of the chart, and a
configuration named `default` takes the alias of the options. -/
theorem environments_meet :
    (∃ paths disk, generateOut .helm upward [] = (.ok paths, disk) ∧
      (⟨"values.yaml"⟩, webValues) ∈ files .helm "web" (bare upward) [] ∧
      disk.tree.get? ["out", "values.yaml"] = some (.file (.text "replicas: 3\n"))) ∧
    ∃ paths disk,
      generateOut .firebase namedDefault [("projectId", .text "web-y")] = (.ok paths, disk) ∧
      disk.Holds ⟨"out/.firebaserc"⟩ ((aliasesJson [("default", "web-x")]).pretty ++ "\n") := by
  constructor
  · have hsorted : (configurations upward).Sorted :=
      show List.Pairwise (· < ·) [".."] from List.pairwise_singleton _ _
    obtain ⟨paths, disk, h⟩ : ∃ paths disk, generateOut .helm upward [] = (.ok paths, disk) :=
      exists_of_isOk (by decide +kernel)
    have hheld : disk.Holds ((Path.mk "out").join (overlayPath "values.yaml" ".."))
        (replicas 3).toYaml.write :=
      holds_overlay (d := .helm) rfl hsorted h rfl fun other hother _ => List.mem_singleton.1 hother
    have hfile := (Disk.read_eq_ok.1 hheld).2.2
    have hspot : ((Path.mk "out").join (overlayPath "values.yaml" "..")).spot [] =
        ["out", "values.yaml"] := by
      decide +kernel
    have hcurrent : disk.current = [] := (isFile_of_writeFiles h).1
    rw [hcurrent, hspot, write_replicas.2] at hfile
    exact ⟨paths, disk, h, webValues_mem _, hfile⟩
  · obtain ⟨paths, disk, h⟩ : ∃ paths disk,
        generateOut .firebase namedDefault [("projectId", .text "web-y")] = (.ok paths, disk) :=
      exists_of_isOk (by decide +kernel)
    have hheld := holds_aliases h
    have hpath : (Path.mk "out").join ⟨".firebaserc"⟩ = ⟨"out/.firebaserc"⟩ := by decide +kernel
    have hnames : aliases namedDefault [("projectId", .text "web-y")] = [("default", "web-x")] := by
      decide +kernel
    rw [hpath, hnames] at hheld
    exact ⟨paths, disk, h, hheld⟩

end DeployFiles
end Rollout

import Mathlib.Tactic.Common
import Rollout.Proofs.Compile.ChartFiles
import Rollout.Proofs.Compile.Shown
import Rollout.Proofs.Options.Layers
import Rollout.Proofs.Switch.Reload
import Rollout.Proofs.Workspace.Noted

/-!
# Releases after a switch

A switch to charts seeds a namespace for each configuration that the project builds, and generates
the values of each in the folder of the chart. What is compiled from the document that it leaves
uses both: its releases are in the seeded namespaces, and where the answers name the new folder as
the chart of the project, the value files are there (`releases_after_switch`).
-/

namespace Rollout

/-! ### Options under those of an instance -/

namespace OptionMap

variable {options own : OptionMap} {key : String}

/-- Where an instance has no entry of its own the options of the project count. -/
theorem get?_merge_of_none (h : own.get? key = none) :
    (options.merge (some own)).get? key = options.get? key := by
  have hkey : Dict.get? key own.reverse = none := by
    by_contra hne
    have hmem := Dict.mem_keys_iff.2 hne
    rw [Dict.keys, List.map_reverse, List.mem_reverse] at hmem
    exact Dict.mem_keys_iff.1 hmem h
  rw [merge, Option.getD_some, Dict.get?_overlay, hkey, Option.none_or]

theorem get?_of_text? {s : String} (h : options.text? key = some s) :
    options.get? key = some (.text s) := by
  obtain ⟨value, hvalue, hread⟩ := Option.bind_eq_some_iff.1 h
  obtain ⟨text, htext, hblank⟩ := Option.bind_eq_some_iff.1 hread
  obtain ⟨-, rfl⟩ := Text.nonBlank?_eq_some_iff.1 hblank
  cases value with
  | text s =>
    obtain rfl := Option.some.inj htext
    exact hvalue
  | _ => cases htext

end OptionMap

/-- A file is where a path leads, and the path leads to it unless it is too long for any
operation. -/
structure Disk.HasFile (d : Disk) (p : Path) : Prop where
  there : ∃ content, d.tree.get? (p.spot d.current) = some (.file content)
  reached : View.isUnusable p = false → d.isFile p

namespace Release

/-- The options of its own for each release: those of its instance, if instances are listed. -/
def ownOptions (options : OptionMap) : List OptionMap :=
  ((instances? options).map fun instances => instances.map (·.2)).getD [[]]

variable {present : Path → Bool} {root : Path} {charts : ChartTable} {w : Workspace}
  {project : String} {p : Project} {key : String}

theorem forall₂_compileAll (options : OptionMap) :
    List.Forall₂ (fun own release => ∃ name,
        release = compile present root charts w project p key name (options.merge (some own)))
      (ownOptions options) (compileAll present root charts w project p key options) := by
  unfold ownOptions compileAll
  cases instances? options with
  | none => exact .cons ⟨project, rfl⟩ .nil
  | some instances =>
    simp only [Option.map_some, Option.getD_some]
    rw [List.forall₂_map_left_iff, List.forall₂_map_right_iff, List.forall₂_same]
    exact fun e _ => ⟨_, rfl⟩

theorem namespace_compile {options : OptionMap} {name ns : String}
    (h : options.get? "namespace" = some (.text ns)) (hns : Text.isBlank ns = false) :
    (compile present root charts w project p key name options).namespace_ = ns := by
  have htext : options.text? "namespace" = some ns := by
    rw [Switch.text?_eq_nonBlank? h, Text.nonBlank?_eq_some_iff]
    exact ⟨hns, rfl⟩
  have hnamespace : (compile present root charts w project p key name options).namespace_ =
      Settings.namespaceOf w key (Deployer.provider .helm) (options.text? "namespace") := rfl
  rw [hnamespace, Settings.namespaceOf_text?, htext, Option.getD_some]

/-- The chart of a release is in a folder and lists the values for its environment, and the value
files of the release are on a disk, seen from the folder of the workspace; nothing is said of its
secrets. -/
structure HasValues (r : Release) (d : Disk) (root : Path) (key : String) (chart : Path) :
    Prop where
  chart_eq : r.chart = .folder chart
  listed : ((chart.child "envs").child key).child "values.yaml" ∈ r.valueFiles
  files : ∀ file ∈ r.valueFiles, file ≠ secretsFile chart key → d.HasFile (root.join file)

theorem HasChartFiles.hasValues {r : Release} {options : OptionMap}
    (h : HasChartFiles present root charts p key options r) {chart : Path}
    (hchart : r.chart = .folder chart) {d : Disk} {workspace : Path}
    (hbase : d.HasFile (workspace.join (chart.child "values.yaml")))
    (hoverlay : d.HasFile (workspace.join (((chart.child "envs").child key).child "values.yaml"))) :
    r.HasValues d workspace key chart := by
  refine ⟨hchart, by simp [h.folder _ hchart], fun file hfile hvalues => ?_⟩
  rw [h.folder _ hchart, List.mem_append, List.mem_append] at hfile
  rcases hfile with (hfile | hfile) | hfile
  · split_ifs at hfile
    · exact List.mem_singleton.1 hfile ▸ hbase
    · cases hfile
  · exact List.mem_singleton.1 hfile ▸ hoverlay
  · split_ifs at hfile
    · exact absurd (List.mem_singleton.1 hfile) hvalues
    · cases hfile

end Release

namespace Switch

open Disk DiskTask

variable {m : Means} {r : Request} {disk : Disk} {o : Opening m r disk} {st : Staging o}
  {rt : Retirement st} {pr : Promotion rt} {rc : Recording pr} {workflows : List Path} {d : Disk}

/-! ### The document -/

/-- Each environment of the project has its configuration in the new spec. -/
theorem Opening.get?_configurations (o : Opening m r disk) {key : String}
    (h : key ∈ environmentsOf o.workspace o.project) :
    ∃ options, o.spec.configurations.get? key =
      some [(seedKey o.deployer, .text (seedValue o.workspace options key o.deployer))] := by
  refine ⟨r.answers.flatten.insert Settings.configPathKey (.text o.plan.configPath), ?_⟩
  exact (Dict.get?_eq_some_iff o.sorted_spec.2).2 (List.mem_map_of_mem h)

/-- A project that is read with what a switch has recorded of it. -/
structure Opening.Reread (o : Opening m r disk) (w : Workspace) (p : Project) (spec : Spec) :
    Prop where
  name : w.name = o.workspace.name
  found : w.projects.get? r.project = some p
  root : p.root = o.project.root
  buildKeys : p.buildKeys = o.project.buildKeys
  deploy : p.deploy = some spec
  kept : Document.SpecKept o.spec spec

/-- Whatever is loaded when a switch has ended, the project is there with its new spec. -/
theorem Disposal.reread (hm : m.Lawful) (hb : m.Builtin) (hd : m.LoadsDocument) (dp : Disposal rc)
    (h : (m.regenerate rc.workspace (Document.rootOf m.document)).on dp.disk = (.ok workflows, d))
    {w : Workspace} (hload : (m.load.on d).1 = .ok w) : ∃ p spec, o.Reread w p spec := by
  have hloaded : (Document.load m.document).on d = (.ok w, (m.load.on d).2) := by
    rw [← hd, ← hload]
  obtain ⟨content, hcontent, hw⟩ := Document.read_of_load hloaded
  obtain rfl : Document.write rc.workspace = content := by
    simpa using congrArg Prod.fst ((dp.read_end hm hb hd h).symm.trans hcontent)
  obtain ⟨-, content, hopened⟩ := o.read_document hd
  have hlaid := (Document.laidOut_of_read hopened).switched rc.switched
  obtain ⟨p', hredeployed, hupdated, -⟩ := rc.recorded_eq hd.loadsNormal
  obtain ⟨p, spec, hfound, hroot, hkeys, hdeploy, hkept⟩ :=
    Document.kept_of_read hlaid hw hupdated.project hredeployed.deploy
  have hname := congrArg Workspace.name hupdated.rest
  have hroot' := congrArg Project.root hredeployed.rest
  have hkeys' := congrArg Project.buildKeys hredeployed.rest
  exact ⟨p, spec, (Document.name_of_read hlaid hw).trans hname, hfound, hroot.trans hroot',
    hkeys.trans hkeys', hdeploy, hkept⟩

section Reread

variable {w : Workspace} {p : Project} {spec : Spec} (h : o.Reread w p spec)
include h

/-- The project resolves to the config path of the plan. -/
theorem Opening.Reread.configPathOf_eq : Settings.configPathOf p = o.plan.configPath :=
  configPathOf_of_get? h.deploy ((h.kept.options o.sorted_spec.1).texts _ _ o.get?_configPath)
    (isBlank_configPathFor o.project r)

theorem Opening.Reread.mem_environmentsOf {key : String} (hkey : key ∈ p.buildKeys) :
    key ∈ environmentsOf o.workspace o.project := by
  rw [environmentsOf, Dict.mem_sortedKeys, ← h.buildKeys]
  exact List.mem_append_right _ hkey

/-- The configuration of a key that the project builds holds the namespace that is seeded. -/
theorem Opening.Reread.get?_configuration (hdeployer : o.deployer = .helm) {key : String}
    (hkey : key ∈ p.buildKeys) : ∃ configuration, spec.configurations.get? key =
      some configuration ∧ configuration.Sorted ∧ configuration.keys = ["namespace"] ∧
      configuration.get? "namespace" = some (.text (w.name ++ "-" ++ key)) := by
  obtain ⟨options, hseeded⟩ := o.get?_configurations (h.mem_environmentsOf hkey)
  rw [hdeployer] at hseeded
  obtain ⟨configuration, hget, hkept⟩ :=
    h.kept.configurations o.sorted_spec.2 key _ hseeded (List.pairwise_singleton _ _)
  refine ⟨configuration, hget, hkept.sorted, hkept.keys, hkept.texts _ _ ?_⟩
  rw [h.name]
  rfl

/-- Under the options of any instance that has none of its own, the namespace is the seeded one. -/
theorem Opening.Reread.namespace_eq (hdeployer : o.deployer = .helm) {key : String}
    (hkey : key ∈ p.buildKeys) {own : OptionMap} (hown : own.get? "namespace" = none)
    (present : Path → Bool) (root : Path) (charts : ChartTable) (project name : String) :
    (Release.compile present root charts w project p key name
      ((spec.optionsFor key).merge (some own))).namespace_ = w.name ++ "-" ++ key := by
  obtain ⟨configuration, hget, hsorted, -, hnamespace⟩ := h.get?_configuration hdeployer hkey
  refine Release.namespace_compile ?_ ?_
  · rw [OptionMap.get?_merge_of_none hown, Spec.optionsFor, hget,
      OptionMap.get?_merge_some hsorted, hnamespace, Option.some_or]
  · have hdash : ("-".toList).all Text.isBlankChar = false := by decide
    simp only [Text.isBlank, String.toList_append, List.all_append, hdash, Bool.and_false,
      Bool.false_and]

/-- Under the options of any instance that has none of its own, the chart path is the answered
one. -/
theorem Opening.Reread.chartPath_eq (hdeployer : o.deployer = .helm) {key : String}
    (hkey : key ∈ p.buildKeys) {own : OptionMap} (hown : own.get? "chartPath" = none)
    {path : String} (hpath : r.answers.flatten.text? "chartPath" = some path) :
    ((spec.optionsFor key).merge (some own)).text? "chartPath" = some path := by
  obtain ⟨configuration, hget, -, hkeys, -⟩ := h.get?_configuration hdeployer hkey
  have hseeded : configuration.get? "chartPath" = none := by
    by_contra hne
    have hmem := Dict.mem_keys_iff.2 hne
    rw [hkeys] at hmem
    exact absurd hmem (by decide)
  have hanswer : o.spec.options.get? "chartPath" = some (.text path) := by
    change (Dict.insert _ _ _).get? _ = _
    rw [Dict.get?_insert, if_neg (by decide), OptionMap.get?_of_text? hpath]
  rw [← hpath]
  refine OptionMap.text?_congr ?_
  rw [OptionMap.get?_merge_of_none hown, Spec.optionsFor, hget,
    OptionMap.get?_merge_of_none hseeded, (h.kept.options o.sorted_spec.1).texts _ _ hanswer,
    OptionMap.get?_of_text? hpath]

end Reread

/-! ### The chart -/

/-- Seen from the workspace, the new folder is the config path in the folder of the project. -/
theorem Opening.join_newFolder (o : Opening m r disk) (rel : Path) :
    (Document.rootOf m.document).join
        ((Path.join ⟨o.project.root⟩ ⟨o.plan.configPath⟩).join rel) =
      o.plan.newFolder.join rel := by
  rw [← Path.join_assoc, ← Path.join_assoc]
  rfl

/-- The values of a chart, and those of each environment, are generated. -/
theorem Opening.exists_values (hdeployer : o.deployer = .helm) :
    (∃ file ∈ o.files, file.1 = ⟨"values.yaml"⟩) ∧
      ∀ key ∈ environmentsOf o.workspace o.project,
        ∃ file ∈ o.files, file.1 = DeployFiles.overlayPath "values.yaml" key := by
  rw [Opening.files, hdeployer]
  refine ⟨⟨_, List.mem_append_left _ (List.mem_cons_of_mem _ List.mem_cons_self), rfl⟩,
    fun key hkey => ?_⟩
  rw [← keys_configurations o] at hkey
  obtain ⟨⟨key, overlay⟩, hmem, rfl⟩ := List.mem_map.1 hkey
  exact ⟨_, List.mem_append_right _ (List.mem_map_of_mem hmem), rfl⟩

section Chart

variable (hm : m.Lawful) (hb : m.Builtin) (hp : disk.toView.Proper) (hu : m.Unforeseen r disk)
  (dp : Disposal rc)
  (h : (m.regenerate rc.workspace (Document.rootOf m.document)).on dp.disk = (.ok workflows, d))
include hm hb hp hu h

theorem Disposal.hasFile {file : Path × String} (hfile : file ∈ o.files)
    (hinward : file.1.IsInward) : d.HasFile (o.plan.newFolder.join file.1) := by
  refine ⟨?_, dp.isFile_inward_end hm hb hp hu h hfile hinward⟩
  rw [dp.current_eq_end hm hb h]
  exact dp.exists_inward_end hm hb hp hu h hfile hinward

/-- With the new folder as the chart, its values and those of an environment are there. -/
theorem Disposal.hasFile_values (hdeployer : o.deployer = .helm) {chart : Path}
    (hchart : chart = Path.join ⟨o.project.root⟩ ⟨o.plan.configPath⟩) {key : String}
    (hkey : key ∈ environmentsOf o.workspace o.project) (hname : Path.IsName key) :
    d.HasFile ((Document.rootOf m.document).join (chart.child "values.yaml")) ∧
      d.HasFile ((Document.rootOf m.document).join
        (((chart.child "envs").child key).child "values.yaml")) := by
  obtain ⟨⟨base, hbase, hbasePath⟩, hoverlays⟩ := o.exists_values hdeployer
  obtain ⟨overlay, hoverlay, hoverlayPath⟩ := hoverlays key hkey
  have hbaseInward : base.1.IsInward := hbasePath ▸ (Path.IsInner.ofName (by decide)).isInward
  have hoverlayInward : overlay.1.IsInward := hoverlayPath ▸
    DeployFiles.isInward_overlayPath (by decide) (DeployFiles.keyStays_of_isName hname)
  have hbaseThere := dp.hasFile hm hb hp hu h hbase hbaseInward
  have hoverlayThere := dp.hasFile hm hb hp hu h hoverlay hoverlayInward
  rw [hbasePath, ← o.join_newFolder, ← hchart] at hbaseThere
  rw [hoverlayPath, ← o.join_newFolder, ← hchart] at hoverlayThere
  have hpath : ((chart.child "envs").child key).child "values.yaml" =
      chart.join (DeployFiles.overlayPath "values.yaml" key) := by
    simp only [DeployFiles.overlayPath, Path.child, Path.join_assoc]
  rw [hpath]
  exact ⟨hbaseThere, hoverlayThere⟩

end Chart

/-- A switch to charts and what is compiled from the document that it leaves fit together. Under
each configuration that the project builds its releases are in the namespace of the workspace and
the configuration, but for instances with a namespace of their own. Where the answers give the
config path as the path of the chart, the value files of the releases are in the new folder, but
for instances with a chart of their own. -/
theorem releases_after_switch {m : Means} {r : Request} {disk : Disk} {report : Report}
    (hm : m.Lawful) (hb : m.Builtin) (hd : m.LoadsDocument)
    (h : (run m r disk).1 = .ok (.switched report)) (htarget : report.target = .helm)
    {w : Workspace} (hload : (m.load.on (run m r disk).2.disk).1 = .ok w) :
    ∃ p spec, w.projects.get? r.project = some p ∧ p.deploy = some spec ∧
      report.configFolder =
        ((Document.rootOf m.document).child p.root).child (Settings.configPathOf p) ∧
      ∀ (producers : Producers) (table : ChartTable) (present : Path → Bool) (root : Path),
        producers.deployers.get? "helm" = some (.charts table) → ∀ key ∈ p.buildKeys,
        ∃ rs, ReleasePlan.compile? producers present root w r.project p key =
            some (.releases rs) ∧
          List.Forall₂ (fun own release => own.get? "namespace" = none →
            release.namespace_ = w.name ++ "-" ++ key) (Release.ownOptions (spec.optionsFor key))
            rs ∧
          (disk.toView.Proper → m.Unforeseen r disk →
            r.answers.flatten.text? "chartPath" = some (Settings.configPathOf p) →
            Path.IsName key →
            List.Forall₂ (fun own release => own.get? "chartPath" = none →
              release.HasValues (run m r disk).2.disk (Document.rootOf m.document) key
                (Path.join ⟨p.root⟩ ⟨Settings.configPathOf p⟩))
              (Release.ownOptions (spec.optionsFor key)) rs) := by
  obtain ⟨o, st, rt, pr, rc, dp, workflows, hregenerate, rfl⟩ := exists_disposal h
  obtain ⟨p, spec, hreread⟩ := dp.reread hm hb hd hregenerate hload
  have hdeployer : o.deployer = .helm := htarget
  have hpath := hreread.configPathOf_eq
  refine ⟨p, spec, hreread.found, hreread.deploy, ?_, fun producers table present root htable key
    hkey => ?_⟩
  · rw [hpath, hreread.root]
    rfl
  have htool : spec.tool = "helm" := by
    rw [hreread.kept.tool]
    exact congrArg Deployer.id hdeployer
  refine ⟨_, Release.planned_charts hreread.deploy (htool ▸ htable) present root _ key,
    (Release.forall₂_compileAll _).imp ?_, fun hp hu hanswer hname =>
      (Release.forall₂_compileAll _).imp ?_⟩
  · rintro own _ ⟨name, rfl⟩ hown
    exact hreread.namespace_eq hdeployer hkey hown present root table _ _
  · rintro own _ ⟨name, rfl⟩ hown
    have hfiles : Release.HasChartFiles present root table p key
        ((spec.optionsFor key).merge (some own)) (Release.compile present root table w r.project p
          key name ((spec.optionsFor key).merge (some own))) := Release.hasChartFiles_compile _ _
    have hchart := hfiles.own _ (hreread.chartPath_eq hdeployer hkey hown hanswer)
    have hfolder : Path.join ⟨p.root⟩ ⟨Settings.configPathOf p⟩ =
        Path.join ⟨o.project.root⟩ ⟨o.plan.configPath⟩ := by
      rw [hreread.root, hpath]
    obtain ⟨hbase, hoverlay⟩ := dp.hasFile_values hm hb hp hu hregenerate hdeployer hfolder
      (hreread.mem_environmentsOf hkey) hname
    exact hfiles.hasValues hchart hbase hoverlay

/-! ### A chart in the new folder -/

namespace Small

/-- A workspace whose one project builds one configuration. -/
def building : Disk :=
  .ofTree ⟨[("w", .folder [
    ("keel.json", .file (.text ("\x7b\"projects\": \x7b\"web\": \x7b\"root\": \"web\", " ++
      "\"architect\": \x7b\"build\": \x7b\"builder\": \"docker\", " ++
        "\"configurations\": \x7b\"dev\": \x7b\x7d\x7d\x7d, " ++
          "\"deploy\": \x7b\"deployer\": \"firebase\"\x7d\x7d\x7d\x7d\x7d"))),
    ("web", .folder [("deploy", .folder [("firebase.json", .file (.text "\x7b\x7d"))])])])]⟩ ["w"]

/-- The folder of the project's own chart is among grouped answers. -/
def toOwnChart : Request :=
  { toHelm with answers := [("helm", .map [("chartPath", .text "deploy")])] }

/-- What is saved can be read again, and the project in it has one release in its configuration. -/
theorem saved_building (o : Opening (means {}) toOwnChart building) :
    Document.Fits o.spec ∧
      ∀ w, switchedWorkspace o.workspace o.project.name o.deployer o.spec = .ok w →
        (Document.toJson w).Faithful ∧ w.name = "workspace" ∧
        ∀ p ∈ w.projects.get? "web", p.root = "web" ∧ p.buildKeys = ["dev"] ∧
          Settings.configPathOf p = "deploy" ∧
          ∀ spec ∈ p.deploy, (Release.instances? (spec.optionsFor "dev")).isNone := by
  have hdeployer : o.deployer = .helm :=
    Except.ok.inj (o.read.symm.trans (Deployer.read_id .helm))
  have hsaved := o.of_loaded (P := fun w p =>
    let spec := specFor w p .helm toOwnChart
      (planFor (Document.rootOf (means {}).document) p toOwnChart).configPath
    Document.Fits spec ∧ ∀ w' ∈ (switchedWorkspace w p.name .helm spec).toOption,
      (Document.toJson w').Faithful ∧ w'.name = "workspace" ∧
        ∀ p ∈ w'.projects.get? "web", p.root = "web" ∧ p.buildKeys = ["dev"] ∧
          Settings.configPathOf p = "deploy" ∧
          ∀ spec ∈ p.deploy, (Release.instances? (spec.optionsFor "dev")).isNone)
    (by decide +kernel)
  have hspec : o.spec = specFor o.workspace o.project .helm toOwnChart o.plan.configPath :=
    hdeployer ▸ rfl
  rw [hspec, hdeployer]
  exact ⟨hsaved.1, fun w hw => hsaved.2 w (congrArg Except.toOption hw)⟩

end Small

/-- The release of a project that builds one configuration is in the seeded namespace, and its
value files are in the new folder. -/
theorem released_from_new_folder :
    ∃ w p release,
      ((Small.means {}).load.on (run (Small.means {}) Small.toOwnChart Small.building).2.disk).1 =
        .ok w ∧ w.projects.get? "web" = some p ∧
      ReleasePlan.compile? (.builtin .builtin) (fun _ => false) ⟨"."⟩ w "web" p "dev" =
        some (.releases [release]) ∧
      release.namespace_ = "workspace-dev" ∧
      release.HasValues (run (Small.means {}) Small.toOwnChart Small.building).2.disk ⟨"."⟩ "dev"
        ⟨"web/deploy"⟩ := by
  have hrun : (run (Small.means {}) Small.toOwnChart Small.building).1 =
      .ok (.switched (Small.environmentReport "dev")) := by decide +kernel
  have hunforeseen : (Small.means {}).Unforeseen Small.toOwnChart Small.building := fun o =>
    o.of_loaded (P := fun _ p => ∀ name ∈ [(Small.means {}).stagingName,
      (Small.means {}).retiredName], name ∉ Small.building.current ∧
        name ∉ (planFor (Document.rootOf (Small.means {}).document) p
          Small.toOwnChart).newFolder.segments) (by decide +kernel)
  have hanswers : ∀ e ∈ Small.toOwnChart.answers, e.2.Readable := by
    intro e he
    obtain rfl := List.mem_singleton.1 he
    exact ⟨1, OptionValue.toJson (.map [("chartPath", .text "deploy")]) |>.toSource, rfl⟩
  obtain ⟨o, st, rt, pr, rc, dp, workflows, hregenerate, -⟩ := exists_disposal hrun
  obtain ⟨hfits, hsaved⟩ := Small.saved_building o
  obtain ⟨hfaithful, hname, hproject⟩ := hsaved rc.workspace rc.switched
  have hload := ((dp.next_run (Small.lawful {}) (builtin_applyTo {} _) rfl hregenerate hanswers
    hfaithful).1 hfits).load
  have hloaded := congrArg Prod.fst hload
  obtain ⟨p, spec, hp, hspec, -, hreleases⟩ := releases_after_switch (Small.lawful {})
    (builtin_applyTo {} _) rfl hrun rfl hloaded
  obtain ⟨hroot, hkeys, hpath, hsingle⟩ := hproject p hp
  obtain ⟨rs, hplan, hnamespaces, hvalues⟩ := hreleases (.builtin .builtin) _ (fun _ => false)
    ⟨"."⟩ (Producers.get?_deployers_id .builtin .helm) "dev" (by simp [hkeys])
  rw [hroot, hpath] at hvalues
  have hvalues := hvalues (by decide) hunforeseen (by decide) (by decide)
  rw [Release.ownOptions, Option.isNone_iff_eq_none.1 (hsingle spec hspec)] at hnamespaces hvalues
  obtain _ | ⟨hnamespace, _ | _⟩ := hnamespaces
  obtain _ | ⟨hvalue, _⟩ := hvalues
  rw [hname] at hnamespace
  exact ⟨rc.workspace, p, _, hloaded, hp, hplan, (hnamespace rfl).trans (by decide), hvalue rfl⟩

end Switch
end Rollout

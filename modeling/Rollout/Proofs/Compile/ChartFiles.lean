import Mathlib.Tactic.Common
import Rollout.Proofs.Compile.Instances
import Rollout.Proofs.FileTree.Same

/-!
# Charts, value files and secrets

The options of a release say where its chart is: in a folder of the project's own, or where the
table of charts has it. The value files lie in the folder of the chart, and of the file system
nothing is asked but whether the secrets of the chart are there (`chart_files`).
-/

namespace Rollout.Release

/-- The name and the options of each release of a project. -/
def optionsOf (project : String) (options : OptionMap) : List (String × OptionMap) :=
  match instances? options with
  | none => [(project, options)]
  | some instances => instances.map fun (name, own) =>
    (project ++ "-" ++ name, options.merge (some own))

section

variable {present : Path → Bool} {root : Path} {charts : ChartTable} {w : Workspace}
  {project : String} {p : Project} {key : String}

theorem compileAll_eq_map (options : OptionMap) :
    compileAll present root charts w project p key options =
      (optionsOf project options).map fun e =>
        compile present root charts w project p key e.1 e.2 := by
  unfold compileAll optionsOf
  cases instances? options with
  | none => rfl
  | some instances =>
    rw [List.map_map]
    rfl

/-! ### The files of a chart -/

variable (present root charts p key) in
/-- The chart of a release with these options, and the files of the chart. -/
structure HasChartFiles (options : OptionMap) (r : Release) : Prop where
  /-- A path among the options leads from the folder of the project to its own chart. -/
  own : ∀ path, options.text? "chartPath" = some path →
    r.chart = .folder (Path.join ⟨p.root⟩ ⟨path⟩)
  listed : options.text? "chartPath" = none → r.chart = charts.forLanguage p.language
  remote : ∀ reference, r.chart = .remote reference → r.valueFiles = [] ∧ r.hasSecrets = false
  /-- From the values for all environments to the secrets of this one. -/
  folder : ∀ chart, r.chart = .folder chart →
    let values := (chart.child "envs").child key
    r.valueFiles =
      (if (options.text? "chartPath").isSome then [chart.child "values.yaml"] else []) ++
        [values.child "values.yaml"] ++
        (if present (root.join (values.child "secrets.yaml")) then [values.child "secrets.yaml"]
          else [])
  /-- The secrets are there exactly if one of the files is that of the secrets. -/
  secrets : r.hasSecrets = true ↔ ∃ chart, r.chart = .folder chart ∧
    ∃ file ∈ r.valueFiles, file.same (((chart.child "envs").child key).child "secrets.yaml")

theorem valuesFile_ne_secretsFile {values : Path} (folder : Path)
    (hsame : (values.child "values.yaml").same (folder.child "secrets.yaml")) : False := by
  have hspot := Path.spot_of_same (c := []) hsame
  rw [Path.spot_child (by decide), Path.spot_child (by decide)] at hspot
  exact absurd (List.append_inj_right' hspot rfl) (by decide)

/-- The file of the secrets is listed exactly if it is there. -/
theorem secrets_listed_iff (chart : Path) (own secret : Bool) :
    (∃ file ∈ valueFilesOf (.folder chart) key own secret, file.same (secretsFile chart key)) ↔
      secret = true := by
  constructor
  · rintro ⟨file, hfile, hsame⟩
    by_contra hsecret
    simp only [valueFilesOf, Bool.not_eq_true] at hfile hsecret
    subst hsecret
    have hvalues : ∃ folder : Path, file = folder.child "values.yaml" := by
      cases own <;> simp at hfile <;> grind
    obtain ⟨folder, rfl⟩ := hvalues
    exact valuesFile_ne_secretsFile _ hsame
  · rintro rfl
    exact ⟨secretsFile chart key, by simp [valueFilesOf], by simp [Path.same]⟩

theorem hasChartFiles_compile (name : String) (options : OptionMap) :
    HasChartFiles present root charts p key options
      (compile present root charts w project p key name options) := by
  have hown : ownChart? p options =
      (options.text? "chartPath").map fun path => Path.join ⟨p.root⟩ ⟨path⟩ := rfl
  have hlisted : (ownChart? p options).isSome = (options.text? "chartPath").isSome := by
    rw [hown, Option.isSome_map]
  rw [compile_eq]
  refine ⟨fun path hpath => ?_, fun hpath => ?_, fun reference hchart => ?_, fun chart hchart => ?_,
    ⟨fun hsecrets => ?_, ?_⟩⟩
  · simp only [chartOf, hown, hpath, Option.map_some]
  · simp only [chartOf, hown, hpath, Option.map_none]
  · simp only at hchart
    simp only [hchart, valueFilesOf, hasSecretsOf, and_self]
  · simp only at hchart
    simp only [hchart, valueFilesOf, hasSecretsOf, hlisted, secretsFile, valuesFolder]
  · simp only at hsecrets
    cases hchart : chartOf charts p options with
    | remote reference =>
      rw [hchart] at hsecrets
      cases hsecrets
    | folder chart =>
      simp only [hchart] at hsecrets ⊢
      exact ⟨chart, rfl, (secrets_listed_iff chart _ _).2 hsecrets⟩
  · rintro ⟨chart, hchart, hfile⟩
    simp only at hchart hfile ⊢
    rw [hchart] at hfile ⊢
    exact (secrets_listed_iff chart _ _).1 hfile

/-! ### What is asked of the file system -/

/-- The secrets of a release's chart are there for both or for neither; a chart that is elsewhere
has none. -/
def SameAnswer (present present' : Path → Bool) (root : Path) (key : String) (r : Release) : Prop :=
  ∀ chart, r.chart = .folder chart →
    present (root.join (((chart.child "envs").child key).child "secrets.yaml")) =
      present' (root.join (((chart.child "envs").child key).child "secrets.yaml"))

theorem compile_eq_of_sameAnswer {present' : Path → Bool} {name : String} {options : OptionMap}
    (h : SameAnswer present present' root key
      (compile present root charts w project p key name options)) :
    compile present root charts w project p key name options =
      compile present' root charts w project p key name options := by
  refine compile_congr rfl charts project name options fun r hr => ?_
  rw [List.mem_singleton.1 hr]
  exact h

end

/-- Every release of a project that is deployed with charts has its chart where its options, those
of its instance included, say, and no other files than those of the chart. A release changes with
the file system only if the secrets of its chart appear or go. -/
theorem chart_files {producers : Producers} {table : ChartTable} {w : Workspace} {p : Project}
    {spec : Spec} (hspec : p.deploy = some spec)
    (hcharts : producers.deployers.get? spec.tool = some (.charts table)) (present : Path → Bool)
    (root : Path) (name key : String) :
    ∃ rs, ReleasePlan.compile? producers present root w name p key = some (.releases rs) ∧
      List.Forall₂ (fun (e : String × OptionMap) r => r.name = e.1 ∧
          HasChartFiles present root table p key e.2 r)
        (optionsOf name (spec.options.merge (spec.configurations.get? key))) rs ∧
      ∀ present', ∃ rs', ReleasePlan.compile? producers present' root w name p key =
          some (.releases rs') ∧
        List.Forall₂ (fun r r' => SameAnswer present present' root key r → r = r') rs rs' := by
  have hplan (present : Path → Bool) :
      ReleasePlan.compile? producers present root w name p key = some (.releases
        ((optionsOf name (spec.options.merge (spec.configurations.get? key))).map fun e =>
          compile present root table w name p key e.1 e.2)) := by
    rw [planned_charts hspec hcharts, compileAll_eq_map]
    rfl
  refine ⟨_, hplan present, ?_, fun present' => ⟨_, hplan present', ?_⟩⟩
  · rw [List.forall₂_map_right_iff, List.forall₂_same]
    exact fun e _ => ⟨rfl, hasChartFiles_compile e.1 e.2⟩
  · rw [List.forall₂_map_left_iff, List.forall₂_map_right_iff, List.forall₂_same]
    exact fun e _ h => compile_eq_of_sameAnswer h

/-- Of two instances one has a chart of its own, with its secrets, and the other a chart that is
elsewhere. -/
theorem chart_files_of_two :
    let own : OptionValue := .map [("chartPath", .text "chart"), ("name", .text "eu")]
    let secrets : Path := ⟨"api/chart/envs/dev/secrets.yaml"⟩
    ∃ eu us, ReleasePlan.compile? (.builtin .builtin) (· = secrets) ⟨""⟩ default "api"
        (listed [own, .text "us"]) "dev" = some (.releases [eu, us]) ∧
      eu.chart = .folder ⟨"api/chart"⟩ ∧ secrets ∈ eu.valueFiles ∧ eu.hasSecrets ∧
      us.chart = .remote "oci://ghcr.io/keel-charts/go-service" ∧ us.valueFiles = [] ∧
      ∀ present, ∃ eu', ReleasePlan.compile? (.builtin .builtin) present ⟨""⟩ default "api"
        (listed [own, .text "us"]) "dev" = some (.releases [eu', us]) := by
  intro own secrets
  obtain ⟨rs, hplan, hfiles, hanswers⟩ := chart_files (w := default)
    (show (listed [own, .text "us"]).deploy = some (listing _) from rfl)
    (Producers.get?_deployers_id .builtin .helm) (· = secrets) ⟨""⟩ "api" "dev"
  have hoptions : optionsOf "api" ((listing [own, .text "us"]).optionsFor "dev") =
      [("api-eu", [("chartPath", .text "chart"), ("instances", .list [own, .text "us"])]),
        ("api-us", [("instances", .list [own, .text "us"])])] := rfl
  change List.Forall₂ _ (optionsOf "api" ((listing [own, .text "us"]).optionsFor "dev")) rs
    at hfiles
  rw [hoptions] at hfiles
  obtain _ | ⟨⟨-, heu⟩, _ | ⟨⟨-, hus⟩, _ | _⟩⟩ := hfiles
  rename_i eu us
  have hchart : eu.chart = .folder ⟨"api/chart"⟩ := (heu.own "chart" rfl).trans (by decide)
  have helsewhere : us.chart = .remote "oci://ghcr.io/keel-charts/go-service" :=
    (hus.listed rfl).trans (by decide)
  have hlisted : secrets ∈ eu.valueFiles := by
    rw [heu.folder _ hchart]
    decide
  refine ⟨eu, us, hplan, hchart, hlisted, heu.secrets.2 ⟨_, hchart, secrets, hlisted, by decide⟩,
    helsewhere, (hus.remote _ helsewhere).1, fun present => ?_⟩
  obtain ⟨rs', hplan', hsame⟩ := hanswers present
  obtain _ | ⟨-, _ | ⟨hsame, _ | _⟩⟩ := hsame
  rename_i eu' us'
  have hus' : us = us' := hsame fun chart hfolder => by
    rw [helsewhere] at hfolder
    cases hfolder
  rw [hus']
  exact ⟨eu', hplan'⟩

end Rollout.Release

import Mathlib.Tactic.Common
import Rollout.Proofs.Compile.Plan
import Rollout.Proofs.Compile.Registry
import Rollout.Proofs.Compile.Restriction

/-!
# Settings as shown and as used

The registry that is shown for a project in an environment is the one below which its image is
named. The namespace is shown by the environment and the provider alone, while a release asks the
options of the deploy spec first. So the two agree exactly where the options name no other
namespace (`shown_and_compiled`), and those of a project that was switched do.
-/

namespace Rollout

namespace Settings

variable {w : Workspace} {key : String} {p : Project}

/-- The registry that is shown for a project with a build spec. -/
theorem registry_resolve {build : Spec} (h : p.build = some build) (name : String)
    (overrides : Overrides) :
    (resolve w key name p overrides).registry =
      registryOf w key overrides.registry (build.optionsFor key) w.defaultRegistry := by
  simp [resolve, h]

theorem providerOf_eq {spec : Spec} {d : Deployer} (hspec : p.deploy = some spec)
    (hd : spec.deployer = .ok d) : providerOf p = d.provider := by
  simp [providerOf, Project.specDeployer?, hspec, hd, Except.toOption]

/-- Without one by hand the namespace is shown that the provider of the deployer gives. -/
theorem namespace_resolve {spec : Spec} {d : Deployer} (hspec : p.deploy = some spec)
    (hd : spec.deployer = .ok d) (name : String) (registry : Option String) :
    (resolve w key name p { registry }).namespace_ = namespaceOf w key d.provider none := by
  rw [← providerOf_eq hspec hd]
  rfl

/-- An option for the namespace counts before all else. -/
theorem namespaceOf_text? (provider : String) (o : OptionMap) (option : String) :
    namespaceOf w key provider (o.text? option) =
      (o.text? option).getD (namespaceOf w key provider none) := by
  have husable : (o.text? option).bind Text.nonBlank? = o.text? option := by
    have htext : o.text? option =
        ((o.get? option).bind OptionValue.asText?).bind Text.nonBlank? :=
      (Option.bind_assoc _ _ _).symm
    rw [htext, nonBlank?_nonBlank?]
  rw [namespaceOf, firstUsable, husable]
  cases o.text? option <;> rfl

end Settings

namespace Profile

section

variable {producers : Producers} {present : Path → Bool} {settings : CompileSettings}
  {w : Workspace} {selected : List String} {key name : String} {p : Project}

/-- A selection that chooses a project with an image under a key is compiled to a profile of the
key. -/
theorem compiled_chosen (hw : w.Normal) (hknown : ∀ other ∈ selected, other ∈ w.projects.keys)
    (hbuilt : ∃ e ∈ chosen w selected, declares e.2 key ∧ makesImage producers e.2) :
    Compiled producers present settings w selected key
      (compileKey producers present settings w (chosen w selected) key) := by
  refine ⟨_, compile_eq_profilesOf hw hknown, ?_, name_compileKey _ key⟩
  obtain ⟨profile, hprofile, hname⟩ := List.mem_map.1 (mem_names.2 hbuilt)
  have heq := profile_eq hprofile
  rw [hname] at heq
  exact heq ▸ hprofile

/-- A project that is chosen and builds under a key takes part. -/
theorem taking_eq (hp : w.projects.get? name = some p) (hkey : declares p key)
    (hselected : selected = [] ∨ name ∈ selected) :
    taking w selected key name = [(name, p)] := by
  rw [taking, hp, Option.map_some, Option.toList_some, List.filter_singleton, hkey, Bool.true_and]
  have hchosen : (selected.isEmpty || selected.contains name) = true := by
    simpa using hselected
  rw [hchosen, cond_true]

theorem mem_chosen (hp : w.projects.get? name = some p)
    (hselected : selected = [] ∨ name ∈ selected) : (name, p) ∈ chosen w selected := by
  refine List.mem_filter.2 ⟨Dict.mem_of_get? hp, ?_⟩
  simpa using hselected

/-- A project that lists no instances has one release at most: one exactly if its spec gives the
id of a deployer of charts as it is. -/
theorem releasesOf_builtin (table : ChartTable) {spec : Spec} (hspec : p.deploy = some spec)
    (hhelm : spec.deployer = .ok .helm)
    (hsingle : Release.instances? (spec.optionsFor key) = none) :
    releasesOf (.builtin table) present settings w key (name, p) =
      if spec.tool = Deployer.helm.id then
        [Release.compile present settings.workspaceRoot table w name p key name
          (spec.optionsFor key)]
      else [] := by
  have hplan : planOf (.builtin table) present settings w key (name, p) =
      ReleasePlan.compile? (.builtin table) present settings.workspaceRoot w name p key := rfl
  split_ifs with htool
  · rw [releasesOf, hplan, ReleasePlan.compile?]
    simp only [hspec, htool, Option.bind_eq_bind, Option.bind_some,
      Producers.get?_deployers_id]
    simp only [Producers.releaseProducerOf, Deployer.isChartBased, if_true, Release.compileAll,
      hsingle]
    rfl
  · have hnone : ∀ d : Deployer, spec.tool ≠ d.id := by
      intro d hd
      have hread : spec.deployer = .ok d := by
        rw [Spec.deployer, hd, Deployer.read_id]
        rfl
      obtain rfl : Deployer.helm = d := Except.ok.inj (hhelm.symm.trans hread)
      exact htool hd
    rw [releasesOf, hplan, (ReleasePlan.compile?_eq_none table present settings.workspaceRoot w name
      p key hspec).2 hnone]

/-- For a project with an image and a chart the profile of an environment has one artifact, named
below the registry that is shown for it. It has one release exactly if the spec gives the id of
its deployer as it is, and the release is in the namespace that is shown exactly if the options of
the spec name no other. -/
theorem shown_and_compiled (hw : w.Normal) (table : ChartTable) (present : Path → Bool)
    (hdefault : settings.defaultRegistry = none) (hp : w.projects.get? name = some p)
    (himage : makesImage (.builtin table) p) (hkey : declares p key) {spec : Spec}
    (hspec : p.deploy = some spec) (hhelm : spec.deployer = .ok .helm)
    (hsingle : Release.instances? (spec.optionsFor key) = none)
    (hselected : selected = [] ∨ name ∈ selected)
    (hknown : ∀ other ∈ selected, other ∈ w.projects.keys) :
    let shown := Settings.resolve w key name p { registry := settings.registryOverride }
    ∃ profile a, Compiled (.builtin table) present settings w selected key profile ∧
      (profile.part name).artifacts = [a] ∧
      a.imageName = Artifact.imageNameOf shown.registry name ∧
      ((∃ r, (profile.part name).releases = [r]) ↔ spec.tool = Deployer.helm.id) ∧
      ∀ r ∈ (profile.part name).releases, (r.namespace_ = shown.namespace_ ↔
        ∀ own, (spec.optionsFor key).text? "namespace" = some own → own = shown.namespace_) := by
  intro shown
  have hsome := isSome_artifactOf? (.builtin table) settings w key (name, p)
  rw [himage] at hsome
  obtain ⟨a, ha⟩ := Option.isSome_iff_exists.1 hsome
  obtain ⟨build, hbuild, hname⟩ := Artifact.imageName_of_compile? ha
  have hreleases : releasesOf (.builtin table) present settings w key (name, p) = _ :=
    releasesOf_builtin table hspec hhelm hsingle
  have hpart : (compileKey (.builtin table) present settings w (chosen w selected) key).part name =
      _ := part_compileKey hw.sorted selected key name
  rw [taking_eq hp hkey hselected] at hpart
  refine ⟨_, a, compiled_chosen hw hknown ⟨_, mem_chosen hp hselected, hkey, himage⟩, ?_, ?_,
    ?_, ?_⟩
  · rw [hpart]
    simp [ha]
  · rw [hname, hdefault, Settings.registry_resolve hbuild]
    rfl
  · rw [hpart]
    simp only [List.flatMap_singleton, hreleases]
    split_ifs with htool <;> simp [htool]
  · rw [hpart]
    simp only [List.flatMap_singleton, hreleases]
    intro r hr
    split_ifs at hr with htool
    · obtain rfl := List.mem_singleton.1 hr
      have hused : (Release.compile present settings.workspaceRoot table w name p key name
          (spec.optionsFor key)).namespace_ =
          ((spec.optionsFor key).text? "namespace").getD shown.namespace_ := by
        rw [Settings.namespace_resolve hspec hhelm]
        exact Settings.namespaceOf_text? _ _ _
      rw [hused]
      cases (spec.optionsFor key).text? "namespace" <;> simp
    · cases hr

end

/-- A service with an image and a chart, with options for its release in one environment. -/
def released (options : OptionMap) : Project :=
  { name := "api", root := "api", language := "go", localOptions := [], metadata := [], extra := []
    architect := {
      build := some ⟨"ko", [], [("dev", [])], none⟩
      deploy := some ⟨"helm", [], [("dev", options)], none⟩ } }

/-- The service alone, in an environment with a registry and a namespace. -/
def releasing (options : OptionMap) : Workspace :=
  { small with
    projects := [("api", released options)]
    environments := [("dev", { registry := some "reg.example", namespace_ := some "staging" })] }

theorem releasing_normal (options : OptionMap) : (releasing options).Normal := by
  refine ⟨fun key p h => ?_, List.pairwise_singleton _ _⟩
  simp only [releasing, Dict.get?] at h
  split_ifs at h with hapi
  rw [← hapi, ← Option.some.inj h]
  rfl

/-- Without options of its own the service is released in the namespace of the environment. -/
theorem shown_namespace_used :
    let shown := Settings.resolve (releasing []) "dev" "api" (released []) {}
    (shown.registry, shown.namespace_) = ("reg.example", "staging") ∧
      ∃ profile a, Compiled (.builtin .builtin) (fun _ => false) {} (releasing []) [] "dev" profile ∧
        (profile.part "api").artifacts = [a] ∧
        a.imageName = Artifact.imageNameOf shown.registry "api" ∧
        (∃ r, (profile.part "api").releases = [r]) ∧
        ∀ r ∈ (profile.part "api").releases, r.namespace_ = shown.namespace_ := by
  refine ⟨by decide +kernel, ?_⟩
  have hdefault : ({} : CompileSettings).defaultRegistry = none := rfl
  have hp : (releasing []).projects.get? "api" = some (released []) := rfl
  have hkey : declares (released []) "dev" := by decide
  have hall : ([] : List String) = [] ∨ "api" ∈ [] := .inl rfl
  obtain ⟨profile, a, hcompiled, hartifacts, hname, hone, hnamespace⟩ :=
    shown_and_compiled (releasing_normal []) .builtin (fun _ => false) hdefault hp
      (by decide +kernel) hkey rfl rfl rfl hall (by simp)
  exact ⟨profile, a, hcompiled, hartifacts, hname, hone.2 rfl, fun r hr =>
    (hnamespace r hr).2 nofun⟩

/-- The options for one environment that a switch leaves name the namespace of the release, and
another is shown. -/
theorem shown_namespace_unused :
    let options : OptionMap := [("namespace", .text "acme-dev")]
    (Settings.resolve (releasing options) "dev" "api" (released options) {}).namespace_ =
        "staging" ∧
      (compile (.builtin .builtin) (fun _ => false) {} (releasing options) []).toOption.map
        (List.map fun profile => profile.deployment.releases.map (·.namespace_)) =
          some [["acme-dev"]] := by
  exact ⟨by decide +kernel, by decide +kernel⟩

end Profile
end Rollout

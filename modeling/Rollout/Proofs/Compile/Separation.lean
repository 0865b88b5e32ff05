import Rollout.Proofs.Compile.Profile

/-!
# Environments and projects are separate

The part of a project in a profile depends only on what a workspace says of the project under the
key of the profile, on the environment of that key and on two defaults (`Seen`), and of the file
system only on the secrets of the project's charts. Two compilations that agree in these give the
project the same part, whatever else they differ in, and so an edit elsewhere changes nothing in
it (`part_separate`).
-/

namespace Rollout

/-- What is seen of a spec under a key. -/
structure SeenSpec where
  tool : String
  options : OptionMap
  configuration : Option OptionMap

def Spec.seen (s : Spec) (key : String) : SeenSpec :=
  ⟨s.tool, s.options, s.configurations.get? key⟩

def SeenSpec.optionsFor (s : SeenSpec) : OptionMap := s.options.merge s.configuration

/-- What is seen of a workspace from a project under a key. -/
structure Seen where
  root : String
  language : String
  build : Option SeenSpec
  deploy : Option SeenSpec
  environment : Option EnvironmentDefaults
  clusterNamespace : Option String
  registry : Option String

def Workspace.seenFrom (w : Workspace) (key : String) (p : Project) : Seen :=
  { root := p.root
    language := p.language
    build := p.build.map (·.seen key)
    deploy := p.deploy.map (·.seen key)
    environment := w.environments.get? key
    clusterNamespace := (w.infrastructure.get? Settings.clusterProvider).bind (·.namespace_)
    registry := w.build.registry }

/-- The view from a project by name, if the workspace has it. -/
def Workspace.seen (w : Workspace) (key name : String) : Option Seen :=
  (w.projects.get? name).map (w.seenFrom key)

/-! ### The view determines the contributions -/

section

variable {w w' : Workspace} {key : String} {p p' : Project}

theorem seenSpec_eq {s s' : Option Spec} (h : s.map (·.seen key) = s'.map (·.seen key)) :
    (s = none ∧ s' = none) ∨ ∃ t t', s = some t ∧ s' = some t' ∧ t.tool = t'.tool ∧
      t.optionsFor key = t'.optionsFor key ∧
      (t.configurations.get? key = t'.configurations.get? key) := by
  cases s with
  | none =>
    cases s' with
    | none => exact .inl ⟨rfl, rfl⟩
    | some t' => cases h
  | some t =>
    cases s' with
    | none => cases h
    | some t' =>
      have heq : t.seen key = t'.seen key := Option.some.inj h
      refine .inr ⟨t, t', rfl, rfl, congrArg SeenSpec.tool heq, ?_,
        congrArg SeenSpec.configuration heq⟩
      exact congrArg SeenSpec.optionsFor heq

theorem registryOf_congr (h : w.seenFrom key p = w'.seenFrom key p') (explicit : Option String)
    (options : OptionMap) (default : Option String) :
    Settings.registryOf w key explicit options (default.or w.defaultRegistry) =
      Settings.registryOf w' key explicit options (default.or w'.defaultRegistry) := by
  have henvironment := congrArg Seen.environment h
  have hregistry := congrArg Seen.registry h
  simp only [Workspace.seenFrom] at henvironment hregistry
  simp only [Settings.registryOf, Settings.fromEnvironment, Workspace.defaultRegistry,
    henvironment, hregistry]

theorem namespaceOf_congr (h : w.seenFrom key p = w'.seenFrom key p') (explicit : Option String) :
    Settings.namespaceOf w key (Deployer.provider .helm) explicit =
      Settings.namespaceOf w' key (Deployer.provider .helm) explicit := by
  have henvironment := congrArg Seen.environment h
  have hnamespace := congrArg Seen.clusterNamespace h
  simp only [Workspace.seenFrom, Settings.clusterProvider] at henvironment hnamespace
  simp only [Settings.namespaceOf, Settings.fromEnvironment, Settings.fromProvider,
    Deployer.provider, henvironment, hnamespace]

theorem buildTarget?_congr (h : w.seenFrom key p = w'.seenFrom key p')
    (producer : ArtifactProducer) :
    Artifact.buildTarget? producer p = Artifact.buildTarget? producer p' := by
  have hroot : p.root = p'.root := congrArg Seen.root h
  have hlanguage : p.language = p'.language := congrArg Seen.language h
  unfold Artifact.buildTarget?
  rw [hroot, hlanguage]

theorem Artifact.compile?_congr (h : w.seenFrom key p = w'.seenFrom key p')
    (producers : Producers) (settings : CompileSettings) (name : String) :
    Artifact.compile? producers w name p key settings =
      Artifact.compile? producers w' name p' key settings := by
  unfold Artifact.compile?
  rcases seenSpec_eq (congrArg Seen.build h) with ⟨hs, hs'⟩ | ⟨t, t', hs, hs', htool, hoptions, -⟩
  · rw [hs, hs']
    rfl
  · rw [hs, hs']
    simp only [Option.bind_eq_bind, Option.bind_some, htool, hoptions, registryOf_congr h,
      buildTarget?_congr h]

/-- The secrets of the charts of some releases are there for both or for neither. -/
def SameSecrets (present present' : Path → Bool) (root : Path) (key : String)
    (releases : List Release) : Prop :=
  ∀ r ∈ releases, ∀ path, r.chart = .folder path →
    present (root.join (Release.secretsFile path key)) =
      present' (root.join (Release.secretsFile path key))

/-- The chart of a release with these options. -/
def Release.chartOf (charts : ChartTable) (p : Project) (options : OptionMap) : Chart :=
  match ownChart? p options with
  | some path => .folder path
  | none => charts.forLanguage p.language

/-- Whether the secrets of a chart are there. -/
def Release.hasSecretsOf (present : Path → Bool) (root : Path) (key : String) : Chart → Bool
  | .folder path => present (root.join (secretsFile path key))
  | .remote _ => false

theorem Release.compile_eq (present : Path → Bool) (root : Path) (charts : ChartTable)
    (w : Workspace) (project : String) (p : Project) (key name : String) (options : OptionMap) :
    let chart := chartOf charts p options
    let secret := hasSecretsOf present root key chart
    Release.compile present root charts w project p key name options =
      { name, project, chart
        namespace_ :=
          Settings.namespaceOf w key (Deployer.provider .helm) (options.text? "namespace")
        valueFiles := valueFilesOf chart key (ownChart? p options).isSome secret
        setValues := setValuesOf name options
        hasSecrets := secret } := rfl

theorem Release.compile_congr (h : w.seenFrom key p = w'.seenFrom key p')
    {present present' : Path → Bool} {root : Path} (charts : ChartTable)
    (project name : String) (options : OptionMap)
    (hsecrets : SameSecrets present present' root key
      [Release.compile present root charts w project p key name options]) :
    Release.compile present root charts w project p key name options =
      Release.compile present' root charts w' project p' key name options := by
  have hroot : p.root = p'.root := congrArg Seen.root h
  have hlanguage : p.language = p'.language := congrArg Seen.language h
  have hown : ownChart? p options = ownChart? p' options := by rw [ownChart?, ownChart?, hroot]
  have hchart : chartOf charts p options = chartOf charts p' options := by
    rw [chartOf, chartOf, hown, hlanguage]
  have hsecret : hasSecretsOf present root key (chartOf charts p options) =
      hasSecretsOf present' root key (chartOf charts p options) := by
    cases hfolder : chartOf charts p options with
    | remote reference => rfl
    | folder path => exact hsecrets _ (List.mem_singleton.2 rfl) path hfolder
  rw [Release.compile_eq, Release.compile_eq, hsecret, hchart, hown, namespaceOf_congr h]

theorem Release.compileAll_congr (h : w.seenFrom key p = w'.seenFrom key p')
    {present present' : Path → Bool} {root : Path} (charts : ChartTable)
    (project : String) (options : OptionMap)
    (hsecrets : SameSecrets present present' root key
      (Release.compileAll present root charts w project p key options)) :
    Release.compileAll present root charts w project p key options =
      Release.compileAll present' root charts w' project p' key options := by
  unfold Release.compileAll at hsecrets ⊢
  cases hinstances : Release.instances? options with
  | none =>
    rw [hinstances] at hsecrets
    simp only [Release.compile_congr h charts project project options hsecrets]
  | some instances =>
    rw [hinstances] at hsecrets
    refine List.map_congr_left fun i hi => ?_
    refine Release.compile_congr h charts project _ _ fun r hr => ?_
    rw [List.mem_singleton.1 hr]
    exact hsecrets _ (List.mem_map_of_mem hi)

theorem ReleasePlan.compile?_congr (h : w.seenFrom key p = w'.seenFrom key p')
    {present present' : Path → Bool} {root : Path} (producers : Producers) (name : String)
    (hsecrets : ∀ rs, ReleasePlan.compile? producers present root w name p key =
      some (.releases rs) → SameSecrets present present' root key rs) :
    ReleasePlan.compile? producers present root w name p key =
      ReleasePlan.compile? producers present' root w' name p' key := by
  unfold ReleasePlan.compile? at hsecrets ⊢
  rcases seenSpec_eq (congrArg Seen.deploy h) with ⟨hs, hs'⟩ | ⟨t, t', hs, hs', htool, hoptions, -⟩
  · rw [hs, hs']
    rfl
  · rw [hs] at hsecrets
    rw [hs, hs']
    simp only [Option.bind_eq_bind, Option.bind_some, htool, hoptions] at hsecrets ⊢
    cases hproducer : producers.deployers.get? t'.tool with
    | none => rfl
    | some producer =>
      cases producer with
      | setup d => rfl
      | charts table =>
        rw [hproducer] at hsecrets
        simp only [Option.bind_some,
          Release.compileAll_congr h table name _ (hsecrets _ rfl)]

end

/-- A plan for a project and no other. -/
def ReleasePlan.IsOf (name : String) : ReleasePlan → Prop
  | .releases rs => ∀ r ∈ rs, r.project = name
  | .setup s => s.project = name

/-- The releases of a plan are made for its project and key. -/
theorem ReleasePlan.exists_of_mem {producers : Producers} {present : Path → Bool} {root : Path}
    {w : Workspace} {name : String} {p : Project} {key : String} {rs : List Release}
    (h : compile? producers present root w name p key = some (.releases rs)) :
    ∀ r ∈ rs, ∃ charts own options, r =
      Release.compile present root charts w name p key own options := by
  simp only [compile?, bind, pure, Option.bind_eq_some_iff] at h
  obtain ⟨spec, -, producer, -, h⟩ := h
  cases producer with
  | setup d => cases h
  | charts table =>
    cases h
    intro r hr
    unfold Release.compileAll at hr
    split at hr
    · exact ⟨_, _, _, List.mem_singleton.1 hr⟩
    · obtain ⟨i, -, rfl⟩ := List.mem_map.1 hr
      exact ⟨_, _, _, rfl⟩

theorem ReleasePlan.isOf_compile? {producers : Producers} {present : Path → Bool} {root : Path}
    {w : Workspace} {name : String} {p : Project} {key : String} {plan : ReleasePlan}
    (h : compile? producers present root w name p key = some plan) : plan.IsOf name := by
  cases plan with
  | releases rs =>
    intro r hr
    obtain ⟨charts, own, options, rfl⟩ := exists_of_mem h r hr
    rfl
  | setup s =>
    simp only [compile?, bind, pure, Option.bind_eq_some_iff] at h
    obtain ⟨spec, -, producer, -, h⟩ := h
    cases producer <;> cases h
    rfl

namespace Profile

/-! ### The part of a project -/

/-- The part of a project in a profile. -/
structure Part where
  artifacts : List Artifact
  releases : List Release
  setups : List ProviderSetup
deriving DecidableEq

def part (profile : Profile) (name : String) : Part :=
  { artifacts := profile.artifacts.filter (·.project = name)
    releases := profile.deployment.releases.filter (·.project = name)
    setups := profile.deployment.providerSetup.filter (·.project = name) }

section

variable {producers : Producers} {present : Path → Bool} {settings : CompileSettings}
  {w : Workspace} {key : String}

theorem project_of_mem_releasesOf {e : String × Project} {r : Release}
    (h : r ∈ releasesOf producers present settings w key e) : r.project = e.1 := by
  unfold releasesOf planOf at h
  split at h
  · rename_i rs hplan
    exact ReleasePlan.isOf_compile? hplan r h
  · cases h

theorem project_of_mem_setupsOf {e : String × Project} {s : ProviderSetup}
    (h : s ∈ setupsOf producers present settings w key e) : s.project = e.1 := by
  unfold setupsOf planOf at h
  split at h
  · rename_i s' hplan
    rw [List.mem_singleton.1 h]
    exact ReleasePlan.isOf_compile? hplan
  · cases h

/-- Of what entries contribute, the part with kept owners is what the kept entries contribute. -/
theorem filter_flatMap_owner {α β : Type} {contribution : String × α → List β}
    (kept : String → Bool) (owner : β → String)
    (howner : ∀ e, ∀ b ∈ contribution e, owner b = e.1) (es : List (String × α)) :
    (es.flatMap contribution).filter (fun b => kept (owner b)) =
      (es.filter fun e => kept e.1).flatMap contribution := by
  induction es with
  | nil => rfl
  | cons e es ih =>
    rw [List.flatMap_cons, List.filter_append, ih]
    by_cases hkept : kept e.1 = true
    · rw [List.filter_cons, if_pos hkept, List.flatMap_cons,
        List.filter_eq_self.2 fun b hb => by rwa [howner e b hb]]
    · rw [List.filter_cons, if_neg hkept,
        List.filter_eq_nil_iff.2 fun b hb => by rwa [howner e b hb]]
      rfl

/-- The entry of a project, if it is chosen and builds under a key. -/
def taking (w : Workspace) (selected : List String) (key name : String) : Dict Project :=
  List.filter (fun e => declares e.2 key && (selected.isEmpty || selected.contains e.1))
    ((w.projects.get? name).map (name, ·)).toList

theorem filter_building (hw : w.projects.Sorted) (selected : List String) (key name : String) :
    List.filter (fun e => e.1 = name) (building key (chosen w selected)) =
      taking w selected key name := by
  rw [taking, ← Dict.filter_key hw.nodup_keys, building, chosen, List.filter_filter,
    List.filter_filter, List.filter_filter]
  exact List.filter_congr fun e _ => by grind

/-- What a project takes part with in the profile of a key. -/
theorem part_compileKey (hw : w.projects.Sorted) (selected : List String) (key name : String) :
    (compileKey producers present settings w (chosen w selected) key).part name =
      { artifacts := (taking w selected key name).filterMap (artifactOf? producers settings w key)
        releases := (taking w selected key name).flatMap
          (releasesOf producers present settings w key)
        setups := (taking w selected key name).flatMap
          (setupsOf producers present settings w key) } := by
  rw [compileKey_eq, part, ← filter_building hw]
  simp only [List.filterMap_eq_flatMap_toList]
  rw [filter_flatMap_owner (· = name) Artifact.project,
    filter_flatMap_owner (· = name) Release.project,
    filter_flatMap_owner (· = name) ProviderSetup.project]
  · exact fun e s hs => project_of_mem_setupsOf hs
  · exact fun e r hr => project_of_mem_releasesOf hr
  · exact fun e a ha => project_of_artifactOf? producers settings w (Option.mem_toList.1 ha)

theorem declares_iff {p : Project} :
    declares p key = true ↔ (p.build.bind (·.configurations.get? key)) ≠ none := by
  unfold declares Project.buildKeys
  cases p.build with
  | none => simp
  | some build => simp [← Dict.mem_keys_iff]

theorem declares_congr {w' : Workspace} {p p' : Project}
    (h : w.seenFrom key p = w'.seenFrom key p') : declares p key = declares p' key := by
  rw [Bool.eq_iff_iff, declares_iff, declares_iff]
  rcases seenSpec_eq (congrArg Seen.build h) with ⟨hs, hs'⟩ | ⟨t, t', hs, hs', -, -, hkey⟩
  · rw [hs, hs']
  · rw [hs, hs', Option.bind_some, Option.bind_some, hkey]

/-- The secrets of a project's charts under a key are there for both file systems or for
neither. -/
def AgreeOnSecrets (producers : Producers) (settings : CompileSettings) (w : Workspace)
    (key name : String) (present present' : Path → Bool) : Prop :=
  ∀ p, w.projects.get? name = some p →
    SameSecrets present present' settings.workspaceRoot key
      (releasesOf producers present settings w key (name, p))

theorem planOf_congr {present' : Path → Bool} {w' : Workspace} {name : String} {p p' : Project}
    (h : w.seenFrom key p = w'.seenFrom key p')
    (hsecrets : SameSecrets present present' settings.workspaceRoot key
      (releasesOf producers present settings w key (name, p))) :
    planOf producers present settings w key (name, p) =
      planOf producers present' settings w' key (name, p') := by
  refine ReleasePlan.compile?_congr h producers name fun rs hrs => ?_
  have hplan : planOf producers present settings w key (name, p) = some (.releases rs) := hrs
  rwa [releasesOf, hplan] at hsecrets

theorem part_congr {present' : Path → Bool} {w' : Workspace} (hw : w.Normal) (hw' : w'.Normal)
    {selected selected' : List String} {name : String}
    (hseen : w.seen key name = w'.seen key name)
    (hsecrets : AgreeOnSecrets producers settings w key name present present')
    (hselected : (selected.isEmpty || selected.contains name) =
      (selected'.isEmpty || selected'.contains name)) :
    (compileKey producers present settings w (chosen w selected) key).part name =
      (compileKey producers present' settings w' (chosen w' selected') key).part name := by
  rw [part_compileKey hw.sorted, part_compileKey hw'.sorted]
  unfold Workspace.seen at hseen
  unfold taking
  cases hproject : w.projects.get? name with
  | none =>
    rw [hproject, Option.map_none, eq_comm, Option.map_eq_none_iff] at hseen
    simp only [hseen, Option.map_none, Option.toList_none, List.filter_nil, List.filterMap_nil,
      List.flatMap_nil]
  | some p =>
    rw [hproject, Option.map_some, eq_comm, Option.map_eq_some_iff] at hseen
    obtain ⟨p', hproject', hview⟩ := hseen
    have hview : w.seenFrom key p = w'.seenFrom key p' := hview.symm
    rw [hproject']
    simp only [Option.map_some, Option.toList_some, List.filter_singleton]
    rw [declares_congr hview, hselected]
    cases declares p' key && (selected'.isEmpty || selected'.contains name) with
    | false => simp only [cond_false, List.filterMap_nil, List.flatMap_nil]
    | true =>
      have hplan : planOf producers present settings w key (name, p) =
          planOf producers present' settings w' key (name, p') :=
        planOf_congr hview (hsecrets p hproject)
      have hartifact : artifactOf? producers settings w key (name, p) =
          artifactOf? producers settings w' key (name, p') :=
        Artifact.compile?_congr hview producers settings name
      simp only [List.filterMap_cons, List.filterMap_nil, List.flatMap_cons, List.flatMap_nil,
        cond_true, releasesOf, setupsOf, hplan, hartifact]

end

end Profile

/-! ### Edits elsewhere -/

namespace Workspace

/-- A workspace in which a project is replaced, added or dropped. -/
def setProject (w : Workspace) (name : String) (p : Option Project) : Workspace :=
  { w with projects := w.projects.set name (p.map fun p => { p with name }) }

/-- An edit of one environment, of one project, or of the options that a project's specs have
under one key; what is not given is dropped. -/
inductive Edit where
  | environment (key : String) (defaults : Option EnvironmentDefaults)
  | project (name : String) (p : Option Project)
  | buildOptions (name key : String) (options : Option OptionMap)
  | deployOptions (name key : String) (options : Option OptionMap)

namespace Edit

def setOptions (key : String) (options : Option OptionMap) (s : Spec) : Spec :=
  { s with configurations := s.configurations.set key options }

def apply (w : Workspace) : Edit → Workspace
  | environment key defaults => { w with environments := w.environments.set key defaults }
  | project name p => w.setProject name p
  | buildOptions name key options => w.setProject name <| (w.projects.get? name).map fun p =>
    { p with architect.build := p.build.map (setOptions key options) }
  | deployOptions name key options => w.setProject name <| (w.projects.get? name).map fun p =>
    { p with architect.deploy := p.deploy.map (setOptions key options) }

/-- The edit is of another environment, of another project or of another key. -/
def Elsewhere (key name : String) : Edit → Prop
  | environment other _ => other ≠ key
  | project other _ => other ≠ name
  | buildOptions other otherKey _ => other ≠ name ∨ otherKey ≠ key
  | deployOptions other otherKey _ => other ≠ name ∨ otherKey ≠ key

end Edit

theorem get?_setProject (w : Workspace) (name other : String) (p : Option Project) :
    (w.setProject name p).projects.get? other =
      if name = other then p.map fun p => { p with name } else w.projects.get? other :=
  Dict.get?_set other name _ _

theorem normal_setProject {w : Workspace} (hw : w.Normal) (name : String) (p : Option Project) :
    (w.setProject name p).Normal := by
  refine ⟨fun key q hq => ?_, hw.sorted.set name _⟩
  rw [get?_setProject] at hq
  split at hq
  · rename_i hname
    obtain ⟨p, -, rfl⟩ := Option.map_eq_some_iff.1 hq
    exact hname
  · exact hw.named key q hq

theorem seen_setProject_of_ne (w : Workspace) {name other : String} (h : other ≠ name)
    (key : String) (p : Option Project) : (w.setProject other p).seen key name = w.seen key name := by
  unfold seen
  rw [get?_setProject, if_neg h]
  rfl

/-- Replacing a project by one that looks the same is not seen. -/
theorem seen_setProject_map (w : Workspace) (key name other : String) {f : Project → Project}
    (hf : other = name → ∀ p, w.seenFrom key (f p) = w.seenFrom key p) :
    (w.setProject other ((w.projects.get? other).map f)).seen key name = w.seen key name := by
  by_cases hother : other = name
  · subst hother
    unfold seen
    rw [get?_setProject, if_pos rfl, Option.map_map, Option.map_map]
    exact congrArg (Option.map · _) (funext fun p => hf rfl p)
  · exact seen_setProject_of_ne w hother key _

theorem seen_setOptions {key other : String} (h : other ≠ key) (options : Option OptionMap)
    (s : Spec) : (Edit.setOptions other options s).seen key = s.seen key := by
  simp only [Spec.seen, Edit.setOptions, Dict.get?_set, if_neg h]

theorem normal_apply {w : Workspace} (hw : w.Normal) (edit : Edit) : (edit.apply w).Normal := by
  cases edit with
  | environment key defaults => exact ⟨hw.named, hw.sorted⟩
  | project name p => exact normal_setProject hw name p
  | buildOptions name key options => exact normal_setProject hw name _
  | deployOptions name key options => exact normal_setProject hw name _

theorem seen_apply (w : Workspace) {key name : String} {edit : Edit}
    (h : edit.Elsewhere key name) : (edit.apply w).seen key name = w.seen key name := by
  cases edit with
  | environment other defaults =>
    unfold seen seenFrom
    simp only [Edit.apply, Dict.get?_set, if_neg (show ¬ other = key from h)]
  | project other p => exact seen_setProject_of_ne w h key p
  | buildOptions other otherKey options =>
    refine seen_setProject_map w key name other fun hother p => ?_
    have hkey : otherKey ≠ key := h.resolve_left (not_not_intro hother)
    simp only [seenFrom, Project.build, Project.deploy, Option.map_map, Function.comp_def,
      seen_setOptions hkey]
  | deployOptions other otherKey options =>
    refine seen_setProject_map w key name other fun hother p => ?_
    have hkey : otherKey ≠ key := h.resolve_left (not_not_intro hother)
    simp only [seenFrom, Project.build, Project.deploy, Option.map_map, Function.comp_def,
      seen_setOptions hkey]

/-- A sequence of edits elsewhere keeps a workspace normal and the view as it was. -/
theorem normal_and_seen_applyAll {w : Workspace} (hw : w.Normal) {key name : String}
    {edits : List Edit} (h : ∀ edit ∈ edits, edit.Elsewhere key name) :
    (edits.foldl Edit.apply w).Normal ∧
      (edits.foldl Edit.apply w).seen key name = w.seen key name := by
  induction edits generalizing w with
  | nil => exact ⟨hw, rfl⟩
  | cons edit edits ih =>
    obtain ⟨hnormal, hseen⟩ := ih (normal_apply hw edit) fun e he => h e (List.mem_cons_of_mem _ he)
    exact ⟨hnormal, hseen.trans (seen_apply w (h edit List.mem_cons_self))⟩

end Workspace

namespace Profile

variable {producers : Producers} {settings : CompileSettings} {present present' : Path → Bool}
  {w w' : Workspace} {selected selected' : List String} {key name : String}
  {profile profile' : Profile}

/-- A compilation gives this profile for a key. -/
def Compiled (producers : Producers) (present : Path → Bool) (settings : CompileSettings)
    (w : Workspace) (selected : List String) (key : String) (profile : Profile) : Prop :=
  ∃ profiles, compile producers present settings w selected = .ok profiles ∧
    profile ∈ profiles ∧ profile.name = key

theorem Compiled.eq_compileKey (hw : w.Normal)
    (h : Compiled producers present settings w selected key profile) :
    profile = compileKey producers present settings w (chosen w selected) key := by
  obtain ⟨profiles, hcompile, hmem, rfl⟩ := h
  rcases select_cases hw.sorted selected with ⟨hselect, -⟩ | ⟨name, hselect, -, -⟩
  · rw [compile_ok hselect] at hcompile
    cases hcompile
    exact profile_eq hmem
  · rw [compile_error hselect] at hcompile
    cases hcompile

/-- Where two workspaces look the same from a project under a key, the secrets of its charts are
there for both file systems or for neither, and both selections choose the project or neither
does, the profiles of the key have the same part of the project. So has the profile after any
edits of other environments, other projects and other keys. -/
theorem part_separate (hw : w.Normal) (hw' : w'.Normal)
    (hseen : w.seen key name = w'.seen key name)
    (hsecrets : AgreeOnSecrets producers settings w key name present present')
    (hselected : (selected.isEmpty || selected.contains name) =
      (selected'.isEmpty || selected'.contains name))
    (h : Compiled producers present settings w selected key profile)
    (h' : Compiled producers present' settings w' selected' key profile') :
    profile.part name = profile'.part name ∧
      ∀ edits : List Workspace.Edit, (∀ edit ∈ edits, edit.Elsewhere key name) →
        ∀ edited, Compiled producers present settings (edits.foldl Workspace.Edit.apply w) selected
          key edited → edited.part name = profile.part name := by
  have hpart := h.eq_compileKey hw
  refine ⟨?_, fun edits hedits edited hedited => ?_⟩
  · rw [hpart, h'.eq_compileKey hw']
    exact part_congr hw hw' hseen hsecrets hselected
  · obtain ⟨hnormal, hview⟩ := Workspace.normal_and_seen_applyAll hw hedits
    rw [hpart, hedited.eq_compileKey hnormal]
    exact (part_congr hw hnormal hview.symm (fun _ _ _ _ _ _ => rfl) rfl).symm

/-- The small workspace without the site and with another environment. -/
def smallEdited : Workspace :=
  [Workspace.Edit.project "web" none, .environment "prod" (some { namespace_ := some "prod" })].foldl
    Workspace.Edit.apply small

theorem compiled_of_empty (hw : w.Normal)
    (hbuilt : ∃ e ∈ chosen w [], declares e.2 key ∧ makesImage producers e.2) :
    Compiled producers present settings w [] key
      (compileKey producers present settings w (chosen w []) key) := by
  rcases select_cases hw.sorted [] with ⟨hselect, -⟩ | ⟨name, -, hmissing, -⟩
  · obtain ⟨e, he, hkey, -⟩ := id hbuilt
    refine ⟨_, compile_ok hselect, List.mem_filter.2 ⟨List.mem_map_of_mem ?_, ?_⟩,
      name_compileKey _ key⟩
    · exact mem_keys.2 ⟨e, he, hkey⟩
    · rw [(isEmpty_artifacts (chosen w []) key).2 hbuilt]
      rfl
  · exact absurd hmissing.1 List.not_mem_nil

/-- On another disk, without the site and with another environment, the service keeps its part. -/
theorem small_keeps_part :
    let run := fun (present : Path → Bool) w =>
      compileKey (.builtin .builtin) present {} w (chosen w []) "dev"
    Compiled (.builtin .builtin) (fun _ => false) {} small [] "dev" (run (fun _ => false) small) ∧
      Compiled (.builtin .builtin) (fun _ => true) {} smallEdited [] "dev"
        (run (fun _ => true) smallEdited) ∧
      (run (fun _ => false) small).part "api" = (run (fun _ => true) smallEdited).part "api" ∧
      ((run (fun _ => false) small).part "api").releases.map (·.name) = ["api"] := by
  have hw : smallEdited.Normal :=
    (Workspace.normal_and_seen_applyAll small_normal fun edit hedit =>
      (show edit.Elsewhere "dev" "api" by
        revert edit
        simp [Workspace.Edit.Elsewhere])).1
  have h : Compiled (.builtin .builtin) (fun _ => false) {} small [] "dev" _ :=
    compiled_of_empty small_normal (by decide +kernel)
  have h' : Compiled (.builtin .builtin) (fun _ => true) {} smallEdited [] "dev" _ :=
    compiled_of_empty hw (by decide +kernel)
  refine ⟨h, h', (part_separate small_normal hw rfl ?_ rfl h h').1, by decide +kernel⟩
  intro p hp r hr path hchart
  have hremote : ∀ r ∈ (small.projects.get? "api").toList.flatMap fun p =>
      releasesOf (.builtin .builtin) (fun _ => false) {} small "dev" ("api", p),
      r.chart.folderPath? = none := by decide +kernel
  have hnone := hremote r (List.mem_flatMap.2 ⟨p, Option.mem_toList.2 hp, hr⟩)
  rw [hchart] at hnone
  cases hnone

end Profile
end Rollout

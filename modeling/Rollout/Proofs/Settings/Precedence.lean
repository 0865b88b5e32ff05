import Mathlib.Data.List.Forall2
import Mathlib.Tactic.Common
import Rollout.Proofs.Settings.Sources

/-!
# The precedence of settings

Every setting is decided by its own chain of sources, which are listed here one by one
(`Field.sources`, `portSources`, `listedTargets`). From the chains it follows that settings with a
default are never blank, that a blank value counts as none, and that nothing below the source that
is used is asked (`resolve_by_precedence`).
-/

namespace Rollout

/-! ### Blank values -/

/-- A value that was left as it is, or erased if it is blank. -/
def ErasedBlank (before after : Option String) : Prop :=
  after = before ∨ Settings.Unusable before ∧ after = none

structure Overrides.ErasedBlank (o o' : Overrides) : Prop where
  registry : Rollout.ErasedBlank o.registry o'.registry
  region : Rollout.ErasedBlank o.region o'.region
  cluster : Rollout.ErasedBlank o.cluster o'.cluster
  namespace_ : Rollout.ErasedBlank o.namespace_ o'.namespace_

structure EnvironmentDefaults.ErasedBlank (e e' : EnvironmentDefaults) : Prop where
  registry : Rollout.ErasedBlank e.registry e'.registry
  region : Rollout.ErasedBlank e.region e'.region
  cluster : Rollout.ErasedBlank e.cluster e'.cluster
  namespace_ : Rollout.ErasedBlank e.namespace_ e'.namespace_

structure ProviderDefaults.ErasedBlank (d d' : ProviderDefaults) : Prop where
  region : Rollout.ErasedBlank d.region d'.region
  cluster : Rollout.ErasedBlank d.cluster d'.cluster
  namespace_ : Rollout.ErasedBlank d.namespace_ d'.namespace_

/-- Blank defaults of environments, of providers and of the build were erased, any number of
them. -/
structure Workspace.ErasedBlank (w w' : Workspace) : Prop where
  registry : Rollout.ErasedBlank w.build.registry w'.build.registry
  environments : List.Forall₂ (fun e e' => e.1 = e'.1 ∧ e.2.ErasedBlank e'.2)
    w.environments w'.environments
  infrastructure : List.Forall₂ (fun e e' => e.1 = e'.1 ∧ e.2.ErasedBlank e'.2)
    w.infrastructure w'.infrastructure

namespace Settings

/-! ### Chains -/

/-- The settings that one chain of texts decides. -/
inductive Field where
  | registry
  | region
  | cluster
  | namespace_
  | configPath
deriving DecidableEq, Repr

def Field.of (s : Settings) : Field → String
  | registry => s.registry
  | region => s.region
  | cluster => s.cluster
  | namespace_ => s.namespace_
  | configPath => s.configPath

/-- The text of an option; a value of another kind counts as none. -/
def textOption? (o : OptionMap) (key : String) : Option String :=
  (o.get? key).bind OptionValue.asText?

section

variable (w : Workspace) (environment : String) (p : Project) (overrides : Overrides)

/-- The sources of a setting from the first to the last, which is the default if there is one. -/
def Field.sources : Field → List (Option String)
  | registry => [overrides.registry, p.build.bind fun b => textOption? (b.optionsFor environment)
      "registry", (w.environments.get? environment).bind (·.registry), w.build.registry]
  | region => [overrides.region, (w.environments.get? environment).bind (·.region),
      (w.infrastructure.get? (providerOf p)).bind (·.region), some "us-central1"]
  | cluster => [overrides.cluster, (w.environments.get? environment).bind (·.cluster),
      (w.infrastructure.get? "kubernetes").bind (·.cluster)]
  | namespace_ => [overrides.namespace_, (w.environments.get? environment).bind (·.namespace_),
      (w.infrastructure.get? (providerOf p)).bind (·.namespace_), some "default"]
  | configPath => [p.deploy.bind fun d => textOption? d.options "configPath", some "deploy"]

/-- The port in some options; a value that is not a port counts as none. -/
def portIn? (o : OptionMap) : Option UInt16 := (o.get? "port").bind OptionValue.asPort?

/-- The texts that are listed as targets and not blank. -/
def listedTargets : List String :=
  match p.deploy.bind fun d => d.options.get? "targets" with
  | some (.list items) => (items.filterMap OptionValue.asText?).filter fun s => !Text.isBlank s
  | _ => []

def firstTarget : String := (listedTargets p).head?.getD "helm"

/-- The sources of the port, which is that of the first target. -/
def portSources : List (Option UInt16) :=
  [if environment = "local" then (p.localOptions.get? (firstTarget p)).bind portIn? else none,
    p.deploy.bind fun d => match d.options.get? (firstTarget p) with
      | some (.map options) => portIn? options
      | _ => none,
    some (match p.language with
      | "node-service" => 3000
      | "angular" => 4200
      | "vue" => 5173
      | _ => 8080)]

/-- The provider of a project is that of its deployer, or the cluster's if none is known. -/
inductive Provides : String → Prop
  | deployer {spec : Spec} {d : Deployer} (hspec : p.deploy = some spec)
    (hd : Deployer.read spec.tool = .ok d) : Provides d.provider
  | unknown (h : ∀ spec, p.deploy = some spec → ∀ d, Deployer.read spec.tool ≠ .ok d) :
    Provides "kubernetes"

/-- Settings that are decided by the chains of a project in an environment. -/
structure ByPrecedence (name : String) (s : Settings) : Prop where
  names : s.project = name ∧ s.environment = environment
  provider : Provides p (providerOf p)
  fields : ∀ field : Field, Decides (field.sources w environment p overrides) (field.of s)
  targets : s.deployTargets = if listedTargets p = [] then ["helm"] else listedTargets p
  firstTarget : s.deployTargets.head? = some (firstTarget p)
  port : (portSources environment p).findSome? id = some s.port

/-- Settings that cannot be blank are not. -/
structure NotBlank (s : Settings) : Prop where
  region : Text.isBlank s.region = false
  namespace_ : Text.isBlank s.namespace_ = false
  configPath : Text.isBlank s.configPath = false
  targets : s.deployTargets ≠ [] ∧ ∀ target ∈ s.deployTargets, Text.isBlank target = false

/-- Two chains that differ only below a usable source. -/
def AgreeToUsable {α : Type} (usable : Option α → Prop) (sources others : List (Option α)) : Prop :=
  ∃ before after other, sources = before ++ after ∧ others = before ++ other ∧
    ∃ source ∈ before, usable source

end

variable {w : Workspace} {environment : String} {p : Project} {overrides : Overrides}

theorem bind_textOption? (o : OptionMap) (key : String) :
    (textOption? o key).bind Text.nonBlank? = o.text? key := Option.bind_assoc _ _ _

theorem provides_providerOf (p : Project) : Provides p (providerOf p) := by
  unfold providerOf Project.specDeployer?
  cases hspec : p.deploy with
  | none => exact .unknown (by simp [hspec])
  | some spec =>
    rw [Option.bind_some, Spec.deployer]
    cases hread : Deployer.read spec.tool with
    | ok d => exact .deployer hspec hread
    | error id =>
      refine .unknown fun other hother d hd => ?_
      obtain rfl : spec = other := Option.some.inj (hspec.symm.trans hother)
      simp [hread] at hd

theorem decides_registry (name : String) :
    Decides (Field.registry.sources w environment p overrides)
      (resolve w environment name p overrides).registry := by
  rw [decides_iff]
  refine congrArg (Option.getD · "") (firstUsable_congr ?_)
  have hoptions : OptionMap.text? ((p.build.map (·.optionsFor environment)).getD []) "registry" =
      (p.build.bind fun b => textOption? (b.optionsFor environment) "registry").bind
        Text.nonBlank? := by
    cases p.build with
    | none => rfl
    | some b => exact (bind_textOption? _ _).symm
  simp only [Field.sources, List.map_cons, List.map_nil, hoptions, nonBlank?_nonBlank?,
    fromEnvironment, Workspace.defaultRegistry]

theorem decides_configPath (p : Project) :
    Decides (Field.configPath.sources w environment p overrides) (configPathOf p) := by
  have hoption : p.deploy.bind (·.options.text? configPathKey) =
      firstUsable [p.deploy.bind fun d => textOption? d.options "configPath"] := by
    rw [firstUsable, firstUsable, Option.or_none, Option.bind_assoc]
    exact congrArg p.deploy.bind (funext fun d => (bind_textOption? _ _).symm)
  rw [configPathOf, hoption]
  exact decides_getD [_] (by decide)

theorem decides_field (w : Workspace) (environment : String) (p : Project)
    (overrides : Overrides) (name : String) (field : Field) :
    Decides (field.sources w environment p overrides)
      (field.of (resolve w environment name p overrides)) := by
  cases field with
  | registry => exact decides_registry name
  | region => exact decides_getD [_, _, _] (by decide)
  | cluster => exact decides_firstUsable _
  | namespace_ => exact decides_getD [_, _, _] (by decide)
  | configPath => exact decides_configPath p

theorem filterMap_nonBlankText? (items : List OptionValue) :
    items.filterMap OptionValue.nonBlankText? =
      (items.filterMap OptionValue.asText?).filter fun s => !Text.isBlank s := by
  rw [List.filter_filterMap]
  refine List.filterMap_congr fun v _ => ?_
  unfold OptionValue.nonBlankText?
  cases v.asText? with
  | none => rfl
  | some s => cases h : Text.isBlank s <;> simp [Text.nonBlank?, h, Option.filter]

theorem targetsOf_eq (p : Project) :
    targetsOf p = if listedTargets p = [] then ["helm"] else listedTargets p := by
  unfold targetsOf listedTargets
  generalize p.deploy.bind (fun d => d.options.get? "targets") = listed
  cases listed with
  | none => rfl
  | some v =>
    cases v with
    | list items => simp only [filterMap_nonBlankText?, List.isEmpty_iff, defaultTarget]
    | _ => rfl

theorem targetsOf_ne_nil (p : Project) : targetsOf p ≠ [] := by
  rw [targetsOf_eq]
  split_ifs with h
  · simp
  · exact h

theorem isBlank_of_mem_targetsOf {target : String} (h : target ∈ targetsOf p) :
    Text.isBlank target = false := by
  rw [targetsOf_eq] at h
  split_ifs at h with hnone
  · obtain rfl := List.mem_singleton.1 h
    decide
  · unfold listedTargets at h
    split at h
    · simpa using (List.mem_filter.1 h).2
    · cases h

theorem findSome?_eq_getD (own next : Option UInt16) (default : UInt16) :
    [own, next, some default].findSome? id = some ((own.or next).getD default) := by
  cases own <;> cases next <;> rfl

theorem head?_targetsOf (p : Project) : (targetsOf p).head? = some (firstTarget p) := by
  rw [targetsOf_eq, firstTarget]
  cases h : listedTargets p with
  | nil => rfl
  | cons target targets => rfl

theorem portOf_eq (p : Project) (environment : String) :
    (portSources environment p).findSome? id = some (portOf p environment (firstTarget p)) := by
  have hlanguage : (match p.language with
      | "node-service" => 3000
      | "angular" => 4200
      | "vue" => 5173
      | _ => 8080) = defaultPort p.language := by
    unfold defaultPort
    split
    all_goals simp_all
  have htarget : targetPort? p (firstTarget p) =
      p.deploy.bind fun d => match d.options.get? (firstTarget p) with
        | some (.map options) => portIn? options
        | _ => none := by
    unfold targetPort?
    cases p.deploy <;> rfl
  rw [portSources, findSome?_eq_getD, hlanguage, ← htarget]
  rfl

theorem port_resolve (w : Workspace) (environment : String) (p : Project) (overrides : Overrides)
    (name : String) : (portSources environment p).findSome? id =
      some (resolve w environment name p overrides).port := by
  rw [portOf_eq]
  simp only [resolve, head?_targetsOf, Option.getD_some]

theorem byPrecedence (name : String) :
    ByPrecedence w environment p overrides name (resolve w environment name p overrides) where
  names := ⟨rfl, rfl⟩
  provider := provides_providerOf p
  fields := decides_field w environment p overrides name
  targets := targetsOf_eq p
  firstTarget := head?_targetsOf p
  port := port_resolve w environment p overrides name

/-- A chain with a default decides no blank value. -/
theorem isBlank_field (name : String) (field : Field) (default : String)
    (hdefault : some default ∈ field.sources w environment p overrides)
    (h : Text.isBlank default = false) :
    Text.isBlank (field.of (resolve w environment name p overrides)) = false := by
  refine (decides_field w environment p overrides name field).isBlank_eq_false
    ⟨some default, hdefault, fun hunusable => ?_⟩
  rw [hunusable default rfl] at h
  cases h

theorem notBlank_resolve (name : String) :
    NotBlank (resolve w environment name p overrides) where
  region := isBlank_field name .region "us-central1" (by simp [Field.sources]) (by decide)
  namespace_ := isBlank_field name .namespace_ "default" (by simp [Field.sources]) (by decide)
  configPath := isBlank_field name .configPath "deploy" (by simp [Field.sources]) (by decide)
  targets := ⟨targetsOf_ne_nil p, fun _ => isBlank_of_mem_targetsOf⟩

/-! ### Blank values count as none -/

theorem bind_of_erasedBlank {before after : Option String} (h : Rollout.ErasedBlank before after) :
    after.bind Text.nonBlank? = before.bind Text.nonBlank? := by
  rcases h with rfl | ⟨hblank, rfl⟩
  · rfl
  · cases before with
    | none => rfl
    | some s => simp [Text.nonBlank?, hblank s rfl]

/-- Entries that are related under equal keys are found alike. -/
theorem bind_get?_of_forall₂ {α : Type} {R : α → α → Prop} {d d' : Dict α}
    {get : α → Option String} (h : List.Forall₂ (fun e e' => e.1 = e'.1 ∧ R e.2 e'.2) d d')
    (hget : ∀ v v', R v v' → Rollout.ErasedBlank (get v) (get v')) (key : String) :
    ((d'.get? key).bind get).bind Text.nonBlank? = ((d.get? key).bind get).bind Text.nonBlank? := by
  induction h with
  | nil => rfl
  | @cons e e' d d' hhead htail ih =>
    obtain ⟨k, v⟩ := e
    obtain ⟨k', v'⟩ := e'
    obtain ⟨rfl, hv⟩ := hhead
    by_cases hk : k = key
    · simpa [Dict.get?, hk] using bind_of_erasedBlank (hget v v' hv)
    · simpa [Dict.get?, hk] using ih

/-- A chain decides the same after blank values were erased. -/
theorem sources_of_erasedBlank {w' : Workspace} {overrides' : Overrides}
    (hw : w.ErasedBlank w') (hoverrides : overrides.ErasedBlank overrides') (field : Field) :
    (field.sources w' environment p overrides').map (·.bind Text.nonBlank?) =
      (field.sources w environment p overrides).map (·.bind Text.nonBlank?) := by
  have henvironment (get : EnvironmentDefaults → Option String)
      (hget : ∀ e e', e.ErasedBlank e' → Rollout.ErasedBlank (get e) (get e')) :=
    bind_get?_of_forall₂ hw.environments hget environment
  have hprovider (get : ProviderDefaults → Option String) (provider : String)
      (hget : ∀ d d', d.ErasedBlank d' → Rollout.ErasedBlank (get d) (get d')) :=
    bind_get?_of_forall₂ hw.infrastructure hget provider
  cases field with
  | registry =>
    simp only [Field.sources, List.map_cons, List.map_nil,
      bind_of_erasedBlank hoverrides.registry, bind_of_erasedBlank hw.registry,
      henvironment (·.registry) fun _ _ h => h.registry]
  | region =>
    simp only [Field.sources, List.map_cons, List.map_nil,
      bind_of_erasedBlank hoverrides.region, henvironment (·.region) fun _ _ h => h.region,
      hprovider (·.region) _ fun _ _ h => h.region]
  | cluster =>
    simp only [Field.sources, List.map_cons, List.map_nil,
      bind_of_erasedBlank hoverrides.cluster, henvironment (·.cluster) fun _ _ h => h.cluster,
      hprovider (·.cluster) _ fun _ _ h => h.cluster]
  | namespace_ =>
    simp only [Field.sources, List.map_cons, List.map_nil,
      bind_of_erasedBlank hoverrides.namespace_,
      henvironment (·.namespace_) fun _ _ h => h.namespace_,
      hprovider (·.namespace_) _ fun _ _ h => h.namespace_]
  | configPath => rfl

/-- Settings are the same if their names, texts, targets and ports are. -/
theorem eq_of_fields {s t : Settings} (hproject : s.project = t.project)
    (henvironment : s.environment = t.environment)
    (hfields : ∀ field : Field, field.of s = field.of t)
    (htargets : s.deployTargets = t.deployTargets) (hport : s.port = t.port) : s = t := by
  have hregistry := hfields .registry
  have hregion := hfields .region
  have hcluster := hfields .cluster
  have hnamespace := hfields .namespace_
  have hconfigPath := hfields .configPath
  cases s
  cases t
  simp_all [Field.of]

theorem resolve_of_erasedBlank {w' : Workspace} {overrides' : Overrides} (name : String)
    (hw : w.ErasedBlank w') (hoverrides : overrides.ErasedBlank overrides') :
    resolve w' environment name p overrides' = resolve w environment name p overrides := by
  refine eq_of_fields rfl rfl (fun field => ?_) rfl rfl
  have h' := decides_iff.1 (decides_field w' environment p overrides' name field)
  have h := decides_iff.1 (decides_field w environment p overrides name field)
  rw [h', h, firstUsable_congr (sources_of_erasedBlank hw hoverrides field)]

/-! ### Sources below the one that is used -/

theorem field_of_agreeToUsable {w' : Workspace} {environment' : String} {p' : Project}
    {overrides' : Overrides} {field : Field} (name name' : String)
    (h : AgreeToUsable (¬ Unusable ·) (field.sources w environment p overrides)
      (field.sources w' environment' p' overrides')) :
    field.of (resolve w environment name p overrides) =
      field.of (resolve w' environment' name' p' overrides') := by
  obtain ⟨before, after, other, hsources, hothers, husable⟩ := h
  have hs := decides_field w environment p overrides name field
  have ht := decides_field w' environment' p' overrides' name' field
  rw [hsources] at hs
  rw [hothers] at ht
  exact hs.eq_of_append ht husable

theorem findSome?_of_agreeToUsable {sources others : List (Option UInt16)}
    (h : AgreeToUsable (·.isSome) sources others) :
    sources.findSome? id = others.findSome? id := by
  obtain ⟨before, after, other, rfl, rfl, port, hport, hsome⟩ := h
  have hfound : (before.findSome? id).isSome = true :=
    List.findSome?_isSome_iff.2 ⟨port, hport, hsome⟩
  rw [List.findSome?_append, List.findSome?_append, Option.or_of_isSome hfound,
    Option.or_of_isSome hfound]

/-- Every setting is the first usable value of its chain, and a region, a namespace, a folder of
deployment files or a target is never blank. Blank values of overrides and defaults may be erased.
Two requests whose chains for a setting differ only below a usable source, whatever else
distinguishes them, give this setting the same value. -/
theorem resolve_by_precedence (w : Workspace) (environment name : String) (p : Project)
    (overrides : Overrides) :
    ByPrecedence w environment p overrides name (resolve w environment name p overrides) ∧
      NotBlank (resolve w environment name p overrides) ∧
      (∀ w' overrides', w.ErasedBlank w' → overrides.ErasedBlank overrides' →
        resolve w' environment name p overrides' = resolve w environment name p overrides) ∧
      ∀ w' environment' name' p' overrides',
        (∀ field : Field, AgreeToUsable (¬ Unusable ·) (field.sources w environment p overrides)
            (field.sources w' environment' p' overrides') →
          field.of (resolve w environment name p overrides) =
            field.of (resolve w' environment' name' p' overrides')) ∧
        (AgreeToUsable (·.isSome) (portSources environment p) (portSources environment' p') →
          (resolve w environment name p overrides).port =
            (resolve w' environment' name' p' overrides').port) := by
  refine ⟨byPrecedence name, notBlank_resolve name,
    fun w' overrides' hw hoverrides => resolve_of_erasedBlank name hw hoverrides,
    fun w' environment' name' p' overrides' =>
      ⟨fun field h => field_of_agreeToUsable name name' h, fun h => ?_⟩⟩
  have hport := findSome?_of_agreeToUsable h
  rw [port_resolve w environment p overrides name,
    port_resolve w' environment' p' overrides' name'] at hport
  exact Option.some.inj hport

/-- A service of a cloud provider that has a port of its own for local work. -/
def service : Project :=
  { name := "api", root := "api", language := "go", metadata := [], extra := []
    localOptions := [("run", [("port", .integer 9000)])]
    architect := { deploy := some ⟨"Cloud-Run", [("targets", .list [.text " ", .text "run"])],
      [], none⟩ } }

/-- A workspace with this region for local work, and one for the cloud provider. -/
def regional (region : Option String) (ofProvider : String) : Workspace :=
  { (default : Workspace) with
    environments := [("local", { region })]
    infrastructure := [("gcp", { region := some ofProvider })] }

/-- A blank region may be erased, and the region of the provider does not matter where one is given
by hand. -/
theorem service_settings :
    resolve (regional none "eu") "local" "api" service {} =
        resolve (regional (some " ") "eu") "local" "api" service { cluster := some "" } ∧
      (resolve (regional none "eu") "local" "api" service { region := some "us" }).region =
        (resolve (regional none "asia") "local" "api" service { region := some "us" }).region ∧
      (resolve (regional none "eu") "local" "api" service {}).port =
        (resolve (regional none "asia") "local" "web"
          { service with language := "vue" } {}).port := by
  obtain ⟨-, -, herased, -⟩ :=
    resolve_by_precedence (regional (some " ") "eu") "local" "api" service { cluster := some "" }
  obtain ⟨-, -, -, hregion⟩ :=
    resolve_by_precedence (regional none "eu") "local" "api" service { region := some "us" }
  obtain ⟨-, -, -, hport⟩ := resolve_by_precedence (regional none "eu") "local" "api" service {}
  have hblank (s : String) (h : Text.isBlank s = true) : Rollout.ErasedBlank (some s) none :=
    .inr ⟨by simp [Unusable, h], rfl⟩
  refine ⟨herased _ _ ?_ ?_, (hregion _ _ _ _ _).1 .region ?_, (hport _ _ _ _ _).2 ?_⟩
  · refine ⟨.inl rfl, .cons ⟨rfl, ⟨.inl rfl, hblank _ (by decide), .inl rfl, .inl rfl⟩⟩ .nil,
      .cons ⟨rfl, ⟨.inl rfl, .inl rfl, .inl rfl⟩⟩ .nil⟩
  · exact ⟨.inl rfl, .inl rfl, hblank _ (by decide), .inl rfl⟩
  · exact ⟨[some "us"], _, _, rfl, rfl, some "us", by simp, by simp [Unusable]; decide⟩
  · exact ⟨[some 9000], _, _, rfl, rfl, some 9000, by simp, rfl⟩

end Settings
end Rollout

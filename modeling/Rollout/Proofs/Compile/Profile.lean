import Mathlib.Data.List.Forall2
import Mathlib.Tactic.Common
import Rollout.Compile.Profile
import Rollout.Proofs.Workspace.Named

/-!
# What compiling profiles means

Compiling fails for the first name that is no project's. Else there is one profile for each key
under which a chosen project makes an image, and the profile gathers what each chosen project
contributes that builds under the key, in the order of the projects (`compile_means`).
-/

namespace Rollout.Profile

/-- The chosen projects in the order of their names; an empty selection chooses all. -/
def chosen (w : Workspace) (selected : List String) : Dict Project :=
  List.filter (fun e => selected.isEmpty || selected.contains e.1) w.projects

/-- A name is selected that is no project's. -/
def Missing (w : Workspace) (selected : List String) (name : String) : Prop :=
  name ∈ selected ∧ name ∉ w.projects.keys

theorem project_eq_error {w : Workspace} {name : String} (h : name ∉ w.projects.keys) :
    w.project name = .error (.projectNotFound name) := by
  rw [Dict.mem_keys_iff, not_not] at h
  simp [Workspace.project, h]

/-- Finding projects in a row stops at the first name that is no project's. -/
theorem mapM_project (w : Workspace) {names : List String} (hnames : names.Pairwise (· < ·)) :
    let find := names.mapM fun name => (w.project name).map fun p => (name, p)
    (∃ es : Dict Project, find = .ok es ∧ es.keys = names ∧
        ∀ e ∈ es, w.projects.get? e.1 = some e.2) ∨
      ∃ name, find = .error (.projectNotFound name) ∧ Missing w names name ∧
        ∀ other, Missing w names other → name ≤ other := by
  simp only
  induction names with
  | nil => exact .inl ⟨[], rfl, rfl, by simp⟩
  | cons name names ih =>
    obtain ⟨hfirst, hrest⟩ := List.pairwise_cons.1 hnames
    rw [List.mapM_cons]
    by_cases hname : name ∈ w.projects.keys
    · obtain ⟨p, hp⟩ := Option.ne_none_iff_exists'.1 (Dict.mem_keys_iff.1 hname)
      rw [Workspace.project_eq_ok.2 hp]
      rcases ih hrest with ⟨es, heq, hkeys, hfound⟩ | ⟨other, heq, hmissing, hleast⟩
      · rw [heq]
        refine .inl ⟨(name, p) :: es, rfl, congrArg (name :: ·) hkeys, ?_⟩
        simpa [hp] using hfound
      · rw [heq]
        refine .inr ⟨other, rfl, ⟨by simp [hmissing.1], hmissing.2⟩, fun k hk => ?_⟩
        rcases List.mem_cons.1 hk.1 with rfl | hmem
        · exact absurd hname hk.2
        · exact hleast k ⟨hmem, hk.2⟩
    · rw [project_eq_error hname]
      refine .inr ⟨name, rfl, ⟨by simp, hname⟩, fun k hk => ?_⟩
      rcases List.mem_cons.1 hk.1 with rfl | hmem
      · exact String.le_refl k
      · exact String.not_lt.1 fun hlt =>
          String.lt_irrefl k (String.lt_trans hlt (hfirst k hmem))

/-- Selecting gives the chosen projects, or fails for the least name that is no project's. -/
theorem select_cases {w : Workspace} (hw : w.projects.Sorted) (selected : List String) :
    select w selected = .ok (chosen w selected) ∧ (∀ name, ¬ Missing w selected name) ∨
      ∃ name, select w selected = .error (.projectNotFound name) ∧ Missing w selected name ∧
        ∀ other, Missing w selected other → name ≤ other := by
  unfold select
  by_cases hempty : selected.isEmpty
  · obtain rfl := List.isEmpty_iff.1 hempty
    have hall : chosen w [] = w.projects := List.filter_eq_self.2 fun e _ => rfl
    exact .inl ⟨by simp [hall], by simp [Missing]⟩
  rw [if_neg hempty]
  have hmissing (name : String) :
      Missing w (Dict.sortedKeys selected) name ↔ Missing w selected name := by
    rw [Missing, Missing, Dict.mem_sortedKeys]
  have hfind := mapM_project w (Dict.pairwise_sortedKeys selected)
  simp only [hmissing] at hfind
  rcases hfind with ⟨es, heq, hkeys, hfound⟩ | hfailed
  · have hsorted : es.Sorted := by
      rw [Dict.Sorted, hkeys]
      exact Dict.pairwise_sortedKeys selected
    have hes : es = chosen w selected := by
      refine Dict.eq_of_mem_iff hsorted (hw.filter _) fun e => ⟨fun he => ?_, fun he => ?_⟩
      · have hmem : e.1 ∈ selected := by
          rw [← Dict.mem_sortedKeys, ← hkeys]
          exact List.mem_map_of_mem he
        refine List.mem_filter.2 ⟨(Dict.get?_eq_some_iff hw).1 (hfound e he), ?_⟩
        simp [hmem]
      · obtain ⟨hmem, hselected⟩ := List.mem_filter.1 he
        have hselected : e.1 ∈ es.keys := by
          rw [hkeys, Dict.mem_sortedKeys]
          simpa [hempty] using hselected
        obtain ⟨e', he', hkey⟩ := List.mem_map.1 hselected
        have hvalue := hfound e' he'
        rw [hkey, (Dict.get?_eq_some_iff hw).2 hmem, Option.some.injEq] at hvalue
        rwa [show e = e' from Prod.ext hkey.symm hvalue]
    refine .inl ⟨heq.trans (congrArg _ hes), fun name hname => ?_⟩
    rw [← hmissing, Missing, ← hkeys] at hname
    obtain ⟨e, he, rfl⟩ := List.mem_map.1 hname.1
    exact hname.2 (Dict.mem_keys_iff.2 (by simp [hfound e he]))
  · exact .inr hfailed

/-! ### Contributions -/

section

variable (producers : Producers) (present : Path → Bool) (settings : CompileSettings)
  (w : Workspace)

/-- Whether the builder of a project is known and its product an image. -/
def makesImage (p : Project) : Bool :=
  p.build.any fun build => (producers.builders.get? build.tool).any fun producer =>
    (Artifact.buildTarget? producer p).isSome

/-- What the deploy spec of a project plans under a key. -/
def planOf (key : String) (e : String × Project) : Option ReleasePlan :=
  ReleasePlan.compile? producers present settings.workspaceRoot w e.1 e.2 key

def releasesOf (key : String) (e : String × Project) : List Release :=
  match planOf producers present settings w key e with
  | some (.releases rs) => rs
  | _ => []

def setupsOf (key : String) (e : String × Project) : List ProviderSetup :=
  match planOf producers present settings w key e with
  | some (.setup s) => [s]
  | _ => []

def artifactOf? (key : String) (e : String × Project) : Option Artifact :=
  Artifact.compile? producers w e.1 e.2 key settings

/-- There is an image of a project exactly if its builder makes one. -/
theorem isSome_artifactOf? (key : String) (e : String × Project) :
    (artifactOf? producers settings w key e).isSome = makesImage producers e.2 := by
  unfold artifactOf? Artifact.compile? makesImage
  simp only [bind, pure]
  cases e.2.build with
  | none => rfl
  | some build =>
    simp only [Option.bind_some, Option.any_some]
    cases producers.builders.get? build.tool with
    | none => rfl
    | some producer =>
      simp only [Option.bind_some, Option.any_some]
      cases Artifact.buildTarget? producer e.2 <;> rfl

/-- The builders that come with the program make an image if they are image builders. -/
theorem makesImage_builtin (table : ChartTable) (p : Project) :
    makesImage (.builtin table) p =
      p.build.any fun build => Producers.imageBuilders.contains build.tool := by
  have hbuilders : (Producers.builtin table).builders = [("angular", .bundle), ("bazel", .image),
      ("ko", .image), ("static", .bundle), ("vite", .bundle)] := by
    change Dict.ofEntries (Producers.imageBuilders.map (·, ArtifactProducer.image) ++
      Producers.bundleBuilders.map (·, ArtifactProducer.bundle)) = _
    decide +kernel
  unfold makesImage
  cases p.build with
  | none => rfl
  | some build =>
    simp only [Option.any_some, hbuilders, Dict.get?]
    split_ifs with hangular hbazel hko hstatic hvite
    · rw [← hangular]
      rfl
    · rw [← hbazel]
      rfl
    · rw [← hko]
      rfl
    · rw [← hstatic]
      rfl
    · rw [← hvite]
      rfl
    · simp [Producers.imageBuilders, Ne.symm hbazel, Ne.symm hko]

theorem project_of_artifactOf? {key : String} {e : String × Project} {a : Artifact}
    (h : artifactOf? producers settings w key e = some a) : a.project = e.1 := by
  simp only [artifactOf?, Artifact.compile?, bind, pure, Option.bind_eq_some_iff,
    Option.some.injEq] at h
  obtain ⟨build, -, producer, -, target, -, rfl⟩ := h
  rfl

theorem add_eq (profile : Profile) (e : String × Project) :
    profile.add producers present settings w e.1 e.2 =
      { profile with
        artifacts := profile.artifacts ++ (artifactOf? producers settings w profile.name e).toList
        deployment := {
          releases := profile.deployment.releases ++
            releasesOf producers present settings w profile.name e
          providerSetup := profile.deployment.providerSetup ++
            setupsOf producers present settings w profile.name e } } := by
  unfold add releasesOf setupsOf planOf artifactOf?
  rcases ReleasePlan.compile? producers present settings.workspaceRoot w e.1 e.2 profile.name with
    _ | rs | s <;> simp

/-- Adding projects one by one gathers their contributions in order. -/
theorem foldl_add (profile : Profile) (es : Dict Project) :
    es.foldl (fun profile e => profile.add producers present settings w e.1 e.2) profile =
      { profile with
        artifacts := profile.artifacts ++
          es.filterMap (artifactOf? producers settings w profile.name)
        deployment := {
          releases := profile.deployment.releases ++
            es.flatMap (releasesOf producers present settings w profile.name)
          providerSetup := profile.deployment.providerSetup ++
            es.flatMap (setupsOf producers present settings w profile.name) } } := by
  induction es generalizing profile with
  | nil => simp
  | cons e es ih =>
    rw [List.foldl_cons, ih, add_eq]
    cases h : artifactOf? producers settings w profile.name e <;> simp [h]

/-- The projects that build under a key. -/
def building (key : String) (es : Dict Project) : Dict Project :=
  List.filter (fun e => declares e.2 key) es

theorem compileKey_eq (es : Dict Project) (key : String) :
    compileKey producers present settings w es key =
      { name := key
        artifacts := (building key es).filterMap (artifactOf? producers settings w key)
        deployment := {
          releases := (building key es).flatMap (releasesOf producers present settings w key)
          providerSetup :=
            (building key es).flatMap (setupsOf producers present settings w key) } } := by
  unfold compileKey
  rw [foldl_add]
  simp [building]

theorem mem_keys {es : Dict Project} {key : String} :
    key ∈ keys es ↔ ∃ e ∈ es, declares e.2 key := by
  rw [keys, Dict.mem_sortedKeys, List.mem_flatMap]
  simp [declares]

end

/-! ### The meaning of a compilation -/

/-- What the result of a compilation is for a selection of projects. -/
structure Meaning (producers : Producers) (present : Path → Bool) (settings : CompileSettings)
    (w : Workspace) (selected : List String) (result : Except WorkspaceError (List Profile)) :
    Prop where
  /-- It fails exactly if a selected name is missing, and then for the least one that is. -/
  failed : ∀ error, result = .error error ↔ ∃ name, error = .projectNotFound name ∧
    Missing w selected name ∧ ∀ other, Missing w selected other → name ≤ other
  compiled : (∃ profiles, result = .ok profiles) ↔ ∀ name, ¬ Missing w selected name
  increasing : ∀ profiles, result = .ok profiles → (profiles.map (·.name)).Pairwise (· < ·)
  /-- The profiles are those of the keys under which an image is made. -/
  names : ∀ profiles, result = .ok profiles → ∀ key, key ∈ profiles.map (·.name) ↔
    ∃ e ∈ chosen w selected, declares e.2 key ∧ makesImage producers e.2
  /-- There is one artifact for each project that makes an image, in the order of the projects. -/
  artifacts : ∀ profiles, result = .ok profiles → ∀ profile ∈ profiles,
    List.Forall₂
      (fun e a => artifactOf? producers settings w profile.name e = some a ∧
        a.project = e.2.name)
      (List.filter (fun e => makesImage producers e.2) (building profile.name (chosen w selected)))
      profile.artifacts
  releases : ∀ profiles, result = .ok profiles → ∀ profile ∈ profiles,
    profile.deployment.releases = (building profile.name (chosen w selected)).flatMap
      (releasesOf producers present settings w profile.name)
  setups : ∀ profiles, result = .ok profiles → ∀ profile ∈ profiles,
    profile.deployment.providerSetup = (building profile.name (chosen w selected)).flatMap
      (setupsOf producers present settings w profile.name)
  /-- The releases of one project are in the order of its instances. -/
  instances : ∀ key e spec table, e.2.deploy = some spec →
    producers.deployers.get? spec.tool = some (.charts table) →
    (releasesOf producers present settings w key e).map (·.name) =
      match Release.instances? (spec.optionsFor key) with
      | none => [e.1]
      | some instances => instances.map fun i => e.1 ++ "-" ++ i.1

section

variable {producers : Producers} {present : Path → Bool} {settings : CompileSettings}
  {w : Workspace} {selected : List String}

theorem compile_ok (h : select w selected = .ok (chosen w selected)) :
    compile producers present settings w selected = .ok
      (((keys (chosen w selected)).map
        (compileKey producers present settings w (chosen w selected))).filter
          fun profile => !profile.artifacts.isEmpty) := by
  rw [compile, h]
  rfl

theorem compile_error {error : WorkspaceError} (h : select w selected = .error error) :
    compile producers present settings w selected = .error error := by
  rw [compile, h]
  rfl

/-- A profile is kept exactly if a project makes an image under its key. -/
theorem isEmpty_artifacts (es : Dict Project) (key : String) :
    (compileKey producers present settings w es key).artifacts.isEmpty = false ↔
      ∃ e ∈ es, declares e.2 key ∧ makesImage producers e.2 := by
  rw [compileKey_eq, List.isEmpty_eq_false_iff_exists_mem]
  simp only [List.mem_filterMap, building, List.mem_filter]
  constructor
  · rintro ⟨a, e, ⟨he, hkey⟩, ha⟩
    refine ⟨e, he, hkey, ?_⟩
    rw [← isSome_artifactOf? producers settings w key e, ha]
    rfl
  · rintro ⟨e, he, hkey, himage⟩
    rw [← isSome_artifactOf? producers settings w key e] at himage
    obtain ⟨a, ha⟩ := Option.isSome_iff_exists.1 himage
    exact ⟨a, e, ⟨he, hkey⟩, ha⟩

/-- What is gathered of a list is one thing for each entry that has one. -/
theorem forall₂_filterMap {α β : Type} {f : α → Option β} {has : α → Bool}
    (h : ∀ a, (f a).isSome = has a) (as : List α) :
    List.Forall₂ (fun a b => f a = some b) (as.filter has) (as.filterMap f) := by
  induction as with
  | nil => exact .nil
  | cons a as ih =>
    have ha := h a
    cases hf : f a with
    | none =>
      rw [hf] at ha
      rw [List.filter_cons_of_neg (by simp [← ha]), List.filterMap_cons_none hf]
      exact ih
    | some b =>
      rw [hf] at ha
      rw [List.filter_cons_of_pos (by simp [← ha]), List.filterMap_cons_some hf]
      exact .cons hf ih

theorem name_of_mem_chosen (hw : w.Normal) {e : String × Project} (he : e ∈ chosen w selected) :
    e.2.name = e.1 :=
  hw.named e.1 e.2 ((Dict.get?_eq_some_iff hw.sorted).2 (List.mem_filter.1 he).1)

theorem name_compileKey (es : Dict Project) (key : String) :
    (compileKey producers present settings w es key).name = key := by
  rw [compileKey_eq]

/-- A kept profile is that of its own key. -/
theorem profile_eq {es : Dict Project} {profile : Profile}
    (h : profile ∈ ((keys es).map (compileKey producers present settings w es)).filter
      fun profile => !profile.artifacts.isEmpty) :
    profile = compileKey producers present settings w es profile.name := by
  obtain ⟨hmem, -⟩ := List.mem_filter.1 h
  obtain ⟨key, -, rfl⟩ := List.mem_map.1 hmem
  rw [name_compileKey]

/-- The releases of a compiled profile are those that are planned under its key. -/
theorem releases_of_compile (hw : w.Normal) {profiles : List Profile}
    (h : compile producers present settings w selected = .ok profiles) {profile : Profile}
    (hprofile : profile ∈ profiles) :
    profile.deployment.releases = (building profile.name (chosen w selected)).flatMap
      (releasesOf producers present settings w profile.name) := by
  rcases select_cases hw.sorted selected with ⟨hselect, -⟩ | ⟨name, hselect, -⟩
  · rw [compile_ok hselect] at h
    cases h
    have heq := congrArg (·.deployment.releases) (profile_eq hprofile)
    rwa [compileKey_eq] at heq
  · rw [compile_error hselect] at h
    cases h

theorem increasing_names (es : Dict Project) :
    ((((keys es).map (compileKey producers present settings w es)).filter
      fun profile => !profile.artifacts.isEmpty).map (·.name)).Pairwise (· < ·) := by
  have hkeys : (keys es).Pairwise (· < ·) := Dict.pairwise_sortedKeys _
  refine List.pairwise_map.2 (List.Pairwise.filter _ (List.pairwise_map.2 ?_))
  simpa only [name_compileKey] using hkeys

theorem mem_names {es : Dict Project} {key : String} :
    key ∈ (((keys es).map (compileKey producers present settings w es)).filter
      fun profile => !profile.artifacts.isEmpty).map (·.name) ↔
      ∃ e ∈ es, declares e.2 key ∧ makesImage producers e.2 := by
  have hkept : (compileKey producers present settings w es key).artifacts.isEmpty = false ↔
      ∃ e ∈ es, declares e.2 key ∧ makesImage producers e.2 := isEmpty_artifacts es key
  rw [← hkept]
  constructor
  · intro h
    obtain ⟨profile, hmem, rfl⟩ := List.mem_map.1 h
    rw [← profile_eq hmem]
    simpa using (List.mem_filter.1 hmem).2
  · intro h
    obtain ⟨e, he, hkey, -⟩ := hkept.1 h
    have hmem := List.mem_map_of_mem (f := compileKey producers present settings w es)
      (mem_keys.2 ⟨e, he, hkey⟩)
    exact List.mem_map.2 ⟨_, List.mem_filter.2 ⟨hmem, by simp [h]⟩, name_compileKey es key⟩

theorem names_releasesOf {key : String} {e : String × Project} {spec : Spec} {table : ChartTable}
    (hspec : e.2.deploy = some spec)
    (hcharts : producers.deployers.get? spec.tool = some (.charts table)) :
    (releasesOf producers present settings w key e).map (·.name) =
      match Release.instances? (spec.optionsFor key) with
      | none => [e.1]
      | some instances => instances.map fun i => e.1 ++ "-" ++ i.1 := by
  have hplan : planOf producers present settings w key e = some (.releases
      (Release.compileAll present settings.workspaceRoot table w e.1 e.2 key
        (spec.optionsFor key))) := by
    simp [planOf, ReleasePlan.compile?, hspec, hcharts]
  rw [releasesOf, hplan]
  simp only [Release.compileAll]
  cases Release.instances? (spec.optionsFor key) with
  | none => rfl
  | some instances => simp [Release.compile, Function.comp_def]

/-- What compiling the profiles of a selection means, in a workspace that was read. -/
theorem compile_means (hw : w.Normal) (producers : Producers) (present : Path → Bool)
    (settings : CompileSettings) (selected : List String) :
    Meaning producers present settings w selected
      (compile producers present settings w selected) := by
  rcases select_cases hw.sorted selected with ⟨hselect, hnone⟩ | ⟨name, hselect, hmissing, hleast⟩
  · rw [compile_ok hselect]
    refine ⟨fun error => ⟨nofun, fun ⟨name, _, hname, _⟩ => absurd hname (hnone name)⟩,
      ⟨fun _ => hnone, fun _ => ⟨_, rfl⟩⟩, ?_, ?_, ?_, ?_, ?_,
      fun key e spec table => names_releasesOf⟩
    · rintro profiles ⟨⟩
      exact increasing_names _
    · rintro profiles ⟨⟩ key
      exact mem_names
    · rintro profiles ⟨⟩ profile hprofile
      have heq := congrArg Profile.artifacts (profile_eq hprofile)
      rw [compileKey_eq] at heq
      rw [heq]
      have himages := forall₂_filterMap (isSome_artifactOf? producers settings w profile.name)
        (building profile.name (chosen w selected))
      have hnamed : ∀ e ∈ List.filter (fun e => makesImage producers e.2)
          (building profile.name (chosen w selected)), e.2.name = e.1 := fun e he =>
        name_of_mem_chosen hw (List.mem_filter.1 (List.mem_filter.1 he).1).1
      refine ((List.forall₂_and_left _ _).2 ⟨hnamed, himages⟩).imp fun e a ⟨hname, ha⟩ => ?_
      exact ⟨ha, (project_of_artifactOf? producers settings w ha).trans hname.symm⟩
    · rintro profiles ⟨⟩ profile hprofile
      have heq := congrArg (·.deployment.releases) (profile_eq hprofile)
      rwa [compileKey_eq] at heq
    · rintro profiles ⟨⟩ profile hprofile
      have heq := congrArg (·.deployment.providerSetup) (profile_eq hprofile)
      rwa [compileKey_eq] at heq
  · rw [compile_error hselect]
    refine ⟨fun error => ⟨?_, ?_⟩, ⟨nofun, fun hnone => absurd hmissing (hnone name)⟩,
      nofun, nofun, nofun, nofun, nofun, fun key e spec table => names_releasesOf⟩
    · rintro ⟨⟩
      exact ⟨name, rfl, hmissing, hleast⟩
    · rintro ⟨other, rfl, hother, hother'⟩
      have heq : name = other :=
        String.le_antisymm (hleast other hother) (hother' name hmissing)
      rw [heq]

/-- A service with an image and a site that is a bundle, both built for one environment. -/
def small : Workspace :=
  let spec (tool : String) : Spec := ⟨tool, [], [("dev", [])], none⟩
  let project (name build deploy : String) : String × Project := (name,
    { name, root := name, language := "", localOptions := [], metadata := [], extra := []
      architect := { build := some (spec build), deploy := some (spec deploy) } })
  { info := {}, projects := [project "api" "ko" "helm", project "web" "vite" "helm"], build := {}
    environments := [], infrastructure := [], extra := [] }

theorem small_normal : small.Normal := by
  refine ⟨fun key p h => ?_, show List.Pairwise (· < ·) ["api", "web"] by decide +kernel⟩
  simp only [small, Dict.get?] at h
  split_ifs at h with hapi hweb
  · rw [← hapi, ← Option.some.inj h]
  · rw [← hweb, ← Option.some.inj h]

/-- The bundle has no artifact, and its release is in the profile that the service keeps. -/
theorem compile_small :
    Meaning (.builtin .builtin) (fun _ => false) {} small []
        (compile (.builtin .builtin) (fun _ => false) {} small []) ∧
      (compile (.builtin .builtin) (fun _ => false) {} small []).toOption.map (List.map fun profile =>
        (profile.name, profile.artifacts.map (·.project),
          profile.deployment.releases.map (·.name))) = some [("dev", ["api"], ["api", "web"])] :=
  ⟨compile_means small_normal _ _ _ _, by decide +kernel⟩

end

end Rollout.Profile

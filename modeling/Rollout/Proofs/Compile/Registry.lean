import Mathlib.Tactic.Common
import Rollout.Proofs.Compile.Profile
import Rollout.Proofs.Settings.Sources

/-!
# The registry of an image

An image is named below the first usable registry of a chain of sources. A default in the settings
is meant for workspaces that name no registry, but it is asked before the workspace. So the order
that is meant decides the name exactly if no such default hides the workspace's registry
(`image_registry`), and a blank default hides it as well.
-/

namespace Rollout

namespace Artifact

open Settings

section

variable (w : Workspace) (key : String) (build : Spec) (settings : CompileSettings)

/-- The registries that are named for one project: by hand, by a text among its build options,
by the environment. -/
def namedRegistries : List (Option String) :=
  [settings.registryOverride, ((build.optionsFor key).get? "registry").bind OptionValue.asText?,
    (w.environments.get? key).bind (·.registry)]

/-- The sources in the order that is meant: the default only after the workspace. -/
def meantSources : List (Option String) :=
  namedRegistries w key build settings ++ [w.build.registry, settings.defaultRegistry]

/-- The sources that are asked: the workspace only where there is no default. -/
def askedSources : List (Option String) :=
  namedRegistries w key build settings ++ [settings.defaultRegistry.or w.build.registry]

/-- It is for the workspace's registry to decide, and there is another default. -/
def Hidden : Prop :=
  (∀ source ∈ namedRegistries w key build settings, Unusable source) ∧
    ∃ own default, w.build.registry = some own ∧ Text.isBlank own = false ∧
      settings.defaultRegistry = some default ∧ default ≠ own

theorem decides_registryOf :
    Decides (askedSources w key build settings)
      (registryOf w key settings.registryOverride (build.optionsFor key)
        (settings.defaultRegistry.or w.defaultRegistry)) := by
  rw [decides_iff, registryOf]
  refine congrArg (Option.getD · "") (firstUsable_congr ?_)
  have hoptions : (build.optionsFor key).text? "registry" =
      (((build.optionsFor key).get? "registry").bind OptionValue.asText?).bind Text.nonBlank? :=
    (Option.bind_assoc _ _ _).symm
  have hdefault : (settings.defaultRegistry.or w.defaultRegistry).bind Text.nonBlank? =
      (settings.defaultRegistry.or w.build.registry).bind Text.nonBlank? := by
    cases settings.defaultRegistry with
    | none => exact nonBlank?_nonBlank? w.build.registry
    | some default => rfl
  simp only [askedSources, namedRegistries, List.cons_append, List.nil_append, List.map_cons,
    List.map_nil, hoptions, hdefault, nonBlank?_nonBlank?, fromEnvironment]

/-- The source that is asked last decides what is meant, unless a default hides the workspace's
registry. -/
theorem last_iff_not_hidden {own default : Option String} {r : String}
    (hr : Decides [default.or own] r) :
    Decides [own, default] r ↔ ¬ ∃ s t, own = some s ∧ Text.isBlank s = false ∧
      default = some t ∧ t ≠ s := by
  rcases unusable_or own with hown | ⟨s, rfl, hs⟩
  · have hnone : ¬ ∃ s t, own = some s ∧ Text.isBlank s = false ∧ default = some t ∧ t ≠ s := by
      rintro ⟨s, t, rfl, hs, -⟩
      simp [hown s rfl] at hs
    rw [decides_later hown]
    cases default with
    | none =>
      rw [Option.none_or, decides_later hown] at hr
      exact iff_of_true ((decides_later unusable_none).2 hr) hnone
    | some t => exact iff_of_true hr hnone
  · rw [decides_first hs]
    cases default with
    | none => simpa using (decides_first hs).1 hr
    | some t =>
      rw [Option.some_or] at hr
      simp only [Option.some.injEq, exists_and_left, exists_eq_left', hs, true_and, ne_eq,
        not_not]
      constructor
      · rintro rfl
        cases hr with
        | first => rfl
        | later _ rest => simp [decides_iff.1 rest, firstUsable, Text.isBlank] at hs
      · rintro rfl
        exact (decides_first hs).1 hr

/-- What the sources decide that are asked is what is meant, unless a default hides the
workspace's registry. -/
theorem meant_iff_not_hidden {r : String} (hr : Decides (askedSources w key build settings) r) :
    Decides (meantSources w key build settings) r ↔ ¬ Hidden w key build settings := by
  unfold askedSources at hr
  unfold meantSources Hidden
  by_cases hnamed : ∀ source ∈ namedRegistries w key build settings, Unusable source
  · rw [decides_append hnamed] at hr ⊢
    rw [last_iff_not_hidden hr, and_iff_right hnamed]
  · rw [decides_append_congr hnamed _ [settings.defaultRegistry.or w.build.registry]]
    simp [hnamed, hr]

/-- Without a registry the image has the name of the project. -/
theorem imageNameOf_empty (name : String) : imageNameOf "" name = name := rfl

theorem unusable_asked
    (h : ∀ source ∈ meantSources w key build settings, Unusable source) :
    ∀ source ∈ askedSources w key build settings, Unusable source := by
  intro source hsource
  simp only [meantSources, askedSources, List.mem_append, List.mem_cons, List.not_mem_nil,
    or_false] at h hsource
  rcases hsource with hnamed | rfl
  · exact h source (.inl hnamed)
  · cases hdefault : settings.defaultRegistry with
    | none => exact h _ (.inr (.inl rfl))
    | some default => exact h _ (.inr (.inr hdefault.symm))

end

/-- An artifact comes from a build spec, and its image is named below the registry of the
project. -/
theorem imageName_of_compile? {producers : Producers} {w : Workspace} {name : String} {p : Project}
    {key : String} {settings : CompileSettings} {a : Artifact}
    (h : compile? producers w name p key settings = some a) :
    ∃ build, p.build = some build ∧
      a.imageName = imageNameOf (registryOf w key settings.registryOverride (build.optionsFor key)
        (settings.defaultRegistry.or w.defaultRegistry)) name := by
  simp only [compile?, bind, pure, Option.bind_eq_some_iff, Option.some.injEq] at h
  obtain ⟨build, hbuild, producer, -, target, -, ha⟩ := h
  refine ⟨build, hbuild, ?_⟩
  rw [← ha]

/-- A project whose builder makes an image has an artifact. Its image is named below the registry
that is decided by the sources that are asked, and this is the registry that is meant exactly if
no default hides the workspace's. Where no source is usable the image has the name of the
project. -/
theorem image_registry (producers : Producers) (w : Workspace) (name : String) (p : Project)
    (key : String) (settings : CompileSettings) (h : Profile.makesImage producers p = true) :
    ∃ build a r, p.build = some build ∧ compile? producers w name p key settings = some a ∧
      a.imageName = imageNameOf r name ∧ Decides (askedSources w key build settings) r ∧
      (Decides (meantSources w key build settings) r ↔ ¬ Hidden w key build settings) ∧
      ((∀ source ∈ meantSources w key build settings, Unusable source) → a.imageName = name) := by
  rw [← Profile.isSome_artifactOf? producers settings w key (name, p)] at h
  obtain ⟨a, ha⟩ := Option.isSome_iff_exists.1 h
  obtain ⟨build, hbuild, hname⟩ := imageName_of_compile? ha
  have hasked := decides_registryOf w key build settings
  refine ⟨build, a, _, hbuild, ha, hname, hasked, meant_iff_not_hidden w key build settings hasked,
    fun hunusable => ?_⟩
  rw [hname, eq_empty_of_decides (unusable_asked w key build settings hunusable) hasked,
    imageNameOf_empty]

/-- A service with an image. -/
def service : Project :=
  { name := "api", root := "api", language := "go", localOptions := [], metadata := [], extra := []
    architect := { build := some ⟨"ko", [], [], none⟩ } }

/-- A workspace that names a registry. -/
def registered : Workspace := { (default : Workspace) with build := { registry := some "own" } }

theorem service_registry :
    Profile.makesImage (.builtin .builtin) service = true ∧
      ∃ build a r, service.build = some build ∧
        compile? (.builtin .builtin) registered "api" service "dev" {} = some a ∧
        a.imageName = imageNameOf r "api" ∧ Decides (askedSources registered "dev" build {}) r ∧
        (Decides (meantSources registered "dev" build {}) r ↔
          ¬ Hidden registered "dev" build {}) ∧
        ((∀ source ∈ meantSources registered "dev" build {}, Unusable source) →
          a.imageName = "api") :=
  ⟨by decide +kernel, image_registry _ _ _ _ _ _ (by decide +kernel)⟩

/-- The workspace names a registry and no other source does but the default, which names the
image. -/
theorem default_hides_workspace :
    Decides (meantSources registered "dev" ⟨"ko", [], [], none⟩ { defaultRegistry := some "tool" })
        "own" ∧
      (compile? (.builtin .builtin) registered "api" service "dev"
        { defaultRegistry := some "tool" }).map (·.imageName) = some "tool/api" ∧
      imageNameOf "own" "api" = "own/api" := by
  refine ⟨?_, by decide +kernel, by decide +kernel⟩
  rw [decides_iff]
  decide +kernel

end Artifact
end Rollout

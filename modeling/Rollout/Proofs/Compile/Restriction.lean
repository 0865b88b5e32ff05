import Mathlib.Data.List.Sort
import Mathlib.Data.String.Basic
import Rollout.Proofs.Compile.Separation

/-!
# Selecting projects restricts the result

Compiling some projects gives what compiling more of them, or all, gives without the artifacts,
the releases and the provider setups of the others, and without the profiles that then have no
artifact (`compile_restricts`). So only the set of the selected names matters.
-/

namespace Rollout.Profile

/-- What a profile has of some projects, in its order. -/
def restrict (names : List String) (profile : Profile) : Profile :=
  { name := profile.name
    artifacts := profile.artifacts.filter fun a => names.contains a.project
    deployment := {
      releases := profile.deployment.releases.filter fun r => names.contains r.project
      providerSetup := profile.deployment.providerSetup.filter fun s => names.contains s.project } }

/-- What profiles have of some projects; those left without artifacts are dropped. -/
def restrictAll (names : List String) (profiles : List Profile) : List Profile :=
  (profiles.map (restrict names)).filter fun profile => !profile.artifacts.isEmpty

section

variable {producers : Producers} {present : Path → Bool} {settings : CompileSettings}
  {w : Workspace}

/-- The entries with one of some names. -/
def among (names : List String) (es : Dict Project) : Dict Project :=
  List.filter (fun e => names.contains e.1) es

theorem restrict_compileKey (names : List String) (es : Dict Project) (key : String) :
    restrict names (compileKey producers present settings w es key) =
      compileKey producers present settings w (among names es) key := by
  have hbuilding : List.filter (fun e => names.contains e.1) (building key es) =
      building key (among names es) := by
    simp only [building, among, List.filter_filter, Bool.and_comm]
  rw [compileKey_eq, compileKey_eq, restrict, ← hbuilding]
  simp only [List.filterMap_eq_flatMap_toList]
  rw [filter_flatMap_owner names.contains Artifact.project,
    filter_flatMap_owner names.contains Release.project,
    filter_flatMap_owner names.contains ProviderSetup.project]
  · exact fun e s hs => project_of_mem_setupsOf hs
  · exact fun e r hr => project_of_mem_releasesOf hr
  · exact fun e a ha => project_of_artifactOf? producers settings w (Option.mem_toList.1 ha)

variable (producers settings w) in
/-- The profiles of some projects. -/
def profilesOf (present : Path → Bool) (es : Dict Project) : List Profile :=
  ((keys es).map (compileKey producers present settings w es)).filter
    fun profile => !profile.artifacts.isEmpty

/-- A key stays in a restriction exactly if one of the entries that stay makes an image under it:
such a key is one of all entries, whose profile then has an artifact too. -/
theorem restrictAll_profilesOf (names : List String) (es : Dict Project) :
    restrictAll names (profilesOf producers settings w present es) =
      profilesOf producers settings w present (among names es) := by
  have hrestrict : restrict names ∘ compileKey producers present settings w es =
      compileKey producers present settings w (among names es) :=
    funext fun key => restrict_compileKey names es key
  have himage (es' : Dict Project) (key : String) :
      (!(compileKey producers present settings w es' key).artifacts.isEmpty) = true ↔
        ∃ e ∈ es', declares e.2 key ∧ makesImage producers e.2 := by
    rw [Bool.not_eq_true', isEmpty_artifacts]
  simp only [restrictAll, profilesOf, List.filter_map, List.map_map, hrestrict,
    List.filter_filter]
  refine congrArg (List.map _) ?_
  have hkeys (es' : Dict Project) : (keys es').Pairwise (· < ·) := Dict.pairwise_sortedKeys _
  refine List.Pairwise.eq_of_mem_iff ((hkeys _).filter _) ((hkeys _).filter _) fun key => ?_
  simp only [List.mem_filter, mem_keys, Function.comp_apply, Bool.and_eq_true, himage]
  constructor
  · rintro ⟨-, hstays, -⟩
    obtain ⟨e, he, hkey, -⟩ := id hstays
    exact ⟨⟨e, he, hkey⟩, hstays⟩
  · rintro ⟨-, hstays⟩
    obtain ⟨e, he, hkey, hmakes⟩ := id hstays
    have hmem : e ∈ es := (List.mem_filter.1 he).1
    exact ⟨⟨e, hmem, hkey⟩, hstays, e, hmem, hkey, hmakes⟩

theorem compile_eq_profilesOf (hw : w.Normal) {selected : List String}
    (hknown : ∀ name ∈ selected, name ∈ w.projects.keys) :
    compile producers present settings w selected =
      .ok (profilesOf producers settings w present (chosen w selected)) := by
  rcases select_cases hw.sorted selected with ⟨hselect, -⟩ | ⟨name, -, hmissing, -⟩
  · exact compile_ok hselect
  · exact absurd (hknown name hmissing.1) hmissing.2

/-- Of the projects that a larger selection chooses, a smaller one chooses its own. -/
theorem among_chosen {selected larger : List String} (hselected : selected ≠ [])
    (hlarger : larger = [] ∨ selected ⊆ larger) :
    among selected (chosen w larger) = chosen w selected := by
  unfold among chosen
  rw [List.filter_filter]
  refine List.filter_congr fun e _ => ?_
  have hsome : selected.isEmpty = false := by simpa using hselected
  rw [hsome, Bool.false_or, Bool.and_eq_left_iff_imp]
  intro hmem
  rcases hlarger with rfl | hsubset
  · rfl
  · have hmem : e.1 ∈ larger := hsubset (by simpa using hmem)
    simp [hmem]

theorem chosen_congr {selected other : List String} (h : ∀ name, name ∈ other ↔ name ∈ selected) :
    chosen w other = chosen w selected := by
  have hempty : other.isEmpty = selected.isEmpty := by
    rw [Bool.eq_iff_iff, List.isEmpty_iff, List.isEmpty_iff, List.eq_nil_iff_forall_not_mem,
      List.eq_nil_iff_forall_not_mem]
    simp only [h]
  refine List.filter_congr fun e _ => ?_
  rw [hempty, Bool.eq_iff_iff]
  simp only [Bool.or_eq_true, List.contains_iff_mem, h]

/-- Compiling some projects is restricting to them what compiling all gives, or what compiling
any selection gives that has them; their order and repetitions do not matter. -/
theorem compile_restricts (hw : w.Normal) (producers : Producers) (present : Path → Bool)
    (settings : CompileSettings) {selected : List String} (hselected : selected ≠ [])
    (hknown : ∀ name ∈ selected, name ∈ w.projects.keys) :
    ∃ all profiles,
      compile producers present settings w [] = .ok all ∧
      compile producers present settings w selected = .ok profiles ∧
      profiles = restrictAll selected all ∧
      (∀ other, (∀ name, name ∈ other ↔ name ∈ selected) →
        compile producers present settings w other = .ok profiles) ∧
      ∀ larger, selected ⊆ larger → (∀ name ∈ larger, name ∈ w.projects.keys) →
        ∃ more, compile producers present settings w larger = .ok more ∧
          profiles = restrictAll selected more := by
  have hrestrict (larger : List String) (hlarger : larger = [] ∨ selected ⊆ larger) :
      profilesOf producers settings w present (chosen w selected) =
        restrictAll selected (profilesOf producers settings w present (chosen w larger)) := by
    rw [restrictAll_profilesOf, among_chosen hselected hlarger]
  refine ⟨_, _, compile_eq_profilesOf hw (by simp), compile_eq_profilesOf hw hknown,
    hrestrict [] (.inl rfl), fun other hother => ?_, fun larger hlarger hexist => ?_⟩
  · rw [compile_eq_profilesOf hw fun name hname => hknown name ((hother name).1 hname),
      chosen_congr hother]
  · exact ⟨_, compile_eq_profilesOf hw hexist, hrestrict larger (.inr hlarger)⟩

/-- The service alone, named twice: the profile keeps its release and loses the site's. -/
theorem compile_small_service :
    ∃ all profiles,
      compile (.builtin .builtin) (fun _ => true) {} small [] = .ok all ∧
      compile (.builtin .builtin) (fun _ => true) {} small ["api", "api"] = .ok profiles ∧
      profiles = restrictAll ["api", "api"] all ∧
      all.map (·.deployment.releases.map (·.name)) = [["api", "web"]] ∧
      profiles.map (·.deployment.releases.map (·.name)) = [["api"]] := by
  obtain ⟨all, profiles, hall, hservice, hrestrict, -⟩ := compile_restricts small_normal
    (.builtin .builtin) (fun _ => true) {} (List.cons_ne_nil "api" ["api"]) (by decide)
  refine ⟨all, profiles, hall, hservice, hrestrict, Option.some.inj ?_, Option.some.inj ?_⟩
  · have hnames : (compile (.builtin .builtin) (fun _ => true) {} small []).toOption.map
        (List.map (·.deployment.releases.map (·.name))) = some [["api", "web"]] := by
      decide +kernel
    rwa [hall] at hnames
  · have hnames : (compile (.builtin .builtin) (fun _ => true) {} small ["api", "api"]).toOption.map
        (List.map (·.deployment.releases.map (·.name))) = some [["api"]] := by
      decide +kernel
    rwa [hservice] at hnames

end
end Rollout.Profile

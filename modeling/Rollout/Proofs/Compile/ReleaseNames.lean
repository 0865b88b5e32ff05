import Mathlib.Data.List.Nodup
import Mathlib.Data.List.Pairwise
import Mathlib.Data.String.Basic
import Mathlib.Tactic.Common
import Rollout.Proofs.Compile.Restriction

/-!
# Names of releases

A release has the name of its project, followed by a dash and an instance where the project lists
instances. So the names in a profile differ exactly if each project lists an instance once, and no
project lists one that goes on as the name of another project does. Where names differ each release
is found by its name; else the project with the longer name loses its release to one before it
(`release_names`).
-/

namespace Rollout

/-- What the names of releases end in after the project: nothing for one release, else a dash and
an instance for each. -/
def Release.endings (options : OptionMap) : List String :=
  match instances? options with
  | none => [""]
  | some instances => instances.map fun i => "-" ++ i.1

namespace Profile

section

variable (producers : Producers) (key : String)

/-- The endings of the releases of a project, which has some where its deployer has charts. -/
def endings (p : Project) : List String :=
  match p.deploy.map fun spec => (spec, producers.deployers.get? spec.tool) with
  | some (spec, some (.charts _)) => Release.endings (spec.optionsFor key)
  | _ => []

/-- A release of `e'` has the name of one of `e`: after the name of `e` both the name of `e'` and an
ending of `e` go on in the same way. -/
def Covers (e e' : String × Project) (ending : String) : Prop :=
  ∃ rest, e'.1 = e.1 ++ "-" ++ rest ∧ ending ∈ endings producers key e'.2 ∧
    "-" ++ rest ++ ending ∈ endings producers key e.2

/-- No two releases of projects have one name. -/
structure NamesDiffer (es : Dict Project) : Prop where
  instances : ∀ e ∈ es, (endings producers key e.2).Nodup
  projects : ∀ e ∈ es, ∀ e' ∈ es, ∀ ending, ¬ Covers producers key e e' ending

end

variable {producers : Producers} {present : Path → Bool} {settings : CompileSettings}
  {w : Workspace} {selected : List String} {key : String}

/-! ### Names that begin alike -/

/-- Of two ways to cut a text one goes on from the other. -/
theorem exists_of_append_eq {a b x y : String} (h : a ++ x = b ++ y) :
    (∃ s, b = a ++ s ∧ x = s ++ y) ∨ ∃ s, a = b ++ s ∧ y = s ++ x := by
  have hchars : a.toList ++ x.toList = b.toList ++ y.toList := by
    rw [← String.toList_append, h, String.toList_append]
  refine (List.append_eq_append_iff.1 hchars).imp ?_ ?_
  · rintro ⟨cs, hb, hx⟩
    exact ⟨String.ofList cs, String.toList_inj.1 (by simp [hb]), String.toList_inj.1 (by simp [hx])⟩
  · rintro ⟨cs, ha, hy⟩
    exact ⟨String.ofList cs, String.toList_inj.1 (by simp [ha]), String.toList_inj.1 (by simp [hy])⟩

/-- An ending is empty or starts with a dash. -/
theorem dash_of_mem_endings {p : Project} {ending s rest : String}
    (h : ending ∈ endings producers key p) (hs : s ≠ "") (hending : ending = s ++ rest) :
    ∃ t, s = "-" ++ t := by
  have hdash : ending = "" ∨ ∃ i, ending = "-" ++ i := by
    unfold endings Release.endings at h
    split at h
    · split at h
      · exact .inl (List.mem_singleton.1 h)
      · obtain ⟨i, -, rfl⟩ := List.mem_map.1 h
        exact .inr ⟨i.1, rfl⟩
    · cases h
  have hne : s.toList ≠ [] := fun hnil => hs (String.toList_inj.1 hnil)
  obtain ⟨c, cs, hchars⟩ := List.exists_cons_of_ne_nil hne
  rcases hdash with rfl | ⟨i, rfl⟩
  · have hnil := congrArg String.toList hending
    simp [hchars] at hnil
  · have hcons := congrArg String.toList hending
    simp only [String.toList_append, hchars, List.cons_append] at hcons
    obtain ⟨rfl, -⟩ := List.cons.inj (show '-' :: i.toList = _ from hcons)
    exact ⟨String.ofList cs, String.toList_inj.1 (by simp [hchars])⟩

theorem lt_of_append_dash (name rest : String) : name < name ++ "-" ++ rest := by
  have hlt : name.toList ++ [] < name.toList ++ '-' :: rest.toList :=
    List.append_left_lt (List.nil_lt_cons _ _)
  rw [String.lt_iff]
  simpa using hlt

/-- Releases of two projects with one name are one covering the other. -/
theorem covers_of_append_eq {e e' : String × Project} {x y : String} (hne : e.1 ≠ e'.1)
    (hx : x ∈ endings producers key e.2) (hy : y ∈ endings producers key e'.2)
    (h : e.1 ++ x = e'.1 ++ y) :
    Covers producers key e e' y ∨ Covers producers key e' e x := by
  rcases exists_of_append_eq h with ⟨s, hname, hending⟩ | ⟨s, hname, hending⟩
  · have hs : s ≠ "" := fun hs => hne (by simp [hname, hs])
    obtain ⟨t, rfl⟩ := dash_of_mem_endings hx hs hending
    exact .inl ⟨t, by rw [hname, String.append_assoc], hy, hending ▸ hx⟩
  · have hs : s ≠ "" := fun hs => hne (by simp [hname, hs])
    obtain ⟨t, rfl⟩ := dash_of_mem_endings hy hs hending
    exact .inr ⟨t, by rw [hname, String.append_assoc], hx, hending ▸ hy⟩

/-! ### The names in a profile -/

theorem map_name_releasesOf (e : String × Project) :
    (releasesOf producers present settings w key e).map (·.name) =
      (endings producers key e.2).map (e.1 ++ ·) := by
  unfold endings
  cases hspec : e.2.deploy with
  | none => simp [releasesOf, planOf, ReleasePlan.compile?, hspec]
  | some spec =>
    simp only [Option.map_some]
    cases htool : producers.deployers.get? spec.tool with
    | none => simp [releasesOf, planOf, ReleasePlan.compile?, hspec, htool]
    | some producer =>
      cases producer with
      | setup d => simp [releasesOf, planOf, ReleasePlan.compile?, hspec, htool]
      | charts table =>
        rw [names_releasesOf hspec htool]
        simp only [Release.endings]
        cases Release.instances? (spec.optionsFor key) with
        | none => simp
        | some instances => simp [Function.comp_def, String.append_assoc]

/-- The names of the releases of a compiled profile. -/
theorem names_of_compile (hw : w.Normal) {profiles : List Profile}
    (h : compile producers present settings w selected = .ok profiles) {profile : Profile}
    (hprofile : profile ∈ profiles) :
    profile.deployment.releases.map (·.name) =
      (building profile.name (chosen w selected)).flatMap
        fun e => (endings producers profile.name e.2).map (e.1 ++ ·) := by
  rw [releases_of_compile hw h hprofile, List.map_flatMap]
  simp only [map_name_releasesOf]

/-- Names are pairwise different exactly if no release covers another. -/
theorem nodup_names_iff {es : Dict Project} (hsorted : es.Sorted) :
    (es.flatMap fun e => (endings producers key e.2).map (e.1 ++ ·)).Nodup ↔
      NamesDiffer producers key es := by
  have hinjective (name : String) : Function.Injective (name ++ ·) := fun _ _ h =>
    (String.append_right_inj name).1 h
  have hnodup : List.Nodup es := .of_map _ hsorted.nodup_keys
  have hname : ∀ e ∈ es, ∀ e' ∈ es, e ≠ e' → e.1 ≠ e'.1 := fun e he e' he' hne heq =>
    hne (List.inj_on_of_nodup_map hsorted.nodup_keys he he' heq)
  rw [List.nodup_flatMap]
  simp only [List.nodup_map_iff (hinjective _)]
  constructor
  · rintro ⟨hinstances, hdisjoint⟩
    refine ⟨hinstances, fun e he e' he' ending ⟨rest, hrest, hending, hcovered⟩ => ?_⟩
    have hlt : e.1 < e'.1 := hrest ▸ lt_of_append_dash e.1 rest
    have hne : e ≠ e' := by
      rintro rfl
      exact String.lt_irrefl _ hlt
    have : Std.Symm (Function.onFun List.Disjoint
        fun e : String × Project => (endings producers key e.2).map (e.1 ++ ·)) :=
      ⟨fun _ _ => List.disjoint_symm⟩
    refine hdisjoint.forall he he' hne (List.mem_map_of_mem hcovered) ?_
    refine List.mem_map.2 ⟨ending, hending, ?_⟩
    simp only [hrest, String.append_assoc]
  · rintro ⟨hinstances, hprojects⟩
    refine ⟨hinstances, hnodup.pairwise_of_forall_ne fun e he e' he' hne name hmem hmem' => ?_⟩
    obtain ⟨x, hx, rfl⟩ := List.mem_map.1 hmem
    obtain ⟨y, hy, heq⟩ := List.mem_map.1 hmem'
    rcases covers_of_append_eq (hname e he e' he' hne) hx hy heq.symm with hcovers | hcovers
    · exact hprojects e he e' he' y hcovers
    · exact hprojects e' he' e he x hcovers

/-! ### Releases found by their names -/

/-- A search ends no later than at any element that it may end at. -/
theorem exists_find?_of_pairwise {α : Type} {l : List α} {R : α → α → Prop} (hl : l.Pairwise R)
    (found : α → Bool) {b : α} (hb : b ∈ l) (hfound : found b = true) :
    ∃ a, l.find? found = some a ∧ found a = true ∧ (a = b ∨ R a b) := by
  obtain ⟨a, ha⟩ := Option.isSome_iff_exists.1 (List.find?_isSome.2 ⟨b, hb, hfound⟩)
  obtain ⟨hfounda, before, after, hsplit, hbefore⟩ := List.find?_eq_some_iff_append.1 ha
  refine ⟨a, ha, hfounda, ?_⟩
  rw [hsplit] at hb hl
  rcases List.mem_append.1 hb with hb | hb
  · have hnot := hbefore b hb
    simp [hfound] at hnot
  · rcases List.mem_cons.1 hb with rfl | hb
    · exact .inl rfl
    · exact .inr ((List.pairwise_cons.1 (List.pairwise_append.1 hl).2.1).1 b hb)

/-- Releases stand in the order of their projects. -/
theorem pairwise_project {es : Dict Project} (hsorted : es.Sorted) :
    (es.flatMap (releasesOf producers present settings w key)).Pairwise
      fun r r' => r.project ≤ r'.project := by
  refine List.pairwise_flatMap.2 ⟨fun e _ => ?_, (List.pairwise_map.1 hsorted).imp ?_⟩
  · refine List.pairwise_iff_forall_sublist.2 fun {r r'} hsublist => ?_
    have hr : r ∈ releasesOf producers present settings w key e := hsublist.subset (by simp)
    have hr' : r' ∈ releasesOf producers present settings w key e := hsublist.subset (by simp)
    rw [project_of_mem_releasesOf hr, project_of_mem_releasesOf hr']
  · intro e e' hlt r hr r' hr'
    rw [project_of_mem_releasesOf hr, project_of_mem_releasesOf hr']
    exact le_of_lt hlt

variable (present settings w) in
theorem exists_release {es : Dict Project} {e : String × Project} (he : e ∈ es) {ending : String}
    (h : ending ∈ endings producers key e.2) :
    ∃ r ∈ es.flatMap (releasesOf producers present settings w key),
      r.name = e.1 ++ ending ∧ r.project = e.1 := by
  have hname : e.1 ++ ending ∈
      (releasesOf producers present settings w key e).map (·.name) := by
    rw [map_name_releasesOf]
    exact List.mem_map_of_mem h
  obtain ⟨r, hr, hname⟩ := List.mem_map.1 hname
  exact ⟨r, List.mem_flatMap.2 ⟨e, he, hr⟩, hname, project_of_mem_releasesOf hr⟩

/-- Where names differ a release is found by its own. -/
theorem release?_of_nodup {profile : Profile}
    (h : (profile.deployment.releases.map (·.name)).Nodup) {r : Release}
    (hr : r ∈ profile.deployment.releases) : profile.release? r.name = some r := by
  have hne : profile.deployment.releases.Pairwise fun r r' => r.name ≠ r'.name :=
    List.pairwise_map.1 h
  obtain ⟨r', hfound, hname, heq | hne⟩ :=
    exists_find?_of_pairwise hne (·.name = r.name) hr (by simp)
  · rw [release?, hfound, heq]
  · exact absurd (by simpa using hname) hne

/-- A release that is covered has its name from a release before it, which is found in its
place. -/
theorem release?_of_covers {es : Dict Project} (hsorted : es.Sorted) {profile : Profile}
    (hreleases : profile.deployment.releases =
      es.flatMap (releasesOf producers present settings w key))
    {e e' : String × Project} (he : e ∈ es) {ending : String}
    (h : Covers producers key e e' ending) :
    ∃ r, profile.release? (e'.1 ++ ending) = some r ∧ r.project < e'.1 := by
  obtain ⟨rest, hrest, -, hcovered⟩ := h
  obtain ⟨other, hother, hname, hproject⟩ := exists_release present settings w he hcovered
  have hsame : other.name = e'.1 ++ ending := by
    rw [hname, hrest]
    simp only [String.append_assoc]
  have hpairwise : profile.deployment.releases.Pairwise fun r r' => r.project ≤ r'.project :=
    hreleases ▸ pairwise_project hsorted
  obtain ⟨r, hr, -, hbefore⟩ := exists_find?_of_pairwise hpairwise (·.name = e'.1 ++ ending)
    (hreleases ▸ hother) (by simp [hsame])
  refine ⟨r, hr, ?_⟩
  calc r.project ≤ other.project := by
        rcases hbefore with rfl | hle
        · rfl
        · exact hle
    _ = e.1 := hproject
    _ < e'.1 := hrest ▸ lt_of_append_dash e.1 rest

/-- The names of the releases of a profile differ exactly if those of its projects do, and then
each release is the one of its name. Where a project covers a release of another, what is found by
the name of that release is one of a project before its own. -/
theorem release_names (hw : w.Normal) {profiles : List Profile}
    (h : compile producers present settings w selected = .ok profiles) {profile : Profile}
    (hprofile : profile ∈ profiles) :
    let projects := building profile.name (chosen w selected)
    ((profile.deployment.releases.map (·.name)).Nodup ↔
        NamesDiffer producers profile.name projects) ∧
      (NamesDiffer producers profile.name projects →
        ∀ r ∈ profile.deployment.releases, profile.release? r.name = some r) ∧
      ∀ e ∈ projects, ∀ e' ∈ projects, ∀ ending, Covers producers profile.name e e' ending →
        (∃ r ∈ profile.deployment.releases, r.name = e'.1 ++ ending ∧ r.project = e'.1) ∧
          ∃ r, profile.release? (e'.1 ++ ending) = some r ∧ r.project < e'.1 := by
  intro projects
  have hsorted : projects.Sorted := (hw.sorted.filter _).filter _
  have hreleases := releases_of_compile hw h hprofile
  have hnodup : (profile.deployment.releases.map (·.name)).Nodup ↔
      NamesDiffer producers profile.name projects := by
    rw [names_of_compile hw h hprofile, nodup_names_iff hsorted]
  refine ⟨hnodup, fun hdiffer r hr => release?_of_nodup (hnodup.2 hdiffer) hr,
    fun e he e' he' ending hcovers => ⟨?_, release?_of_covers hsorted hreleases he hcovers⟩⟩
  obtain ⟨-, -, hending, -⟩ := hcovers
  rw [hreleases]
  exact exists_release present settings w he' hending

/-- A project with one instance and another that is released once, in namespaces of their own. -/
def webAnd (other : String) : Workspace :=
  let project (name : String) (options : OptionMap) : String × Project := (name,
    { name, root := name, language := "", localOptions := [], metadata := [], extra := []
      architect := {
        build := some ⟨"ko", [], [("dev", [])], none⟩
        deploy := some ⟨"helm", options, [], none⟩ } })
  { small with
    projects := [
      project "web" [("instances", .list [.text "api"]), ("namespace", .text "shared")],
      project other [("namespace", .text "own")]] }

theorem webAnd_normal {other : String} (h : "web" < other) : (webAnd other).Normal := by
  refine ⟨fun key p hp => ?_, List.pairwise_pair.2 h⟩
  simp only [webAnd, Dict.get?] at hp
  split_ifs at hp with hweb hother
  · rw [← hweb, ← Option.some.inj hp]
  · rw [← hother, ← Option.some.inj hp]

/-- Beside a project of another name the instance is found by its name, and so is the other. -/
theorem names_beside_zone :
    ∃ profile,
      compile (.builtin .builtin) (fun _ => false) {} (webAnd "zone") [] = .ok [profile] ∧
      profile.deployment.releases.map (·.name) = ["web-api", "zone"] ∧
      NamesDiffer (.builtin .builtin) profile.name
        (building profile.name (chosen (webAnd "zone") [])) ∧
      ∀ r ∈ profile.deployment.releases, profile.release? r.name = some r := by
  have hw : (webAnd "zone").Normal := webAnd_normal (by decide)
  obtain ⟨profiles, h⟩ : ∃ profiles,
      compile (.builtin .builtin) (fun _ => false) {} (webAnd "zone") [] = .ok profiles :=
    ⟨_, compile_eq_profilesOf hw (by simp)⟩
  have hall : (compile (.builtin .builtin) (fun _ => false) {} (webAnd "zone") []).toOption.map
      (List.map (·.deployment.releases.map (·.name))) = some [["web-api", "zone"]] := by
    decide +kernel
  rw [h] at hall
  obtain ⟨profile, rfl, hnames⟩ := List.map_eq_singleton_iff.1 (Option.some.inj hall)
  obtain ⟨hnodup, hfound, -⟩ := release_names hw h (List.mem_singleton.2 rfl)
  have hdiffer := hnodup.1 (hnames ▸ by decide)
  exact ⟨profile, h, hnames, hdiffer, hfound hdiffer⟩

/-- Beside a project named as the first and its instance together, both releases have that name,
and the one found by it is not that of the project with the name. -/
theorem names_beside_web_api :
    (compile (.builtin .builtin) (fun _ => false) {} (webAnd "web-api") []).toOption.map
        (List.map fun profile =>
          (profile.deployment.releases.map fun r => (r.name, r.project, r.namespace_),
            (profile.release? "web-api").map (·.project))) =
      some [([("web-api", "web", "shared"), ("web-api", "web-api", "own")], some "web")] := by
  decide +kernel

end Profile
end Rollout

import Mathlib.Tactic.Common
import Rollout.Config.Basic
import Rollout.Proofs.Compile.ChartFiles
import Rollout.Proofs.Settings.Sources
import Rollout.Proofs.Text.Split
import Rollout.Proofs.Text.Trim

/-!
# The charts of languages

A language has the chart of its entry, configured or built in, and a blank entry counts as none.
What is left is the default, and there a blank text does not count as none: a configured default
that is blank takes the place of the one that comes with the program. Exactly then a release
without a chart of its own has the root of the workspace as its chart (`chart_of_language`).
-/

namespace Rollout

/-- The chart has a text as its name, white space at its ends aside, and is remote exactly if the
name has a scheme. -/
structure Chart.NamedBy (chart : Chart) (text : String) : Prop where
  text_eq : chart.text = Text.trim text
  remote : (∃ reference, chart = .remote reference) ↔ "://".toList <:+: chart.text.toList

theorem Chart.namedBy_ofText (text : String) : (ofText text).NamedBy text := by
  unfold ofText
  by_cases h : Text.holds [':', '/', '/'] (Text.trim text).toList = true
  · simp only [if_pos h]
    exact ⟨rfl, iff_of_true ⟨_, rfl⟩ (Text.holds_iff.mp h)⟩
  · simp only [if_neg h]
    refine ⟨rfl, iff_of_false ?_ fun hscheme => h (Text.holds_iff.mpr hscheme)⟩
    rintro ⟨reference, hreference⟩
    cases hreference

theorem Chart.ofText_congr {text other : String} (h : Text.trim text = Text.trim other) :
    ofText text = ofText other := by
  rw [ofText, ofText, h]

namespace ChartTable

open Settings

/-- A language is looked up among the configured charts, where `default` is no language, and then
in the table below them. -/
theorem get?_withOverrides (table : ChartTable) {overrides : Dict String} (h : overrides.Sorted)
    (language : String) :
    (table.withOverrides overrides).byLanguage.get? language =
      (if language = "default" then none else overrides.get? language).or
        (table.byLanguage.get? language) := by
  have hnodup : (Dict.erase "default" overrides).keys.Nodup := (h.filter _).nodup_keys
  rw [withOverrides, Dict.get?_overlay, Dict.get?_reverse hnodup, Dict.get?_erase]
  by_cases hlanguage : language = "default"
  · simp [hlanguage]
  · simp [hlanguage, Ne.symm hlanguage]

/-- A chart is that of the text which the entry and the default decide. -/
theorem forLanguage_of_decides {table : ChartTable} {language s : String}
    (h : Decides [table.byLanguage.get? language, some table.fallback] s) :
    table.forLanguage language = Chart.ofText s := by
  unfold forLanguage
  generalize table.byLanguage.get? language = entry at h ⊢
  apply Chart.ofText_congr
  rcases unusable_or entry with hentry | ⟨t, rfl, ht⟩
  · rw [decides_later hentry] at h
    rw [bind_nonBlank?_of_unusable hentry, Option.getD_none]
    by_cases hblank : Text.isBlank table.fallback = true
    · have hs : s = "" := eq_empty_of_decides (by simp [Unusable, hblank]) h
      rw [hs, Text.trim_eq_empty_iff.mpr hblank]
      rfl
    · rw [(decides_first (Bool.not_eq_true _ ▸ hblank)).mp h]
  · rw [(decides_first ht).mp h, Option.bind_some, Text.nonBlank?, ht]
    rfl

section

variable (c : Config) (language : String)

/-- The entry of a language: the configured one, or else the one that comes with the program. -/
def entryFor : Option String :=
  (if language = "default" then none else c.charts.get? language).or
    (builtin.byLanguage.get? language)

/-- The texts in the order that is meant: a blank default counts as none. -/
def meantTexts : List (Option String) :=
  [entryFor c language, c.charts.get? "default", some builtin.fallback]

/-- The texts that are asked: a default that is configured is the last. -/
def askedTexts : List (Option String) :=
  [entryFor c language, (c.charts.get? "default").or (some builtin.fallback)]

/-- It is for the default to decide, and a blank one is configured. -/
def LeftBlank : Prop :=
  Unusable (entryFor c language) ∧
    ∃ default, c.charts.get? "default" = some default ∧ Text.isBlank default = true

variable {c language}

theorem forLanguage_of_asked (h : c.charts.Sorted) {s : String}
    (hs : Decides (askedTexts c language) s) :
    c.chartTable.forLanguage language = Chart.ofText s := by
  apply forLanguage_of_decides
  rw [Config.chartTable, get?_withOverrides builtin h language]
  have hfallback : some (builtin.withOverrides c.charts).fallback =
      (c.charts.get? "default").or (some builtin.fallback) := by
    cases hdefault : c.charts.get? "default" <;> simp [withOverrides, hdefault]
  rw [hfallback]
  exact hs

/-- The text that is asked for is usable and what is meant, or it is what a blank default comes
to. -/
theorem asked_cases {s : String} (hs : Decides (askedTexts c language) s) :
    Text.isBlank s = false ∧ Decides (meantTexts c language) s ∧ ¬ LeftBlank c language ∨
      s = "" ∧ LeftBlank c language := by
  unfold askedTexts at hs
  unfold meantTexts LeftBlank
  rcases unusable_or (entryFor c language) with hentry | ⟨t, hentry, ht⟩
  · rw [decides_later hentry] at hs
    rw [decides_later hentry]
    cases hdefault : c.charts.get? "default" with
    | none =>
      rw [hdefault, Option.none_or, decides_first (by decide)] at hs
      left
      rw [hs, decides_later unusable_none]
      exact ⟨by decide, .first (by decide), by simp⟩
    | some default =>
      rw [hdefault, Option.some_or] at hs
      by_cases hblank : Text.isBlank default = true
      · right
        exact ⟨eq_empty_of_decides (by simp [Unusable, hblank]) hs, hentry, default, rfl, hblank⟩
      · have husable : Text.isBlank default = false := Bool.not_eq_true _ ▸ hblank
        left
        rw [(decides_first husable).mp hs]
        exact ⟨husable, .first husable, by simp [husable]⟩
  · rw [hentry, decides_first ht] at hs
    left
    rw [hs, hentry]
    exact ⟨ht, .first ht, fun h => by simp [h.1 t rfl] at ht⟩

/-- The chart is blank exactly if a blank default is left. -/
theorem isBlank_iff_leftBlank {s : String} (hs : Decides (askedTexts c language) s) :
    Text.isBlank s = true ↔ LeftBlank c language := by
  rcases asked_cases hs with ⟨hblank, -, hleft⟩ | ⟨rfl, hleft⟩
  · simp [hblank, hleft]
  · exact iff_of_true rfl hleft

/-- What is meant is never blank, so a blank default is not left where it is asked for. -/
theorem meant_iff_not_leftBlank {s : String} (hs : Decides (askedTexts c language) s) :
    Decides (meantTexts c language) s ↔ ¬ LeftBlank c language := by
  constructor
  · intro hmeant hleft
    have husable : ¬ Unusable (some builtin.fallback) := by
      intro h
      exact absurd (h _ rfl) (by decide)
    have hblank := hmeant.isBlank_eq_false ⟨_, by simp [meantTexts], husable⟩
    rw [(isBlank_iff_leftBlank hs).mpr hleft] at hblank
    cases hblank
  · intro h
    rcases asked_cases hs with ⟨-, hmeant, -⟩ | ⟨-, hleft⟩
    · exact hmeant
    · exact absurd hleft h

end

/-- The chart of a language has the first usable of the texts that are asked as its name, which is
the one that is meant unless a blank default is left. Exactly then the chart is blank, and the
chart of a release that names none of its own is the root of the workspace. -/
theorem chart_of_language (c : Config) (h : c.charts.Sorted) (language : String) :
    let chart := c.chartTable.forLanguage language
    ∃ s, Decides (askedTexts c language) s ∧ chart.NamedBy s ∧
      (Decides (meantTexts c language) s ↔ ¬ LeftBlank c language) ∧
      (Text.isBlank chart.text = true ↔ LeftBlank c language) ∧
      ∀ (present : Path → Bool) (root : Path) (w : Workspace) (project : String) (p : Project)
        (key name : String) (options : OptionMap), p.language = language →
        options.text? "chartPath" = none →
        let r := Release.compile present root c.chartTable w project p key name options
        r.chart = chart ∧ (r.chart = .folder ⟨""⟩ ↔ LeftBlank c language) := by
  intro chart
  have hs := decides_firstUsable (askedTexts c language)
  generalize (firstUsable (askedTexts c language)).getD "" = s at hs
  have hchart : chart = Chart.ofText s := forLanguage_of_asked h hs
  have hnamed : chart.NamedBy s := hchart ▸ Chart.namedBy_ofText s
  refine ⟨s, hs, hnamed, meant_iff_not_leftBlank hs, ?_, ?_⟩
  · rw [hnamed.text_eq, Text.isBlank_trim]
    exact isBlank_iff_leftBlank hs
  · intro present root w project p key name options hlanguage hpath r
    have hfiles : Release.HasChartFiles present root c.chartTable p key options r :=
      Release.hasChartFiles_compile name options
    have hr : r.chart = chart := by rw [hfiles.listed hpath, hlanguage]
    refine ⟨hr, ?_⟩
    rw [hr, ← isBlank_iff_leftBlank hs, ← Text.trim_eq_empty_iff, ← hnamed.text_eq]
    constructor
    · intro hfolder
      rw [hfolder]
      rfl
    · intro htext
      have htrim : Text.trim s = Text.trim "" := hnamed.text_eq.symm.trans htext
      rw [hchart, Chart.ofText_congr htrim]
      rfl

/-- Charts that are configured with a blank default. -/
def withBlankDefault : Config := { charts := [("default", " "), ("go", "charts/go")] }

theorem go_chart_named :
    withBlankDefault.charts.Sorted ∧
      (withBlankDefault.chartTable.forLanguage "go").NamedBy "charts/go" := by
  refine ⟨by decide, ?_⟩
  obtain ⟨s, hs, hnamed, -⟩ := chart_of_language withBlankDefault (by decide) "go"
  have hgo : s = "charts/go" := hs.unique (.first (by decide))
  exact hgo ▸ hnamed

/-- A language without an entry is left with the blank default, although the program comes with
one, and the values of its releases are looked for at the root of the workspace. -/
theorem blank_default_left :
    Decides (meantTexts withBlankDefault "rust") "oci://ghcr.io/keel-charts/service" ∧
      withBlankDefault.chartTable.forLanguage "rust" = .folder ⟨""⟩ ∧
      (Release.compile (fun _ => false) ⟨"."⟩ withBlankDefault.chartTable default "api"
        { (default : Project) with language := "rust" } "dev" "api" []).valueFiles =
          [⟨"envs/dev/values.yaml"⟩] := by
  refine ⟨?_, by decide, by decide⟩
  rw [decides_iff]
  decide

end ChartTable
end Rollout

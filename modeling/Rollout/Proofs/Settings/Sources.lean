import Mathlib.Tactic.Common
import Rollout.Settings

/-!
# Chains of sources

A setting is the first usable value of a chain of sources. What a chain decides is said here
without its evaluation: sources that are absent or blank are passed over, and what comes after the
first usable one does not count.
-/

namespace Rollout

namespace Settings

/-- A source that is absent or blank. -/
def Unusable (source : Option String) : Prop := ∀ s, source = some s → Text.isBlank s = true

/-- What a chain of sources comes to: its first value that is not blank, or the empty text. -/
inductive Decides : List (Option String) → String → Prop
  | first {s : String} {sources : List (Option String)} (usable : Text.isBlank s = false) :
    Decides (some s :: sources) s
  | later {source : Option String} {sources : List (Option String)} {s : String}
    (unusable : Unusable source) (rest : Decides sources s) : Decides (source :: sources) s
  | nothing : Decides [] ""

theorem unusable_none : Unusable none := nofun

theorem unusable_or (source : Option String) :
    Unusable source ∨ ∃ s, source = some s ∧ Text.isBlank s = false := by
  cases source with
  | none => exact .inl unusable_none
  | some s => cases h : Text.isBlank s <;> simp [Unusable, h]

theorem bind_nonBlank?_of_unusable {source : Option String} (h : Unusable source) :
    source.bind Text.nonBlank? = none := by
  rw [Option.bind_eq_none_iff]
  intro s hs
  rw [Text.nonBlank?, h s hs, if_pos rfl]

theorem Decides.unique {sources : List (Option String)} {s t : String} (hs : Decides sources s)
    (ht : Decides sources t) : s = t := by
  induction hs with
  | first usable =>
    cases ht with
    | first => rfl
    | later unusable => simp [unusable _ rfl] at usable
  | later unusable _ ih =>
    cases ht with
    | first usable => simp [unusable _ rfl] at usable
    | later _ rest => exact ih rest
  | nothing => cases ht; rfl

theorem decides_firstUsable (sources : List (Option String)) :
    Decides sources ((firstUsable sources).getD "") := by
  induction sources with
  | nil => exact .nothing
  | cons source sources ih =>
    rw [firstUsable]
    cases source with
    | none => exact .later unusable_none ih
    | some s =>
      cases hs : Text.isBlank s with
      | false => simpa [Text.nonBlank?, hs] using Decides.first hs
      | true =>
        have hsource : Unusable (some s) := by simp [Unusable, hs]
        simpa [Text.nonBlank?, hs] using Decides.later hsource ih

/-- A chain decides one value, which is the one that is found. -/
theorem decides_iff {sources : List (Option String)} {s : String} :
    Decides sources s ↔ s = (firstUsable sources).getD "" :=
  ⟨fun h => h.unique (decides_firstUsable sources), fun h => h ▸ decides_firstUsable sources⟩

/-- A usable default is the last source of a chain. -/
theorem decides_getD (sources : List (Option String)) {default : String}
    (h : Text.isBlank default = false) :
    Decides (sources ++ [some default]) ((firstUsable sources).getD default) := by
  induction sources with
  | nil => exact .first h
  | cons source sources ih =>
    rw [firstUsable, List.cons_append]
    rcases unusable_or source with hsource | ⟨s, rfl, hs⟩
    · rw [bind_nonBlank?_of_unusable hsource, Option.none_or]
      exact .later hsource ih
    · simpa [Text.nonBlank?, hs] using Decides.first hs

/-- A chain with a usable source decides no blank value. -/
theorem Decides.isBlank_eq_false {sources : List (Option String)} {s : String}
    (h : Decides sources s) (husable : ∃ source ∈ sources, ¬ Unusable source) :
    Text.isBlank s = false := by
  induction h with
  | first usable => exact usable
  | later unusable _ ih =>
    obtain ⟨source, hsource, hnot⟩ := husable
    rcases List.mem_cons.1 hsource with rfl | hsource
    · exact absurd unusable hnot
    · exact ih ⟨source, hsource, hnot⟩
  | nothing =>
    obtain ⟨_, hsource, -⟩ := husable
    cases hsource

/-- Only what is usable of a source counts. -/
theorem firstUsable_congr {sources others : List (Option String)}
    (h : sources.map (·.bind Text.nonBlank?) = others.map (·.bind Text.nonBlank?)) :
    firstUsable sources = firstUsable others := by
  induction sources generalizing others with
  | nil => simp [List.eq_nil_of_map_eq_nil h.symm]
  | cons source sources ih =>
    cases others with
    | nil => cases h
    | cons other others =>
      obtain ⟨hhead, htail⟩ := List.cons.inj h
      exact congrArg₂ Option.or hhead (ih htail)

theorem nonBlank?_nonBlank? (source : Option String) :
    (source.bind Text.nonBlank?).bind Text.nonBlank? = source.bind Text.nonBlank? := by
  cases source with
  | none => rfl
  | some s => cases h : Text.isBlank s <;> simp [Text.nonBlank?, h]

theorem decides_later {source : Option String} {sources : List (Option String)} {s : String}
    (h : Unusable source) : Decides (source :: sources) s ↔ Decides sources s := by
  refine ⟨fun hs => ?_, .later h⟩
  cases hs with
  | first usable => simp [h _ rfl] at usable
  | later _ rest => exact rest

theorem decides_first {sources : List (Option String)} {s t : String}
    (h : Text.isBlank s = false) : Decides (some s :: sources) t ↔ t = s :=
  ⟨fun ht => ht.unique (.first h), fun ht => by rw [ht]; exact .first h⟩

/-- After unusable sources only the rest counts. -/
theorem decides_append {before after : List (Option String)} {s : String}
    (h : ∀ source ∈ before, Unusable source) :
    Decides (before ++ after) s ↔ Decides after s := by
  induction before with
  | nil => rfl
  | cons source before ih =>
    rw [List.cons_append, decides_later (h source List.mem_cons_self)]
    exact ih fun source hsource => h source (List.mem_cons_of_mem _ hsource)

theorem eq_empty_of_decides {sources : List (Option String)} {s : String}
    (h : ∀ source ∈ sources, Unusable source) (hs : Decides sources s) : s = "" := by
  rw [← List.append_nil sources, decides_append h] at hs
  exact hs.unique .nothing

/-- What comes after a usable source does not matter. -/
theorem decides_append_congr {before : List (Option String)}
    (h : ¬ ∀ source ∈ before, Unusable source) (after other : List (Option String)) {s : String} :
    Decides (before ++ after) s ↔ Decides (before ++ other) s := by
  induction before with
  | nil => simp at h
  | cons source before ih =>
    rw [List.cons_append, List.cons_append]
    rcases unusable_or source with hsource | ⟨t, rfl, ht⟩
    · rw [decides_later hsource, decides_later hsource]
      exact ih (by simpa [hsource] using h)
    · rw [decides_first ht, decides_first ht]

/-- Two chains that begin alike decide alike if a source of the beginning is usable. -/
theorem Decides.eq_of_append {before after other : List (Option String)} {s t : String}
    (hs : Decides (before ++ after) s) (ht : Decides (before ++ other) t)
    (husable : ∃ source ∈ before, ¬ Unusable source) : s = t := by
  have hnot : ¬ ∀ source ∈ before, Unusable source := by simpa using husable
  exact ((decides_append_congr hnot after other).1 hs).unique ht

end Settings

end Rollout

import Mathlib.Tactic.Common
import Rollout.Proofs.Compile.Registry
import Rollout.Switch.Seed

/-!
# Seeded configurations

A project that is switched has one configuration for each environment of the workspace and for
each key that it builds, and in each a single option with a text that is not blank. For charts and
for hosting this text ends in the environment, so that no two environments have the same, while
they share one region in the cloud (`seeded`).
-/

namespace Rollout.Switch

open Settings

/-- What is seeded in an environment for a deployer: an option and its text. -/
inductive Seeds (w : Workspace) (options : OptionMap) (environment : String) :
    Deployer → String → String → Prop
  | helm : Seeds w options environment .helm "namespace" (w.name ++ "-" ++ environment)
  | firebase {base : String}
    (h : Decides [(options.get? "projectId").bind OptionValue.asText?,
      (w.infrastructure.get? "firebase").bind (·.projectId), some w.name] base) :
    Seeds w options environment .firebase "projectId" (base ++ "-" ++ environment)
  | cloudRun {region : String}
    (h : Decides [(options.get? "region").bind OptionValue.asText?,
      (w.infrastructure.get? "gcp").bind (·.region), some "us-central1"] region) :
    Seeds w options environment .cloudRun "region" region

variable {w : Workspace} {options : OptionMap} {environment option value : String} {d : Deployer}

/-- The base of the values is decided by the options, by the provider and by a default. -/
theorem decides_seedBase (w : Workspace) (d : Deployer) (options : OptionMap)
    (get : ProviderDefaults → Option String) {default : String}
    (h : Text.isBlank default = false) :
    Decides [(options.get? (seedKey d)).bind OptionValue.asText?,
      (w.infrastructure.get? d.provider).bind get, some default]
      ((seedBase w d options get).getD default) := by
  have hbase : seedBase w d options get =
      firstUsable [(options.get? (seedKey d)).bind OptionValue.asText?,
        (w.infrastructure.get? d.provider).bind get] := by
    refine firstUsable_congr ?_
    have hoption : options.text? (seedKey d) =
        ((options.get? (seedKey d)).bind OptionValue.asText?).bind Text.nonBlank? :=
      (Option.bind_assoc _ _ _).symm
    simp only [List.map_cons, List.map_nil, hoption, nonBlank?_nonBlank?, fromProvider]
  rw [hbase]
  exact decides_getD [_, _] h

/-- A workspace has a name in any case. -/
theorem isBlank_name (w : Workspace) : Text.isBlank w.name = false := by
  unfold Workspace.name Text.nonBlank?
  split_ifs with h
  · decide
  · simpa using h

theorem seeds_seedValue (w : Workspace) (options : OptionMap) (environment : String)
    (d : Deployer) :
    Seeds w options environment d (seedKey d) (seedValue w options environment d) := by
  cases d with
  | helm => exact .helm
  | firebase => exact .firebase (decides_seedBase w .firebase options _ (isBlank_name w))
  | cloudRun => exact .cloudRun (decides_seedBase w .cloudRun options _ (by decide))

theorem isBlank_dash (base environment : String) :
    Text.isBlank (base ++ "-" ++ environment) = false := by
  simp [Text.isBlank, Text.isBlankChar]

theorem Seeds.isBlank_eq_false (h : Seeds w options environment d option value) :
    Text.isBlank value = false := by
  cases h with
  | helm => exact isBlank_dash _ _
  | firebase => exact isBlank_dash _ _
  | cloudRun h =>
    refine h.isBlank_eq_false ⟨some "us-central1", by simp, fun hunusable => ?_⟩
    exact absurd (hunusable _ rfl) (by decide)

/-- Two environments have the same value in the cloud only. -/
theorem seedValue_inj {other : String} :
    seedValue w options environment d = seedValue w options other d ↔
      d = .cloudRun ∨ environment = other := by
  cases d with
  | helm => simp [seedValue, String.append_right_inj]
  | firebase => simp [seedValue, String.append_right_inj]
  | cloudRun => simp [seedValue]

section

variable (w : Workspace) (p : Project) (d : Deployer) (options : OptionMap)

theorem keys_seed : (seed w p d options).keys = environmentsOf w p := by
  rw [seed, Dict.keys, List.map_map]
  exact List.map_id _

theorem sorted_seed : (seed w p d options).Sorted := by
  rw [Dict.Sorted, keys_seed]
  exact Dict.pairwise_sortedKeys _

theorem get?_seed {key : String} {overlay : OptionMap}
    (h : (seed w p d options).get? key = some overlay) :
    overlay = [(seedKey d, .text (seedValue w options key d))] := by
  obtain ⟨environment, -, heq⟩ := List.mem_map.1 (Dict.mem_of_get? h)
  cases heq
  rfl

/-- The seeded configurations are those of the environments of the workspace and of the keys that
the project builds. Each holds one option that is not blank, and two of them are the same exactly
if the deployer has them share a region. -/
theorem seeded :
    let configurations := seed w p d options
    configurations.Sorted ∧
      (∀ key, key ∈ configurations.keys ↔ key ∈ w.environments.keys ∨ key ∈ p.buildKeys) ∧
      (∀ key overlay, configurations.get? key = some overlay →
        ∃ option value, overlay = [(option, .text value)] ∧ Seeds w options key d option value ∧
          Text.isBlank value = false) ∧
      ∀ key key' overlay overlay', configurations.get? key = some overlay →
        configurations.get? key' = some overlay' →
        (overlay = overlay' ↔ d = .cloudRun ∨ key = key') := by
  intro configurations
  refine ⟨sorted_seed w p d options, fun key => ?_, fun key overlay h => ?_,
    fun key key' overlay overlay' h h' => ?_⟩
  · rw [keys_seed, environmentsOf, Dict.mem_sortedKeys, List.mem_append]
  · have hseeds := seeds_seedValue w options key d
    exact ⟨_, _, get?_seed w p d options h, hseeds, hseeds.isBlank_eq_false⟩
  · have hvalue : seedValue w options key d = seedValue w options key' d ↔
        d = .cloudRun ∨ key = key' := seedValue_inj
    rw [get?_seed w p d options h, get?_seed w p d options h', ← hvalue]
    simp

end

end Rollout.Switch

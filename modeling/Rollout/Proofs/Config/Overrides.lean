import Mathlib.Tactic.Common
import Rollout.Config.Basic
import Rollout.Proofs.Settings.Sources
import Rollout.Proofs.Text.Trim

/-!
# Overrides from the environment

Each variable of the environment decides one field of the configuration (`Overridden`) and leaves
the other fields as they are (`AgreeBut`). A blank registry or document is no override; a blank
platform is one, since blank text names the host (`settle`).
-/

namespace Rollout

namespace Platform

/-- The names of a platform in lower case; the host may go without a name. -/
def aliases : Platform → List String
  | host => ["", "host", "native"]
  | linuxAmd64 => ["linux/amd64", "linux_amd64", "amd64"]
  | linuxArm64 => ["linux/arm64", "linux_arm64", "arm64"]

/-- The text names the platform, in any letter case and with white space around the name. -/
def Named (p : Platform) (text : String) : Prop := Text.lowercase (Text.trim text) ∈ p.aliases

instance (p : Platform) (text : String) : Decidable (p.Named text) :=
  inferInstanceAs (Decidable (_ ∈ _))

theorem read_eq_ok_iff {p : Platform} {text : String} : read text = .ok p ↔ p.Named text := by
  unfold read Named
  generalize Text.lowercase (Text.trim text) = name
  constructor
  · intro h
    simp only at h
    split_ifs at h with hhost hamd harm
    · obtain rfl := Except.ok.inj h
      simpa [aliases] using hhost
    · obtain rfl := Except.ok.inj h
      simpa [aliases] using hamd
    · obtain rfl := Except.ok.inj h
      simpa [aliases] using harm
  · intro h
    cases p with
    | host =>
      have hhost : name = "" ∨ name = "host" ∨ name = "native" := by simpa [aliases] using h
      simp only [if_pos hhost]
    | linuxAmd64 =>
      simp only [aliases, List.mem_cons, List.not_mem_nil, or_false] at h
      rcases h with rfl | rfl | rfl <;> rfl
    | linuxArm64 =>
      simp only [aliases, List.mem_cons, List.not_mem_nil, or_false] at h
      rcases h with rfl | rfl | rfl <;> rfl

/-- Blank text names the host. -/
theorem named_host_of_isBlank {text : String} (h : Text.isBlank text = true) :
    host.Named text := by
  rw [Named, Text.trim_eq_empty_iff.mpr h]
  decide

theorem toOption_read_of_named {p : Platform} {text : String} (h : p.Named text) :
    (read text).toOption = some p := by
  rw [read_eq_ok_iff.mpr h]
  rfl

theorem toOption_read_of_not_named {text : String} (h : ∀ p : Platform, ¬ p.Named text) :
    (read text).toOption = none := by
  cases hread : read text with
  | error message => rfl
  | ok p => exact absurd (read_eq_ok_iff.mp hread) (h p)

end Platform

namespace Config

open Settings (Unusable bind_nonBlank?_of_unusable)

/-- What an environment makes of a configuration. A variable that says nothing leaves its field as
it was; what a blank value asks of the output is not said here. -/
structure Overridden (env : Environment) (c c' : Config) : Prop where
  charts : c'.charts = c.charts
  platform : ∀ v p, env platformVariable = some v → Platform.Named p v → c'.platform = p
  samePlatform : (∀ v p, env platformVariable = some v → ¬ Platform.Named p v) →
    c'.platform = c.platform
  registry : ∀ v, env registryVariable = some v → Text.isBlank v = false → c'.registry = some v
  sameRegistry : Unusable (env registryVariable) → c'.registry = c.registry
  document : ∀ v, env documentVariable = some v → Text.isBlank v = false → c'.document = v
  sameDocument : Unusable (env documentVariable) → c'.document = c.document
  json : ∀ v, env jsonVariable = some v → Text.isBlank v = false →
    (c'.json = true ↔ v ≠ "0" ∧ Text.lowercase v ≠ "false")
  sameJson : env jsonVariable = none → c'.json = c.json

/-- Two configurations agree but for the field of one variable. -/
structure AgreeBut (name : String) (c c' : Config) : Prop where
  charts : c.charts = c'.charts
  platform : name ≠ platformVariable → c.platform = c'.platform
  registry : name ≠ registryVariable → c.registry = c'.registry
  document : name ≠ documentVariable → c.document = c'.document
  json : name ≠ jsonVariable → c.json = c'.json

/-- An environment with its blank values settled: a blank platform is the host, and a blank
registry or document is not set. Blank values of the other variables stay. -/
def settle (env : Environment) : Environment := fun name =>
  (env name).bind fun v =>
    if Text.isBlank v = false then some v
    else if name = platformVariable then some Platform.host.id
    else if name = registryVariable ∨ name = documentVariable then none
    else some v

theorem bind_nonBlank?_of_usable {source : Option String} {v : String} (hsource : source = some v)
    (hv : Text.isBlank v = false) : source.bind Text.nonBlank? = some v := by
  rw [hsource, Option.bind_some, Text.nonBlank?, hv]
  rfl

theorem overridden_override (env : Environment) (c : Config) :
    Overridden env c (c.override env) where
  charts := rfl
  platform v p hv hp := by
    simp only [override, hv, Option.bind_some, Platform.toOption_read_of_named hp,
      Option.getD_some]
  samePlatform h := by
    cases hv : env platformVariable with
    | none => simp only [override, hv, Option.bind_none, Option.getD_none]
    | some v =>
      have hread := Platform.toOption_read_of_not_named fun p => h v p hv
      simp only [override, hv, Option.bind_some, hread, Option.getD_none]
  registry v hv hblank := by
    simp only [override, bind_nonBlank?_of_usable hv hblank, Option.some_or]
  sameRegistry h := by
    simp only [override, bind_nonBlank?_of_unusable h, Option.none_or]
  document v hv hblank := by
    simp only [override, bind_nonBlank?_of_usable hv hblank, Option.getD_some]
  sameDocument h := by
    simp only [override, bind_nonBlank?_of_unusable h, Option.getD_none]
  json v hv _ := by
    simp [override, hv, asksForJson, and_comm]
  sameJson h := by
    simp only [override, h, Option.map_none, Option.getD_none]

/-- Only the field of a variable depends on the variable. -/
theorem agreeBut_override {env env' : Environment} {name : String}
    (h : ∀ other, other ≠ name → env' other = env other) (c : Config) :
    AgreeBut name (c.override env') (c.override env) where
  charts := rfl
  platform hname := by simp only [override, h _ (Ne.symm hname)]
  registry hname := by simp only [override, h _ (Ne.symm hname)]
  document hname := by simp only [override, h _ (Ne.symm hname)]
  json hname := by simp only [override, h _ (Ne.symm hname)]

/-- A registry or document is settled to what is usable of it. -/
theorem bind_settle {env : Environment} {name : String} (hplatform : name ≠ platformVariable)
    (hname : name = registryVariable ∨ name = documentVariable) :
    (settle env name).bind Text.nonBlank? = (env name).bind Text.nonBlank? := by
  unfold settle
  cases env name with
  | none => rfl
  | some v =>
    by_cases hv : Text.isBlank v = false
    · simp [hv]
    · simp [hv, hplatform, hname, Text.nonBlank?]

theorem read_settle (env : Environment) :
    ((settle env platformVariable).bind fun v => (Platform.read v).toOption) =
      (env platformVariable).bind fun v => (Platform.read v).toOption := by
  unfold settle
  cases env platformVariable with
  | none => rfl
  | some v =>
    by_cases hv : Text.isBlank v = false
    · simp [hv]
    · have hhost := Platform.named_host_of_isBlank (Bool.not_eq_false _ ▸ hv)
      have hid : Platform.host.Named Platform.host.id := by decide
      simp [hv, Platform.toOption_read_of_named hhost, Platform.toOption_read_of_named hid]

theorem settle_json (env : Environment) : settle env jsonVariable = env jsonVariable := by
  unfold settle
  cases env jsonVariable with
  | none => rfl
  | some v => simp [jsonVariable, platformVariable, registryVariable, documentVariable]

theorem override_settle (env : Environment) (c : Config) :
    c.override (settle env) = c.override env := by
  have hregistry : (settle env registryVariable).bind Text.nonBlank? = _ :=
    bind_settle (by decide) (.inl rfl)
  have hdocument : (settle env documentVariable).bind Text.nonBlank? = _ :=
    bind_settle (by decide) (.inr rfl)
  simp only [override, read_settle, hregistry, hdocument, settle_json]

/-- A blank registry or document in the environment is the same as none, and a blank platform the
same as the host. Each variable decides its own field where it says something, and changes no
other field. -/
theorem override_by_variables (env : Environment) (c : Config) :
    c.override (settle env) = c.override env ∧ Overridden env c (c.override env) ∧
      ∀ name env', (∀ other, other ≠ name → env' other = env other) →
        AgreeBut name (c.override env') (c.override env) :=
  ⟨override_settle env c, overridden_override env c, fun _ _ h => agreeBut_override h c⟩

/-- An environment with a blank platform, a blank registry and two values that say something. -/
def halfBlank : Environment := fun name =>
  [(platformVariable, " "), (registryVariable, "\t"), (documentVariable, "ws.json"),
    (jsonVariable, "1")].lookup name

/-- A configuration with a platform and a registry of its own. -/
def configured : Config := { platform := .linuxAmd64, registry := some "own" }

theorem configured_overridden :
    settle halfBlank platformVariable = some "host" ∧ settle halfBlank registryVariable = none ∧
      configured.override (settle halfBlank) = configured.override halfBlank ∧
      (configured.override halfBlank).platform = .host ∧
      (configured.override halfBlank).registry = some "own" ∧
      (configured.override halfBlank).document = "ws.json" ∧
      (configured.override halfBlank).json = true ∧
      AgreeBut platformVariable
        (configured.override fun name =>
          if name = platformVariable then some "sparc" else halfBlank name)
        (configured.override halfBlank) := by
  obtain ⟨hsettle, h, hother⟩ := override_by_variables halfBlank configured
  have hregistry : Unusable (halfBlank registryVariable) := by
    intro v hv
    obtain rfl := Option.some.inj hv
    decide
  exact ⟨by decide, by decide, hsettle, h.platform " " .host rfl (by decide),
    h.sameRegistry hregistry, h.document "ws.json" rfl (by decide),
    (h.json "1" rfl (by decide)).mpr (by decide), hother _ _ fun _ hname => if_neg hname⟩

/-- An environment without its blank values. -/
def dropBlank (env : Environment) : Environment := fun name => (env name).bind Text.nonBlank?

/-- An environment with one blank value. -/
def onlyBlank (name : String) : Environment := fun other => if other = name then some " " else none

/-- A blank platform takes the place of the configured one, and a blank value asks for JSON. -/
theorem blank_values_override :
    (configured.override (onlyBlank platformVariable)).platform = .host ∧
      (configured.override (dropBlank (onlyBlank platformVariable))).platform = .linuxAmd64 ∧
      (configured.override (onlyBlank jsonVariable)).json = true ∧
      (configured.override (dropBlank (onlyBlank jsonVariable))).json = false := by
  decide

end Config
end Rollout

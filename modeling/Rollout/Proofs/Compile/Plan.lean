import Mathlib.Tactic.Common
import Rollout.Compile.Release
import Rollout.Proofs.Dict

/-!
# The plan of a deployer

A spec names its deployer in any letter case, with blanks around it or by an alias, but what is
planned for it is looked up by the exact text of the spec. So a known deployer has a plan of its
kind exactly where the spec gives its id as it is, and else no plan (`planned_iff_exact_id`).
-/

namespace Rollout

/-- The built-in deployers are found under their ids and under no other text. -/
theorem Producers.get?_deployers (table : ChartTable) (tool : String) :
    (builtin table).deployers.get? tool =
      (Deployer.all.find? (·.id = tool)).map (releaseProducerOf table) := by
  rw [builtin, Dict.get?_ofEntries]
  simp only [Deployer.all, List.map_cons, List.map_nil, List.reverse_cons, List.reverse_nil,
    List.nil_append, List.cons_append, Dict.get?, Deployer.id, List.find?_cons, List.find?_nil]
  by_cases hcloudRun : "cloudrun" = tool
  · subst hcloudRun
    rfl
  · by_cases hfirebase : "firebase" = tool
    · subst hfirebase
      rfl
    · by_cases hhelm : "helm" = tool <;> simp [hcloudRun, hfirebase, hhelm]

theorem Producers.get?_deployers_id (table : ChartTable) (d : Deployer) :
    (builtin table).deployers.get? d.id = some (releaseProducerOf table d) := by
  rw [get?_deployers]
  cases d <;> rfl

theorem Producers.get?_deployers_eq_none {table : ChartTable} {tool : String} :
    (builtin table).deployers.get? tool = none ↔ ∀ d : Deployer, tool ≠ d.id := by
  rw [get?_deployers, Option.map_eq_none_iff, List.find?_eq_none]
  constructor
  · intro h d htool
    have hall : d ∈ Deployer.all := by cases d <;> decide
    exact h d hall (by simp [htool])
  · intro h d _ hid
    exact h d (by simpa using Eq.symm (of_decide_eq_true hid))

namespace ReleasePlan

/-- A plan of the kind that a project with a deployer has: releases where the deployer is
chart-based, else the setup of just this deployer. -/
def OfKind (name : String) (d : Deployer) : ReleasePlan → Prop
  | .releases _ => d.isChartBased = true
  | .setup s => d.isChartBased = false ∧ s = ⟨name, d⟩

theorem eq_of_ofKind {name : String} {d e : Deployer} {plan : ReleasePlan}
    (hd : plan.OfKind name d) (he : plan.OfKind name e) : d = e := by
  cases plan with
  | releases rs => cases d <;> cases e <;> simp_all [OfKind, Deployer.isChartBased]
  | setup s =>
    have heq : (⟨name, d⟩ : ProviderSetup) = ⟨name, e⟩ := hd.2.symm.trans he.2
    exact congrArg ProviderSetup.deployer heq

section

variable (table : ChartTable) (present : Path → Bool) (root : Path) (w : Workspace)
  (name : String) (p : Project) (key : String)

/-- A deployer that is given by its id has a plan of its kind. -/
theorem planned_of_id {spec : Spec} {d : Deployer} (hspec : p.deploy = some spec)
    (htool : spec.tool = d.id) :
    ∃ plan, compile? (.builtin table) present root w name p key = some plan ∧
      plan.OfKind name d := by
  have hfound := Producers.get?_deployers_id table d
  unfold compile?
  simp only [hspec, htool, Option.bind_eq_bind, Option.bind_some, hfound]
  cases d with
  | helm => exact ⟨_, rfl, rfl⟩
  | firebase => exact ⟨_, rfl, rfl, rfl⟩
  | cloudRun => exact ⟨_, rfl, rfl, rfl⟩

theorem compile?_eq_none {spec : Spec} (hspec : p.deploy = some spec) :
    compile? (.builtin table) present root w name p key = none ↔
      ∀ d : Deployer, spec.tool ≠ d.id := by
  constructor
  · intro hnone d htool
    obtain ⟨plan, hplan, -⟩ := planned_of_id table present root w name p key hspec htool
    rw [hnone] at hplan
    cases hplan
  · intro h
    unfold compile?
    simp only [hspec, Option.bind_eq_bind, Option.bind_some,
      Producers.get?_deployers_eq_none.2 h, Option.bind_none]

/-- For a project whose deploy spec names a known deployer there is a plan of that deployer's
kind exactly if the spec gives the id as it is. Without a plan the spec gives no id as it is, and
every plan is of the kind of the deployer that the spec names. -/
theorem planned_iff_exact_id {spec : Spec} (hspec : p.deploy = some spec) :
    (∀ d, spec.deployer = .ok d →
      ((∃ plan, compile? (.builtin table) present root w name p key = some plan ∧
        plan.OfKind name d) ↔ spec.tool = d.id)) ∧
    (compile? (.builtin table) present root w name p key = none ↔
      ∀ d : Deployer, spec.tool ≠ d.id) ∧
    (∀ plan, compile? (.builtin table) present root w name p key = some plan →
      ∃ d, spec.deployer = .ok d ∧ plan.OfKind name d) := by
  have hplanned : ∀ plan, compile? (.builtin table) present root w name p key = some plan →
      ∃ d : Deployer, spec.tool = d.id ∧ plan.OfKind name d := by
    intro plan hplan
    have hsome : ¬ ∀ d : Deployer, spec.tool ≠ d.id := by
      rw [← compile?_eq_none table present root w name p key hspec, hplan]
      simp
    obtain ⟨d, htool⟩ := not_forall_not.1 hsome
    obtain ⟨found, hfound, hkind⟩ := planned_of_id table present root w name p key hspec htool
    obtain rfl : plan = found := Option.some.inj (hplan.symm.trans hfound)
    exact ⟨d, htool, hkind⟩
  refine ⟨fun d hd => ⟨?_, planned_of_id table present root w name p key hspec⟩,
    compile?_eq_none table present root w name p key hspec, ?_⟩
  · rintro ⟨plan, hplan, hkind⟩
    obtain ⟨e, htool, hkind'⟩ := hplanned plan hplan
    rw [eq_of_ofKind hkind hkind', htool]
  · intro plan hplan
    obtain ⟨d, htool, hkind⟩ := hplanned plan hplan
    refine ⟨d, ?_, hkind⟩
    rw [Spec.deployer, htool, Deployer.read_id]
    rfl

end

/-- A project that deploys with `tool`. -/
def deploying (tool : String) : Project :=
  { name := "api", root := "api", language := "go", localOptions := [], metadata := [], extra := []
    architect := { deploy := some ⟨tool, [], [], none⟩ } }

theorem planned_helm :
    (deploying "helm").deploy = some ⟨"helm", [], [], none⟩ ∧
      ∃ plan, compile? (.builtin .builtin) (fun _ => false) ⟨""⟩ default "api"
        (deploying "helm") "dev" = some plan ∧ plan.OfKind "api" .helm :=
  ⟨rfl, ((planned_iff_exact_id .builtin (fun _ => false) ⟨""⟩ default "api" (deploying "helm") "dev"
    (show (deploying "helm").deploy = some ⟨"helm", [], [], none⟩ from rfl)).1 .helm rfl).2 rfl⟩

/-- The alias is a known deployer, and nothing is planned for it. -/
theorem unplanned_alias :
    (deploying "cloud-run").deploy.map Spec.deployer = some (.ok .cloudRun) ∧
      (deploying "cloud-run").declaredDeployer = some .cloudRun ∧
      compile? (.builtin .builtin) (fun _ => false) ⟨""⟩ default "api" (deploying "cloud-run")
        "dev" = none := by
  exact ⟨rfl, rfl, rfl⟩

end ReleasePlan
end Rollout

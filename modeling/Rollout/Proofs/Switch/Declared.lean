import Mathlib.Tactic.Common
import Rollout.Proofs.Output.Jobs
import Rollout.Proofs.Switch.Reload
import Rollout.Proofs.Workspace.Noted

/-!
# The deployer that a switch leaves

A switch that replaces files notes the deployer, and whatever is loaded from then on deploys the
project with it, in a job of the workflow that is there. A switch that finds the project deployed
with the deployer already looks at the deploy spec only, while for the workflow the note of the
project counts first; so there the deployer that was asked for deploys exactly if the note names
no other (`requested_deployer_deploys`).
-/

namespace Rollout

/-- The deployer that is noted for a project, where it is a known one. -/
def Project.notedDeployer? (p : Project) : Option Deployer :=
  ((p.metadata.get? deployerNote).bind OptionValue.asText?).bind Deployer.read?

theorem Project.declaredDeployer_eq (p : Project) :
    p.declaredDeployer = p.notedDeployer?.or p.specDeployer? := rfl

/-- A project deploys with the noted deployer, else with that of its spec. -/
theorem Workspace.deploysBy_noted {w : Workspace} (hw : w.projects.Sorted) {name : String}
    {p : Project} {d : Deployer} (hp : w.projects.get? name = some p)
    (hspec : p.specDeployer? = some d) : w.DeploysBy name (p.notedDeployer?.getD d) := by
  refine deploysBy_of_declared hw ?_
  rw [hp, Option.bind_some, p.declaredDeployer_eq, hspec]
  cases p.notedDeployer? <;> rfl

theorem Workspace.DeploysBy.unique {w : Workspace} {name : String} {d other : Deployer}
    (h : w.DeploysBy name d) (hother : w.DeploysBy name other) : d = other :=
  Option.some.inj (h.declared.symm.trans hother.declared)

namespace Switch

open Disk DiskTask

variable {m : Means} {r : Request} {disk : Disk} {o : Opening m r disk} {st : Staging o}
  {rt : Retirement st} {pr : Promotion rt} {rc : Recording pr}

/-- The document and the workflow on a disk are those of a workspace that deploys a project with
a deployer, and so does every workspace that is loaded. -/
structure LeftDeploying (m : Means) (disk d : Disk) (name : String) (target : Deployer) :
    Prop where
  saved : ∃ w : Workspace, w.DeploysBy name target ∧
    (Disk.read m.document).on d = (.ok (Document.write w), d) ∧
    d.tree.get? (m.workflowSpot disk) = some (.file (.text (Workflow.text w)))
  loaded : ∀ w, m.load.on d = (.ok w, d) → w.DeploysBy name target

/-- The workflow that is there when a switch ends. -/
theorem Disposal.get?_workflow (hm : m.Lawful) (hb : m.Builtin) (hd : m.LoadsDocument)
    (dp : Disposal rc) {workflows : List Path} {d : Disk}
    (h : (m.regenerate rc.workspace (Document.rootOf m.document)).on dp.disk = (.ok workflows, d))
    (hjobs : Workflow.jobs rc.workspace ≠ []) :
    d.tree.get? (m.workflowSpot disk) =
      some (.file (.text (Workflow.text rc.workspace))) := by
  obtain ⟨hcurrent, -⟩ := dp.read_saved hm hb hd
  rcases hm.regenerate_ok h with ⟨hnone, -⟩ | ⟨-, -, hwritten⟩
  · exact absurd hnone hjobs
  · have hfile := hwritten.file
    rwa [hcurrent] at hfile

/-- What a switch leaves that has gone through all its phases. -/
theorem Disposal.leftDeploying (hm : m.Lawful) (hb : m.Builtin) (hd : m.LoadsDocument)
    (dp : Disposal rc) {workflows : List Path} {d : Disk}
    (h : (m.regenerate rc.workspace (Document.rootOf m.document)).on dp.disk =
      (.ok workflows, d)) : LeftDeploying m disk d r.project o.deployer := by
  obtain ⟨p', hp, hupdated, hsorted⟩ := rc.recorded_eq hd.loadsNormal
  have hdeclared := declaredDeployer_of_noted hp.noted
  have hread := dp.read_end hm hb hd h
  refine ⟨⟨rc.workspace, ?_, hread, dp.get?_workflow hm hb hd h ?_⟩, fun w hload => ?_⟩
  · exact Workspace.deploysBy_of_declared hsorted (by rw [hupdated.project]; exact hdeclared)
  · exact jobs_ne_nil hsorted hupdated.project hdeclared
  · rw [hd] at hload
    obtain ⟨content, hcontent, hw⟩ := Document.read_of_load hload
    obtain rfl : Document.write rc.workspace = content := by
      simpa using hread.symm.trans hcontent
    obtain ⟨-, content, hopened⟩ := o.read_document hd
    have hlaid := (Document.laidOut_of_read hopened).switched rc.switched
    obtain ⟨p, hget, hnoted⟩ := Document.noted_of_read hlaid hw hupdated.project hp.noted
    refine Workspace.deploysBy_of_declared (Document.normal_of_read hw).sorted ?_
    rw [hget]
    exact declaredDeployer_of_noted hnoted

/-- After a switch that replaced files the project deploys with the deployer that was asked for,
by whatever is loaded and in the workflow that is there. A switch that found nothing to do leaves
all as it was; then the project deploys with the noted deployer if there is one, and with the one
that was asked for exactly if none or the same is noted. -/
theorem requested_deployer_deploys {m : Means} {r : Request} {disk : Disk} (hm : m.Lawful)
    (hb : m.Builtin) (hd : m.LoadsDocument) :
    (∀ report, (run m r disk).1 = .ok (.switched report) →
      Deployer.read r.deployer = .ok report.target ∧ report.project = r.project ∧
      LeftDeploying m disk (run m r disk).2.disk r.project report.target) ∧
    ∀ name d, (run m r disk).1 = .ok (.alreadyActive name d) →
      Deployer.read r.deployer = .ok d ∧ name = r.project ∧ (run m r disk).2.disk = disk ∧
      ∃ w p, m.load.on disk = (.ok w, disk) ∧ w.projects.get? r.project = some p ∧
        w.DeploysBy r.project (p.notedDeployer?.getD d) ∧
        (w.DeploysBy r.project d ↔ ∀ noted, p.notedDeployer? = some noted → noted = d) := by
  constructor
  · intro report h
    obtain ⟨o, st, rt, pr, rc, dp, workflows, hregenerate, rfl⟩ := exists_disposal h
    have hnormal := hd.loadsNormal disk o.workspace o.base o.loading
    exact ⟨o.read, hnormal.named _ _ (Workspace.project_eq_ok.1 o.found),
      dp.leftDeploying hm hb hd hregenerate⟩
  · intro name d h
    have hcourse := course m r disk
    rw [h] at hcourse
    generalize (run m r disk).2 = s at hcourse ⊢
    cases hcourse with
    | active d w base p hread hload hfind hactive =>
      obtain rfl : base = disk := by simpa [hload] using hm.load disk
      have hnormal := hd.loadsNormal base w base hload
      have hp := Workspace.project_eq_ok.1 hfind
      have hdeploys := Workspace.deploysBy_noted hnormal.sorted hp (of_decide_eq_true hactive)
      refine ⟨hread, hnormal.named _ _ hp, rfl, w, p, hload, hp, hdeploys, ?_⟩
      constructor
      · intro hrequested noted hnoted
        rw [hnoted] at hdeploys
        exact hdeploys.unique hrequested
      · intro hnotes
        cases hnoted : p.notedDeployer? with
        | none =>
          rw [hnoted] at hdeploys
          exact hdeploys
        | some noted =>
          rw [hnoted] at hdeploys
          exact hnotes noted hnoted ▸ hdeploys

namespace Small

/-- The small workspace with a note of the deployer of its project. -/
def noted (id : String) : Disk :=
  .ofTree ⟨[("w", .folder [("keel.json", .file (.text (
    "\x7b\"projects\": \x7b\"web\": \x7b\"root\": \"web\", \"architect\": \x7b\"deploy\": " ++
      "\x7b\"deployer\": \"helm\"\x7d\x7d, \"metadata\": \x7b\"deployer\": \"" ++ id ++
      "\"\x7d\x7d\x7d\x7d")))])]⟩ ["w"]

end Small

/-- In the small workspace the deployer that was asked for deploys after the switch, and the other
one before, as a switch to it finds. -/
theorem small_switch_deploys :
    LeftDeploying (Small.means {}) Small.start
        (run (Small.means {}) Small.request Small.start).2.disk "web" .cloudRun ∧
      ∃ w, (Small.means {}).load.on (Small.noted "Helm") = (.ok w, Small.noted "Helm") ∧
        w.DeploysBy "web" .helm := by
  constructor
  · have hend : (run (Small.means {}) Small.request Small.start).1 =
        .ok (.switched Small.report) := by
      decide +kernel
    exact ((requested_deployer_deploys (Small.lawful {}) (builtin_applyTo {} _) rfl).1 _ hend).2.2
  · have hend : (run (Small.means {}) Small.toHelm (Small.noted "Helm")).1 =
        .ok (.alreadyActive "web" .helm) := by
      decide +kernel
    obtain ⟨-, -, -, w, p, hload, hp, -, hnotes⟩ :=
      (requested_deployer_deploys (Small.lawful {}) (builtin_applyTo {} _) rfl).2 _ _ hend
    refine ⟨w, hload, hnotes.2 fun noted hnoted => ?_⟩
    have hsame : ((Small.means {}).load.on (Small.noted "Helm")).1.toOption.all fun w =>
        (w.projects.get? "web").all fun p => p.notedDeployer? = some .helm := by
      decide +kernel
    rw [hload] at hsame
    simp only [Except.toOption, Option.all_some, show w.projects.get? "web" = some p from hp,
      decide_eq_true_eq] at hsame
    exact Option.some.inj (hnoted.symm.trans hsame)

/-- With a note of another deployer nothing is to be done for the one that is asked for, and the
workflow deploys with the other. -/
theorem stale_note_deploys :
    (run (Small.means {}) Small.toHelm (Small.noted "cloudrun")).1 =
        .ok (.alreadyActive "web" .helm) ∧
      ((Small.means {}).load.on (Small.noted "cloudrun")).1.toOption.map Workflow.jobs =
        some [⟨.cloudRun, ["web"]⟩] := by
  exact ⟨by decide +kernel, by decide +kernel⟩

end Switch
end Rollout

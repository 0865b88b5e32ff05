import Mathlib.Tactic.Common
import Rollout.Proofs.Switch.Contained
import Rollout.Proofs.Workspace.Redeployed

/-!
# After a switch

The document that a switch has saved is there when it ends, and the next run loads what was saved
and has nothing to do, provided that no answer is nested deeper than the levels that a document
has left for it (`switch_reloads`). Otherwise no run can load the document any more
(`deep_answer_locks_out`).
-/

namespace Rollout.Switch

open Disk DiskTask Location

variable {m : Means} {r : Request} {disk : Disk} {o : Opening m r disk}

/-- The workspace is loaded from the document. -/
def Means.LoadsDocument (m : Means) : Prop := m.load = Document.load m.document

theorem Means.LoadsDocument.loadsNormal (h : m.LoadsDocument) : m.LoadsNormal := by
  intro d w d' hload
  rw [h] at hload
  obtain ⟨content, -, hread⟩ := Document.read_of_load hload
  exact Document.normal_of_read hread

/-- The next run finds what was saved and has nothing to do. -/
structure Reloads (m : Means) (r : Request) (w : Workspace) (report : Report) (d : Disk) :
    Prop where
  load : m.load.on d = (.ok w, d)
  again : (run m r d).1 = .ok (.alreadyActive report.project report.target)
  unchanged : (run m r d).2.disk = d

/-- The next run finds no document that it can read. -/
structure LockedOut (m : Means) (r : Request) (d : Disk) : Prop where
  load : m.load.on d = (.error (.invalid (.invalidDocument m.document)), d)
  again : (run m r d).1 = .error (.phase .detectOld
    (StoreError.invalid (.invalidDocument m.document)).message)
  unchanged : (run m r d).2.disk = d

/-! ### The spec -/

theorem Opening.sorted_spec (o : Opening m r disk) :
    o.spec.options.Sorted ∧ o.spec.configurations.Sorted := by
  refine ⟨Dict.sorted_insert (OptionMap.sorted_flatten r.answers) _ _, ?_⟩
  have hkeys := keys_configurations o
  change o.spec.configurations.keys = _ at hkeys
  rw [Dict.Sorted, hkeys]
  exact Dict.pairwise_sortedKeys _

/-- The spec of a switch is readable where its answers are. -/
theorem Opening.readable_spec (o : Opening m r disk) (h : ∀ e ∈ r.answers, e.2.Readable) :
    Document.Readable o.spec where
  sorted := o.sorted_spec.1
  options := by
    intro e he
    rcases Dict.mem_of_mem_insert he with rfl | he
    · exact OptionValue.readable_text _
    · exact OptionMap.readable_flatten h e he
  sortedConfigurations := o.sorted_spec.2
  configurations := by
    intro e he
    obtain ⟨environment, -, rfl⟩ := List.mem_map.1 he
    exact ⟨_, _, rfl⟩

/-! ### The next run -/

section Next

variable {d : Deployer} {w : Workspace} {base : Disk} {p : Project} {e : StoreError}

/-- A project that is deployed with the deployer already is left alone. -/
theorem run_active (hread : Deployer.read r.deployer = .ok d)
    (hload : m.load.on disk = (.ok w, base)) (hfind : w.project r.project = .ok p)
    (hactive : deploysWith p d) :
    (run m r disk).1 = .ok (.alreadyActive p.name d) ∧ (run m r disk).2.disk = base := by
  have hrun : run m r disk = (execute m r).on { disk } := rfl
  rw [hrun, execute, hread]
  simp only
  rw [SwitchM.on_bind, on_detect]
  simp only [hload, hfind, if_pos hactive]
  exact ⟨rfl, rfl⟩

theorem run_unloaded (hread : Deployer.read r.deployer = .ok d)
    (hload : m.load.on disk = (.error e, base)) :
    (run m r disk).1 = .error (.phase .detectOld e.message) ∧
      (run m r disk).2.disk = base := by
  have hrun : run m r disk = (execute m r).on { disk } := rfl
  rw [hrun, execute, hread]
  simp only
  rw [SwitchM.on_bind, on_detect, hload]
  exact ⟨rfl, rfl⟩

end Next

/-! ### The document -/

section Document

variable {st : Staging o} {rt : Retirement st} {pr : Promotion rt} {rc : Recording pr}

/-- A switch that opens has found the document. -/
theorem Opening.read_document (hd : m.LoadsDocument) (o : Opening m r disk) :
    disk.isFile m.document ∧
      ∃ content, Document.read m.document content = .ok o.workspace := by
  have hloading := o.loading
  rw [hd] at hloading
  obtain ⟨content, hread, hw⟩ := Document.read_of_load hloading
  exact ⟨isFile_of_read hread, content, hw⟩

variable (hm : m.Lawful) (hb : m.Builtin) (hd : m.LoadsDocument)
include hm hb

/-- The document is read as it was saved, an entry of the folder of the workspace. -/
theorem Recording.read_saved (rc : Recording pr) : rc.disk.current = disk.current ∧
    (Disk.read m.document).on rc.disk = (.ok (Document.write rc.workspace), rc.disk) ∧
    ∃ name, m.documentSpot disk = m.rootSpot disk ++ [name] := by
  obtain ⟨name, -, hspot⟩ := (hm.through_save_ok rc.saving).2.named
  rw [pr.current_eq hm hb] at hspot
  refine ⟨rc.current_eq hm hb, ?_, name, hspot⟩
  rcases hm.save rc.workspace pr.disk with heq | ⟨e, d', heq, -⟩
  · exact Document.read_of_save (heq.symm.trans rc.saving)
  · cases heq.symm.trans rc.saving

/-- Deleting the old files leaves the document: where they are kept there was nothing when the
document was there already. -/
theorem Disposal.read_of_isFile (hdocument : disk.isFile m.document) (dp : Disposal rc) :
    dp.disk.current = disk.current ∧
    (Disk.read m.document).on dp.disk = (.ok (Document.write rc.workspace), dp.disk) := by
  obtain ⟨hcurrent, hsaved, -⟩ := rc.read_saved hm hb
  have hthrough := dp.through_sameOff hm hb
  rcases dp.how with ⟨-, -, hdisk⟩ | ⟨holder, hretired, -⟩
  · rw [hdisk]
    exact ⟨hcurrent, hsaved⟩
  have habsent := (rt.holder_eq hm hb hretired).2
  obtain ⟨hstaged, hfiles⟩ := st.isFile hm hb
  obtain ⟨content, hlocate, hfile⟩ := View.isFile_eq_true.1 (hfiles _ hdocument)
  have htrail := (View.locate_eq_ok hlocate).1
  rw [hstaged] at htrail hfile
  have apart {s : Location} (hs : st.disk.tree.get? s ≠ none) : ¬ m.holderSpot disk <+: s :=
    fun hbelow => hs (Tree.get?_under habsent hbelow)
  refine ⟨hthrough.current.trans hcurrent, read_mono hsaved hthrough.current ?_ ?_⟩
  · rw [hcurrent]
    intro s hs hfolder
    rw [hthrough.last.isFolder (apart (by simp [Tree.get?_of_isFolder (htrail s hs)])), hfolder]
  · rw [hcurrent]
    exact hthrough.last _ (apart (by simp [hfile]))

include hd

theorem Disposal.read_saved (dp : Disposal rc) : dp.disk.current = disk.current ∧
    (Disk.read m.document).on dp.disk = (.ok (Document.write rc.workspace), dp.disk) :=
  dp.read_of_isFile hm hb (o.read_document hd).1

/-- The document is there when the switch ends. -/
theorem Disposal.read_end (dp : Disposal rc) {workflows : List Path} {d : Disk}
    (h : (m.regenerate rc.workspace (Document.rootOf m.document)).on dp.disk =
      (.ok workflows, d)) :
    (Disk.read m.document).on d = (.ok (Document.write rc.workspace), d) := by
  obtain ⟨hcurrent, hsaved⟩ := dp.read_saved hm hb hd
  obtain ⟨-, -, name, hname⟩ := rc.read_saved hm hb
  have hregenerate := hm.through_regenerate rc.workspace (Document.rootOf m.document) dp.disk
  rw [h, hcurrent] at hregenerate
  refine read_mono hsaved hregenerate.current (fun s _ hs => hregenerate.last.isFolder hs) ?_
  obtain ⟨-, -, hfile⟩ := read_eq_ok.1 hsaved
  rcases hregenerate.last _ _ hfile with hkept | ⟨heq, -⟩
  · rw [hkept, hfile]
  · rw [hcurrent] at heq
    exact absurd (hname.symm.trans heq) (m.entry_ne_workflowSpot disk name)

/-- What the next run finds is a matter of the options of the new spec. -/
theorem Disposal.next_run (dp : Disposal rc) {workflows : List Path} {d : Disk}
    (h : (m.regenerate rc.workspace (Document.rootOf m.document)).on dp.disk = (.ok workflows, d))
    (hanswers : ∀ e ∈ r.answers, e.2.Readable) (hf : (Document.toJson rc.workspace).Faithful) :
    (Document.Fits o.spec → Reloads m r rc.workspace (dp.report workflows) d) ∧
      (¬ Document.Fits o.spec → LockedOut m r d) := by
  obtain ⟨-, content, hworkspace⟩ := o.read_document hd
  have hback := Document.read_write_switched hworkspace rc.switched (o.readable_spec hanswers) hf
    m.document
  have hload := Document.on_load_of_read (dp.read_end hm hb hd h)
  rw [hback, ← hd] at hload
  constructor
  · intro hfits
    rw [if_pos hfits] at hload
    obtain ⟨p, hp, hupdated, -⟩ := rc.recorded_eq hd.loadsNormal
    obtain ⟨hagain, hunchanged⟩ := run_active o.read hload
      (Workspace.project_eq_ok.2 hupdated.project) (o.deploysWith_of_tool hp.deploy rfl)
    rw [hp.name_eq] at hagain
    exact ⟨hload, hagain, hunchanged⟩
  · intro hfits
    rw [if_neg hfits] at hload
    obtain ⟨hagain, hunchanged⟩ := run_unloaded o.read hload
    exact ⟨hload, hagain, hunchanged⟩

end Document

/-- After a switch the document holds the workspace with the new deploy spec. If each option of the
spec fits in a document, the next run loads that workspace and has nothing to do; otherwise the
document cannot be read any more. -/
theorem switch_reloads {m : Means} {r : Request} {disk : Disk} {report : Report} (hm : m.Lawful)
    (hb : m.Builtin) (hd : m.LoadsDocument) (hanswers : ∀ e ∈ r.answers, e.2.Readable)
    (h : (run m r disk).1 = .ok (.switched report)) :
    ∃ (o : Opening m r disk) (w : Workspace),
      switchedWorkspace o.workspace o.project.name o.deployer o.spec = .ok w ∧
      (Disk.read m.document).on (run m r disk).2.disk =
        (.ok (Document.write w), (run m r disk).2.disk) ∧
      ((Document.toJson w).Faithful →
        (Document.Fits o.spec → Reloads m r w report (run m r disk).2.disk) ∧
        (¬ Document.Fits o.spec → LockedOut m r (run m r disk).2.disk)) := by
  obtain ⟨o, st, rt, pr, rc, dp, workflows, hregenerate, rfl⟩ := exists_disposal h
  exact ⟨o, rc.workspace, rc.switched, dp.read_end hm hb hd hregenerate,
    dp.next_run hm hb hd hregenerate hanswers⟩

/-! ### Answers with many levels -/

namespace Small

/-- A flag in so many lists. -/
def nested : Nat → OptionValue
  | 0 => .bool true
  | n + 1 => OptionValue.list [nested n]

/-- The request with one answer of so many levels. -/
def nesting (n : Nat) : Request := { request with answers := [("levels", nested n)] }

theorem ofSource?_nested (n : Nat) :
    OptionValue.ofSource? n (nested n).toJson.toSource = some (nested n) := by
  induction n with
  | zero => rfl
  | succ n ih =>
    change (OptionValue.ofItems? n [(nested n).toJson.toSource]).map OptionValue.list = _
    rw [OptionValue.ofItems?, ih]
    rfl

theorem readable_nesting (n : Nat) : ∀ e ∈ (nesting n).answers, e.2.Readable := by
  intro e he
  obtain rfl := List.mem_singleton.1 he
  exact ⟨_, _, ofSource?_nested n⟩

/-- The answer fits up to the levels that are left, and what is saved with it has no floating
point numbers. -/
theorem saved_nesting {n : Nat} (hn : n = 121 ∨ n = 122)
    (o : Opening (means {}) (nesting n) start) :
    (Document.Fits o.spec ↔ n ≤ Document.optionRoom) ∧
      ∀ w, switchedWorkspace o.workspace o.project.name o.deployer o.spec = .ok w →
        (Document.toJson w).Faithful := by
  have hdeployer : o.deployer = .cloudRun :=
    Except.ok.inj (o.read.symm.trans (Deployer.read_id .cloudRun))
  have hsaved := o.of_loaded (P := fun w p =>
    let spec := specFor w p .cloudRun (nesting n)
      (planFor (Document.rootOf (means {}).document) p (nesting n)).configPath
    (Document.Fits spec ↔ n ≤ Document.optionRoom) ∧
      ∀ w' ∈ (switchedWorkspace w p.name .cloudRun spec).toOption, (Document.toJson w').Faithful)
    (by rcases hn with rfl | rfl <;> decide +kernel)
  have hspec : o.spec = specFor o.workspace o.project .cloudRun (nesting n) o.plan.configPath :=
    hdeployer ▸ rfl
  rw [hspec, hdeployer]
  refine ⟨hsaved.1, fun w hw => hsaved.2 w ?_⟩
  exact congrArg Except.toOption hw

end Small

/-- An answer with as many levels as there is room for. -/
theorem deepest_answer_reloads : ∃ w,
    Reloads (Small.means {}) (Small.nesting 121) w Small.report
      (run (Small.means {}) (Small.nesting 121) Small.start).2.disk := by
  have hend : (run (Small.means {}) (Small.nesting 121) Small.start).1 =
      .ok (.switched Small.report) := by
    decide +kernel
  obtain ⟨o, w, hw, -, hnext⟩ := switch_reloads (Small.lawful {}) (builtin_applyTo {} _) rfl
    (Small.readable_nesting 121) hend
  obtain ⟨hfits, hf⟩ := Small.saved_nesting (.inl rfl) o
  exact ⟨w, (hnext (hf w hw)).1 (hfits.2 le_rfl)⟩

/-- An answer with one level more is accepted, and the switch that saves it is the last one. -/
theorem deep_answer_locks_out :
    (∃ text, OptionMap.read? text = some (Small.nesting 122).answers) ∧
      (run (Small.means {}) (Small.nesting 122) Small.start).1 = .ok (.switched Small.report) ∧
      LockedOut (Small.means {}) (Small.nesting 122)
        (run (Small.means {}) (Small.nesting 122) Small.start).2.disk := by
  have hend : (run (Small.means {}) (Small.nesting 122) Small.start).1 =
      .ok (.switched Small.report) := by
    decide +kernel
  refine ⟨⟨(OptionMap.toJson (Small.nesting 122).answers).compact, ?_⟩, hend, ?_⟩
  · rw [OptionMap.read?, Json.read?_compact, Option.bind_some]
    have hsorted : Dict.Sorted (Small.nesting 122).answers := List.pairwise_singleton _ _
    have hroom : ∀ e ∈ (Small.nesting 122).answers, e.2.depth ≤ 126 := by decide +kernel
    exact OptionMap.ofSource?_toJson_of_room hsorted (Small.readable_nesting 122)
      (by decide +kernel) hroom
  · obtain ⟨o, st, rt, pr, rc, dp, workflows, hregenerate, -⟩ := exists_disposal hend
    obtain ⟨hfits, hf⟩ := Small.saved_nesting (.inr rfl) o
    have hnext := dp.next_run (Small.lawful {}) (builtin_applyTo {} _) rfl hregenerate
      (Small.readable_nesting 122) (hf _ rc.switched)
    exact hnext.2 fun h => absurd (hfits.1 h) (by decide)

end Rollout.Switch

import Mathlib.Tactic.Common
import Rollout.Main
import Rollout.Proofs.Switch.Custody
import Rollout.Proofs.Switch.EarlyEnd

/-!
# No file is lost

At every moment of a switch, whatever fails, the old folder is complete at its place or where it
is kept, until the workspace records the new deployer; and once the staged files are to be kept
they are complete where they were staged or at their place (`switch_loses_no_file`).
-/

namespace Rollout.Switch

open Disk DiskTask

variable {m : Means} {r : Request} {disk : Disk} {o : Opening m r disk}

/-- The folder that a request replaces, where it is there. -/
def Means.OldFolder (m : Means) (r : Request) (disk : Disk) (folder : Path) : Prop :=
  ∃ w base p, m.load.on disk = (.ok w, base) ∧ w.project r.project = .ok p ∧
    (planFor (Document.rootOf m.document) p r).existing? base.toView = some folder

theorem Opening.old_eq (o : Opening m r disk) {folder : Path} (h : m.OldFolder r disk folder) :
    o.old = some folder := by
  obtain ⟨w, base, p, hload, hfind, hold⟩ := h
  obtain ⟨rfl, rfl⟩ : w = o.workspace ∧ base = o.base := by simpa using hload.symm.trans o.loading
  obtain rfl : p = o.project := Except.ok.inj (hfind.symm.trans o.found)
  exact hold

/-- The old folder is complete at its place or where it is kept. -/
def OldKept (m : Means) (disk : Disk) (folder : Path) (t : Tree) : Prop :=
  Tree.Holds disk.tree (folder.spot disk.current) t (folder.spot disk.current) ∨
    Tree.Holds disk.tree (folder.spot disk.current) t (m.previousSpot disk)

/-- The files that were staged on a disk are complete there or at their place. -/
def NewKept (m : Means) (o : Opening m r disk) (kept : Disk) (t : Tree) : Prop :=
  Tree.Holds kept.tree (m.stagingSpot disk) t (m.stagingSpot disk) ∨
    Tree.Holds kept.tree (m.stagingSpot disk) t o.newSpot

/-- The same where the new workflow may have taken the place of a staged file. -/
def NewKeptBut (m : Means) (o : Opening m r disk) (kept : Disk) (t : Tree) : Prop :=
  Tree.Holds kept.tree (m.stagingSpot disk) t (m.stagingSpot disk) ∨
    Tree.HoldsBut (m.workflowSpot disk) kept.tree (m.stagingSpot disk) t o.newSpot

theorem NewKept.but {kept : Disk} {t : Tree} (h : NewKept m o kept t) : NewKeptBut m o kept t :=
  h.imp_right Tree.Holds.but

/-! ### The old files -/

section Old

variable (hm : m.Lawful) (hc : m.Confined r disk) (hp : disk.toView.Proper) {folder : Path}
  (hold : o.old = some folder) {st : Staging o} {rt : Retirement st} {pr : Promotion rt}
include hm hc hold

theorem Retirement.through_old (rt : Retirement st) :
    Through (OldKept m disk folder) disk rt.disk ∧
      Tree.Holds disk.tree (folder.spot disk.current) rt.disk.tree (m.previousSpot disk) :=
  Retired.through_old (rt.retired_some hm hc hold)

include hp

theorem Promotion.through_old (pr : Promotion rt) :
    Through (OldKept m disk folder) disk pr.disk ∧
      Tree.Holds disk.tree (folder.spot disk.current) pr.disk.tree (m.previousSpot disk) := by
  obtain ⟨hthrough, hheld⟩ := rt.through_old hm hc hold
  have hapart (k : Location) : ¬ m.stagingSpot disk <+: m.previousSpot disk ++ k := by
    rw [Means.previousSpot, List.append_assoc]
    exact (own_apart hm hp _).1
  have hmove := (pr.promoted_disk hm hc).through_holds (rt.isFolder_staging hm hc hp) hheld hapart
  exact ⟨hthrough.trans (hmove.mono fun t ht => .inr ht), hmove.last⟩

theorem Recording.through_old (rc : Recording pr) :
    Through (OldKept m disk folder) disk rc.disk := by
  obtain ⟨hthrough, hheld⟩ := pr.through_old hm hc hp hold
  have hsave := (hm.through_save_ok rc.saving).1
  rw [(pr.promoted_disk hm hc).current, rt.current hm hc] at hsave
  -- the document was there before the folder for the old files was made
  obtain ⟨content, hdocument⟩ := hm.present disk o.workspace o.base o.loading
  have habsent : disk.tree.get? (m.holderSpot disk) = none :=
    (rt.retired_some hm hc hold).absent
  refine hthrough.trans (hsave.mono fun t ht => .inr (hheld.extendsBut ht ?_))
  intro k e hk heq
  exfalso
  have hbelow : m.holderSpot disk <+: m.document.spot disk.current := by
    rw [← heq, Means.previousSpot, List.append_assoc]
    exact List.prefix_append _ _
  rw [Tree.get?_under habsent hbelow] at hdocument
  cases hdocument

end Old

/-! ### The new files -/

section New

variable (hm : m.Lawful) (hc : m.Confined r disk) (hp : disk.toView.Proper)
  {st : Staging o} {rt : Retirement st} {pr : Promotion rt} {rc : Recording pr}
include hm hc

theorem Promotion.through_new (pr : Promotion rt) :
    Through (NewKept m o rt.disk) rt.disk pr.disk ∧
      Tree.Holds rt.disk.tree (m.stagingSpot disk) pr.disk.tree o.newSpot :=
  (pr.promoted_disk hm hc).through_new

include hp

theorem Recording.through_new (rc : Recording pr) :
    Through (NewKept m o rt.disk) rt.disk rc.disk ∧
      Tree.Holds rt.disk.tree (m.stagingSpot disk) rc.disk.tree o.newSpot := by
  obtain ⟨hthrough, hheld⟩ := pr.through_new hm hc
  have hsave := (hm.through_save_ok rc.saving).1
  rw [(pr.promoted_disk hm hc).current, rt.current hm hc] at hsave
  have hkeep : ∀ k e, rt.disk.tree.get? (m.stagingSpot disk ++ k) = some e →
      o.newSpot ++ k = m.document.spot disk.current → e = .folder := by
    intro k e _ heq
    refine absurd ?_ (rc.not_prefix_document hm hc hp)
    rw [Means.documentSpot, ← heq]
    exact List.prefix_append _ k
  have hmove := hsave.mono fun t ht => hheld.extendsBut ht hkeep
  exact ⟨hthrough.trans (hmove.mono fun t ht => .inr ht), hmove.last⟩

theorem Disposal.through_new (hu : m.Unforeseen r disk) (dp : Disposal rc) :
    Through (NewKept m o rt.disk) rt.disk dp.disk ∧
      Tree.Holds rt.disk.tree (m.stagingSpot disk) dp.disk.tree o.newSpot := by
  obtain ⟨hthrough, hheld⟩ := rc.through_new hm hc hp
  have hdelete := dp.through hm hc
  have hmove := hdelete.mono fun t ht =>
    hheld.sameOff ht fun k _ => pr.holder_apart hm hc hp hu k
  exact ⟨hthrough.trans (hmove.mono fun t ht => .inr ht), hmove.last⟩

end New

/-- What a switch is never to lose, however it ends. -/
structure NothingLost (m : Means) (r : Request) (disk : Disk) (s : Progress) : Prop where
  /-- Until the workspace is saved, or to the end if it is not, the old folder is complete. -/
  old : ∀ folder, m.OldFolder r disk folder →
    Through (OldKept m disk folder) disk (s.saved.getD s.disk)
  /-- From when they are to be kept, the staged files are complete. -/
  new : ∀ kept, s.kept = some kept → ∃ o : Opening m r disk,
    Through (NewKeptBut m o kept) kept s.disk ∧ (m.Builtin → Through (NewKept m o kept) kept s.disk)
  /-- Once the workspace is saved, the document records the new deployer. -/
  recorded : ∀ saved, s.saved = some saved → ∃ (o : Opening m r disk) (w : Workspace),
    switchedWorkspace o.workspace o.project.name o.deployer o.spec = .ok w ∧
      saved.tree.get? (m.documentSpot disk) = some (.file (.text (Document.write w)))

section Ends

variable (hm : m.Lawful) (hc : m.Confined r disk) (hp : disk.toView.Proper)
  {st : Staging o} {rt : Retirement st} {pr : Promotion rt} {rc : Recording pr}
include hm hc

theorem Recording.recorded (rc : Recording pr) :
    ∃ (o : Opening m r disk) (w : Workspace),
      switchedWorkspace o.workspace o.project.name o.deployer o.spec = .ok w ∧
        rc.disk.tree.get? (m.documentSpot disk) = some (.file (.text (Document.write w))) := by
  have hfile := (hm.through_save_ok rc.saving).2.file
  rw [(pr.promoted_disk hm hc).current, rt.current hm hc] at hfile
  exact ⟨o, rc.workspace, rc.switched, hfile⟩

include hp

/-- The files of the program's generator are not in the way of the workflow. -/
theorem Retirement.ne_workflowSpot (hb : m.Builtin) (rt : Retirement st) {k : Location}
    {e : Entry} (h : rt.disk.tree.get? (m.stagingSpot disk ++ k) = some e)
    (heq : o.newSpot ++ k = m.workflowSpot disk) : e = .folder := by
  cases e with
  | folder => rfl
  | file content =>
    exfalso
    rw [(rt.retired_eq hm hc).get?_staging hm hp (st.staged hm hc).2
      (fun _ => o.get?_old hm)] at h
    obtain ⟨fileName, hname, hlast⟩ := st.fileName_of_builtin hb hm hc h
    have hworkflow : (o.newSpot ++ k).getLast? = some "keel-deploy.yml" := by
      rw [heq, m.workflowSpot_eq, List.getLast?_append]
      rfl
    rw [List.getLast?_append, hlast] at hworkflow
    obtain rfl : fileName = "keel-deploy.yml" := by simpa using hworkflow
    revert hname
    decide

/-- Regenerating the workflow replaces no file but the workflow. -/
theorem Disposal.through_end (hu : m.Unforeseen r disk) (dp : Disposal rc)
    {result : Except OutputError (List Path)} {d : Disk}
    (h : (m.regenerate rc.workspace (Document.rootOf m.document)).on dp.disk = (result, d)) :
    Through (NewKeptBut m o rt.disk) rt.disk d ∧
      (m.Builtin → Through (NewKept m o rt.disk) rt.disk d) := by
  obtain ⟨hthrough, hheld⟩ := dp.through_new hm hc hp hu
  have hregenerate := hm.through_regenerate rc.workspace (Document.rootOf m.document) dp.disk
  rw [h, (dp.through hm hc).current, rc.current hm hc] at hregenerate
  constructor
  · exact (hthrough.mono fun t ht => ht.but).trans
      (hregenerate.mono fun t ht => .inr (hheld.extendsBut' ht))
  · intro hb
    have hkeep := fun k e => rt.ne_workflowSpot hm hc hp hb (k := k) (e := e)
    exact hthrough.trans (hregenerate.mono fun t ht => .inr (hheld.extendsBut ht hkeep))

end Ends

theorem Course.old_kept (hm : m.Lawful) (hc : m.Confined r disk) (hp : disk.toView.Proper)
    {result : Except Failure Outcome} {s : Progress} (h : Course m r disk result s)
    {folder : Path} (hold : m.OldFolder r disk folder) :
    Through (OldKept m disk folder) disk (s.saved.getD s.disk) := by
  by_cases hkept : s.kept = none
  · have hsaved : s.saved = none := by
      cases h <;> first | rfl | simp at hkept ⊢
    rw [hsaved]
    exact (h.restored hm hc hkept).1.mono fun t ht => .inl ht.holds
  cases h with
  | unread id h | unknown d w base e h hload hfind | active d w base p h hload hfind hactive
  | declined o h => exact absurd rfl hkept
  | unloaded d e base h hload | blocked d w base p h hload hfind hactive plan hplan hblocked
  | unstaged o h | ungenerated o h | unheld o h | unmoved o h => simp at hkept
  | unpromoted o h st rt e d hmove =>
    obtain ⟨hthrough, hheld⟩ := rt.through_old hm hc (o.old_eq hold)
    rw [(st.staged hm hc).1] at hmove
    rcases promote_rename_cases hm (rt.renames + 1) o.plan.newFolder (rt.current hm hc) with
      ⟨e', d', heq, hgrowing⟩ | ⟨d', heq, -⟩
    · obtain rfl : d' = d := congrArg Prod.snd (heq.symm.trans hmove)
      simp only [Progress.tellFailure_saved, Progress.move_saved, Retirement.promoting_saved,
        Option.getD_none, Progress.tellFailure_disk, Progress.move_disk]
      exact hthrough.trans (hgrowing.mono fun t ht => .inr (hheld.extends ht.extends))
    · cases heq.symm.trans hmove
  | lost o h st rt pr e hswitch => exact (pr.through_old hm hc hp (o.old_eq hold)).1
  | unrecorded o h st rt pr w e d hswitch hsave =>
    obtain ⟨hthrough, hheld⟩ := pr.through_old hm hc hp (o.old_eq hold)
    have hsaving := hm.through_save_error hsave
    simp only [Progress.tellFailure_saved, Progress.move_saved, Promotion.progress_saved,
      Option.getD_none, Progress.tellFailure_disk, Progress.move_disk]
    exact hthrough.trans (hsaving.mono fun t ht => .inr (hheld.extends ht))
  | unrefreshed o h st rt pr rc dp e d hregenerate =>
    simpa using rc.through_old hm hc hp (o.old_eq hold)
  | done o h st rt pr rc dp workflows d hregenerate =>
    simpa using rc.through_old hm hc hp (o.old_eq hold)

theorem Course.new_kept (hm : m.Lawful) (hc : m.Confined r disk) (hp : disk.toView.Proper)
    (hu : m.Unforeseen r disk) {result : Except Failure Outcome} {s : Progress}
    (h : Course m r disk result s) {kept : Disk} (hkept : s.kept = some kept) :
    ∃ o : Opening m r disk, Through (NewKeptBut m o kept) kept s.disk ∧
      (m.Builtin → Through (NewKept m o kept) kept s.disk) := by
  have both {o : Opening m r disk} {kept d : Disk} (h : Through (NewKept m o kept) kept d) :
      Through (NewKeptBut m o kept) kept d ∧ (m.Builtin → Through (NewKept m o kept) kept d) :=
    ⟨h.mono fun t ht => ht.but, fun _ => h⟩
  cases h with
  | unread id h | unknown d w base e h hload hfind | active d w base p h hload hfind hactive
  | declined o h => cases hkept
  | unloaded d e base h hload | blocked d w base p h hload hfind hactive plan hplan hblocked
  | unstaged o h | ungenerated o h | unheld o h | unmoved o h => simp at hkept
  | unpromoted o h st rt e d hmove =>
    obtain rfl : rt.disk = kept := by simpa using hkept
    rw [(st.staged hm hc).1] at hmove
    rcases promote_rename_cases hm (rt.renames + 1) o.plan.newFolder (rt.current hm hc) with
      ⟨e', d', heq, hgrowing⟩ | ⟨d', heq, -⟩
    · obtain rfl : d' = d := congrArg Prod.snd (heq.symm.trans hmove)
      rw [Progress.tellFailure_disk, Progress.move_disk]
      exact ⟨o, both (hgrowing.mono fun t ht => .inl ht.extends.holds)⟩
    · cases heq.symm.trans hmove
  | lost o h st rt pr e hswitch =>
    obtain rfl : rt.disk = kept := by simpa using hkept
    exact ⟨o, both (pr.through_new hm hc).1⟩
  | unrecorded o h st rt pr w e d hswitch hsave =>
    obtain rfl : rt.disk = kept := by simpa using hkept
    obtain ⟨hthrough, hheld⟩ := pr.through_new hm hc
    have hsaving := hm.through_save_error hsave
    rw [Progress.tellFailure_disk, Progress.move_disk]
    exact ⟨o, both (hthrough.trans (hsaving.mono fun t ht => .inr (hheld.extends ht)))⟩
  | unrefreshed o h st rt pr rc dp e d hregenerate =>
    obtain rfl : rt.disk = kept := by simpa using hkept
    rw [Progress.tellFailure_disk, Progress.move_disk]
    exact ⟨o, dp.through_end hm hc hp hu hregenerate⟩
  | done o h st rt pr rc dp workflows d hregenerate =>
    obtain rfl : rt.disk = kept := by simpa using hkept
    exact ⟨o, dp.through_end hm hc hp hu hregenerate⟩

theorem Course.recorded (hm : m.Lawful) (hc : m.Confined r disk)
    {result : Except Failure Outcome} {s : Progress} (h : Course m r disk result s) {saved : Disk}
    (hsaved : s.saved = some saved) :
    ∃ (o : Opening m r disk) (w : Workspace),
      switchedWorkspace o.workspace o.project.name o.deployer o.spec = .ok w ∧
        saved.tree.get? (m.documentSpot disk) = some (.file (.text (Document.write w))) := by
  cases h with
  | unread id h | unknown d w base e h hload hfind | active d w base p h hload hfind hactive
  | declined o h => cases hsaved
  | unloaded d e base h hload | blocked d w base p h hload hfind hactive plan hplan hblocked
  | unstaged o h | ungenerated o h | unheld o h | unmoved o h | unpromoted o h | lost o h
  | unrecorded o h => simp at hsaved
  | unrefreshed o h st rt pr rc | done o h st rt pr rc =>
    obtain rfl : rc.disk = saved := by simpa using hsaved
    exact rc.recorded hm hc

/-- A switch loses no file, whatever fails. -/
theorem switch_loses_no_file (hm : m.Lawful) (hc : m.Confined r disk) (hp : disk.toView.Proper)
    (hu : m.Unforeseen r disk) : NothingLost m r disk (run m r disk).2 := by
  have h := course m r disk
  exact ⟨fun folder hold => h.old_kept hm hc hp hold,
    fun kept hkept => h.new_kept hm hc hp hu hkept,
    fun saved hsaved => h.recorded hm hc hsaved⟩

/-- The disks on which the program works are proper. -/
theorem proper_ofTree (tree : Tree) (current : Path) :
    (Disk.ofTree tree (Program.locationOf current)).toView.Proper := by
  have htop : View.Proper ⟨tree, []⟩ := by
    intro n hn
    cases hn
  have hspot := htop.isName_spot current
  rwa [Path.spot, Path.origin, ite_self] at hspot

theorem Small.old_eq : ((Small.means {}).load.on Small.start).1.toOption.bind (fun w =>
    (w.project "web").toOption.bind fun p =>
      (planFor (Document.rootOf ⟨"keel.json"⟩) p Small.request).existing? Small.start.toView) =
    some ⟨"./web/deploy"⟩ := by
  decide +kernel

theorem Small.oldFolder (f : Faults) :
    (Small.means f).OldFolder Small.request Small.start ⟨"./web/deploy"⟩ := by
  have hold := Small.old_eq
  obtain ⟨w, hload, hold⟩ := Option.bind_eq_some_iff.1 hold
  obtain ⟨p, hfind, hold⟩ := Option.bind_eq_some_iff.1 hold
  refine ⟨w, Small.start, p, ?_, ?_, hold⟩
  · have hbase := (Small.lawful {}).load Small.start
    change (Small.means {}).load.on Small.start = _
    generalize (Small.means {}).load.on Small.start = loaded at hload hbase
    obtain ⟨_ | _, base⟩ := loaded
    · cases hload
    · obtain rfl := Option.some.inj hload
      rw [show base = Small.start from hbase]
  · change w.project "web" = _
    generalize w.project "web" = found at hfind
    cases found with
    | error e => cases hfind
    | ok p' =>
      obtain rfl := Option.some.inj hfind
      rfl

/-- A switch whose new files do not reach their place has the old folder complete throughout. -/
theorem refused_promotion_loses_no_file :
    Through (OldKept (Small.means (Small.refusing 2)) Small.start ⟨"./web/deploy"⟩) Small.start
      (run (Small.means (Small.refusing 2)) Small.request Small.start).2.disk := by
  have hsaved :
      (run (Small.means (Small.refusing 2)) Small.request Small.start).2.saved.isNone := by
    decide +kernel
  have h := (switch_loses_no_file (Small.lawful (Small.refusing 2))
    (Small.confined (Small.refusing 2)) (by decide)
    (Small.unforeseen (Small.refusing 2))).old _ (Small.oldFolder (Small.refusing 2))
  generalize run (Small.means (Small.refusing 2)) Small.request Small.start = result at h hsaved ⊢
  rwa [Option.isNone_iff_eq_none.1 hsaved, Option.getD_none] at h

end Rollout.Switch

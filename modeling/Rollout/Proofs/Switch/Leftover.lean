import Rollout.Proofs.Switch.Completed

/-!
# Folders that are left

A switch makes two folders for its own use. Each of them that is still there when the switch ends
is named by how it ends, but for one case: where the old files could not be deleted and then the
workflow could not be regenerated, the folder that keeps them is left and nothing names it
(`left_folders_are_named`).
-/

namespace Rollout.Switch

open Disk DiskTask Location

variable {m : Means} {r : Request} {disk : Disk} {o : Opening m r disk}

/-- The folders of its own that a switch names as it ends. -/
def namedFolders : Except Failure Outcome → List Path
  | .error (.inconsistent _ staging retired _) => staging :: retired.toList
  | .error (.unrecorded _ _ _ _ retired _) => retired.toList
  | .ok (.switched report) => report.leftover.toList
  | .error (.workspace _) => []
  | .error (.phase _ _) => []
  | .ok (.alreadyActive _ _) => []
  | .ok (.cancelled _) => []

/-- The folders that a switch makes for its own use. -/
def Means.ownFolders (m : Means) (v : View) : List Path := [m.stagingPath v, m.holderPath v]

/-- A folder that was made since and is still there. -/
def IsLeft (disk d : Disk) (folder : Path) : Prop :=
  disk.tree.get? (folder.spot disk.current) = none ∧
    d.tree.get? (folder.spot disk.current) ≠ none

instance (disk d : Disk) (folder : Path) : Decidable (IsLeft disk d folder) :=
  inferInstanceAs (Decidable (_ ∧ _))

/-- The workflow could not be regenerated. -/
def IsUnrefreshed (result : Except Failure Outcome) : Prop :=
  ∃ message, result = .error (.phase .updateWorkflows message)

/-- A save or a regeneration that fails has made folders at most, on the way to its file. -/
structure Means.Tidy (m : Means) : Prop where
  save : ∀ w d e d', (m.save w).on d = (.error e, d') →
    Tree.Grows (Visits d.current m.document.folder) d.tree d'.tree
  regenerate : ∀ w root d e d', (m.regenerate w root).on d = (.error e, d') →
    Tree.Grows (Visits d.current (Workflow.fileIn root).folder) d.tree d'.tree

/-- The means of the program are tidy with any faults. -/
theorem tidy_applyTo (f : Faults) (document : Path) (suffix : String)
    (approves : String → Path → Bool) :
    (f.applyTo (Means.standard document suffix approves)).Tidy where
  save w d e d' h := by
    simp only [Faults.applyTo, Means.standard] at h ⊢
    cases hsave : f.save with
    | some message =>
      rw [hsave] at h
      cases h
      exact .refl _ _
    | none =>
      rw [hsave] at h
      rcases Document.save_cases f.documentWrites document w d with
        ⟨e', d'', heq, -, hgrows⟩ | ⟨d'', heq, -⟩
      · obtain rfl : d'' = d' := congrArg Prod.snd (heq.symm.trans h)
        exact hgrows
      · cases heq.symm.trans h
  regenerate w root d e d' h := by
    rcases Workflow.regenerate_cases f.workflowWrites w root d with
      ⟨-, heq⟩ | ⟨-, ⟨e', d'', heq, -, hgrows⟩ | ⟨d'', heq, -⟩⟩
    · cases heq.symm.trans h
    · obtain rfl : d'' = d' := congrArg Prod.snd (heq.symm.trans h)
      exact hgrows
    · cases heq.symm.trans h

/-! ### Where nothing is left -/

section Gone

variable (hm : m.Lawful) (hc : m.Confined r disk) (hp : disk.toView.Proper)
  {st : Staging o} {rt : Retirement st} {pr : Promotion rt} {rc : Recording pr}
include hm hc hp

/-- The folders on the way to the workspace were there from the start. -/
theorem Staging.not_onRootPath (st : Staging o) {k : Location} (h : disk.tree.get? k = none) :
    ¬ m.OnRootPath disk k := by
  intro hroot
  have hfolder := (st.staged hm hc).2.vacant.trail k ((mem_trail_staging hm hp).2 hroot)
  rw [Tree.get?_of_isFolder hfolder] at h
  cases h

/-- Where there is no old folder, none is made to keep it. -/
theorem Retirement.get?_holder (rt : Retirement st) (hold : o.old = none)
    (h : disk.tree.get? (m.holderSpot disk) = none) :
    rt.disk.tree.get? (m.holderSpot disk) = none := by
  have hapart := (own_apart hm hp []).1
  rw [List.append_nil] at hapart
  rcases rt.how with ⟨-, -, hdisk⟩ | ⟨folder, -, -, hfolder, -⟩
  · rw [hdisk, (st.staged hm hc).2.same _ hapart, h]
  · rw [hold] at hfolder
    cases hfolder

/-- Where a save fails, no folder of the switch's own is made. -/
theorem Promotion.get?_own_unsaved (ht : m.Tidy) (pr : Promotion rt) {w : Workspace}
    {e : StoreError} {d : Disk} (h : (m.save w).on pr.disk = (.error e, d)) {k : Location}
    (habsent : disk.tree.get? k = none) : d.tree.get? k = pr.disk.tree.get? k := by
  rcases ht.save _ _ _ _ h k with hsame | ⟨hvisits, -, -⟩
  · exact hsame
  · rw [(pr.promoted_disk hm hc).current, rt.current hm hc] at hvisits
    exact absurd (onRootPath_of_visits hp hvisits) (st.not_onRootPath hm hc hp habsent)

variable (hu : m.Unforeseen r disk)
include hu

/-- Nor is one made where the new files cannot be moved to their place. -/
theorem Retirement.get?_holder_unpromoted (rt : Retirement st) {e : FileError} {d : Disk}
    (hmove : (m.rename (rt.renames + 1) (m.stagingPath disk.toView) o.plan.newFolder).on rt.disk =
      (.error e, d)) (hold : o.old = none) (h : disk.tree.get? (m.holderSpot disk) = none) :
    d.tree.get? (m.holderSpot disk) = none := by
  rcases promote_rename_cases hm (rt.renames + 1) o.plan.newFolder (rt.current hm hc) with
    ⟨e', d', heq, hgrowing⟩ | ⟨d', heq, -⟩
  · obtain rfl : d' = d := congrArg Prod.snd (heq.symm.trans hmove)
    rcases hgrowing.last (m.holderSpot disk) with hsame | ⟨hwithin, -, -⟩
    · rw [hsame, rt.get?_holder hm hc hp hold h]
    · exact absurd List.prefix_rfl (hu.apart hm o hwithin).2
  · cases heq.symm.trans hmove

theorem Promotion.not_prefix_holder (pr : Promotion rt) : ¬ o.newSpot <+: m.holderSpot disk := by
  intro hbelow
  rw [holderSpot_eq hm hp] at hbelow
  rcases List.prefix_concat_iff.1 hbelow with heq | hbelow
  · rw [← holderSpot_eq hm hp] at heq
    exact (hu.apart hm o (within_newSpot o)).2 (heq ▸ List.prefix_rfl)
  · exact pr.not_prefix_root hm hc hp hbelow

theorem Promotion.get?_holder (pr : Promotion rt) (hold : o.old = none)
    (h : disk.tree.get? (m.holderSpot disk) = none) :
    pr.disk.tree.get? (m.holderSpot disk) = none := by
  have hapart := (own_apart hm hp []).1
  rw [List.append_nil] at hapart
  rcases pr.get?_other hm hc hp hu (pr.not_prefix_holder hm hc hp hu) hapart with
    heq | ⟨-, -, hnot⟩
  · rw [heq, rt.get?_holder hm hc hp hold h]
  · exact absurd List.prefix_rfl hnot

/-- After the old files are dealt with, the staging folder is gone. -/
theorem Disposal.get?_staging (dp : Disposal rc) :
    dp.disk.tree.get? (m.stagingSpot disk) = none := by
  have habsent := (st.staged hm hc).2.vacant.absent
  have hdocument : m.stagingSpot disk ≠ m.documentSpot disk := fun heq =>
    o.not_prefix_documentSpot hm habsent (heq ▸ List.prefix_rfl)
  have hapart := (own_apart hm hp []).2
  have hgone := pr.get?_staging hm hc hp hu []
  rw [List.append_nil] at hapart hgone
  rw [dp.get?_other hm hc fun _ => hapart, rc.get?_other hm hc hp hu hdocument, hgone]

/-- After the old files are dealt with, the folder that kept them is gone unless it could not be
deleted. -/
theorem Disposal.get?_holder_of_none (dp : Disposal rc)
    (h : disk.tree.get? (m.holderSpot disk) = none) (hleftover : dp.leftover = none) :
    dp.disk.tree.get? (m.holderSpot disk) = none := by
  by_cases hold : o.old = none
  · have hdocument : m.holderSpot disk ≠ m.documentSpot disk := fun heq =>
      o.not_prefix_documentSpot hm h (heq ▸ List.prefix_rfl)
    rw [dp.get?_other hm hc fun hne => absurd hold hne, rc.get?_other hm hc hp hu hdocument,
      pr.get?_holder hm hc hp hu hold h]
  · have hgone := dp.get?_holder hm hc hp hu hold hleftover []
    rwa [List.append_nil] at hgone

/-- A folder that is left once the old files are dealt with is what could not be deleted. -/
theorem Disposal.mem_leftover (dp : Disposal rc) {folder : Path}
    (hfolder : folder ∈ m.ownFolders disk.toView) (h : IsLeft disk dp.disk folder) :
    folder ∈ dp.leftover := by
  rcases List.mem_pair.1 hfolder with rfl | rfl
  · exact absurd (dp.get?_staging hm hc hp hu) h.2
  · cases hleftover : dp.leftover with
    | none => exact absurd (dp.get?_holder_of_none hm hc hp hu h.1 hleftover) h.2
    | some kept => exact congrArg some (dp.kept hm hc kept hleftover).2

/-- Regenerating the workflow, whether it fails or not, leaves the switch's own folders alone. -/
theorem Disposal.get?_own_end (ht : m.Tidy) (dp : Disposal rc)
    {result : Except OutputError (List Path)} {d : Disk}
    (h : (m.regenerate rc.workspace (Document.rootOf m.document)).on dp.disk = (result, d))
    {k : Location} (habsent : disk.tree.get? k = none) (hk : ¬ k <+: m.workflowSpot disk) :
    d.tree.get? k = dp.disk.tree.get? k := by
  cases result with
  | ok workflows =>
    have hsame := dp.get?_end_of_not_prefix hm hc hp hu h hk []
    rwa [List.append_nil] at hsame
  | error e =>
    rcases ht.regenerate _ _ _ _ _ h k with hsame | ⟨hvisits, -, -⟩
    · exact hsame
    · rw [(dp.through hm hc).current, rc.current hm hc] at hvisits
      rcases Workflow.visits_fileIn hvisits with htrail | hbelow
      · exact absurd (onRootPath_of_mem_trail hp htrail) (st.not_onRootPath hm hc hp habsent)
      · exact absurd hbelow hk

theorem Disposal.isLeft_end (ht : m.Tidy) (dp : Disposal rc)
    {result : Except OutputError (List Path)} {d : Disk}
    (h : (m.regenerate rc.workspace (Document.rootOf m.document)).on dp.disk = (result, d))
    {folder : Path} (hfolder : folder ∈ m.ownFolders disk.toView) :
    IsLeft disk d folder ↔ IsLeft disk dp.disk folder := by
  have hapart : ¬ folder.spot disk.current <+: m.workflowSpot disk := by
    rcases List.mem_pair.1 hfolder with rfl | rfl
    · exact (own_not_prefix_workflowSpot hm hp).1
    · exact (own_not_prefix_workflowSpot hm hp).2
  refine and_congr_right fun habsent => ?_
  rw [dp.get?_own_end hm hc hp hu ht h habsent hapart]

end Gone

/-! ### What is named -/

/-- What is left of a switch's own folders, against what its end names. -/
structure Accounted (m : Means) (r : Request) (disk : Disk) (result : Except Failure Outcome)
    (d : Disk) : Prop where
  /-- A folder that is left is named, unless the workflow could not be regenerated. -/
  named : ¬ IsUnrefreshed result → ∀ folder ∈ m.ownFolders disk.toView, IsLeft disk d folder →
    folder ∈ namedFolders result
  /-- Then none is named, and what is left is what could not be deleted before. -/
  unnamed : IsUnrefreshed result → namedFolders result = [] ∧
    ∃ (o : Opening m r disk) (st : Staging o) (rt : Retirement st) (pr : Promotion rt)
      (rc : Recording pr) (dp : Disposal rc), ∀ folder ∈ m.ownFolders disk.toView,
        (IsLeft disk d folder ↔ folder ∈ dp.leftover ∧ IsLeft disk dp.disk folder)

section

variable {result : Except Failure Outcome} {d : Disk}

/-- An end other than that is accounted for once its own folders are. -/
theorem accounted_of_named (h : ¬ IsUnrefreshed result)
    (hstaging : IsLeft disk d (m.stagingPath disk.toView) →
      m.stagingPath disk.toView ∈ namedFolders result)
    (hholder : IsLeft disk d (m.holderPath disk.toView) →
      m.holderPath disk.toView ∈ namedFolders result) : Accounted m r disk result d where
  named _ folder hfolder hleft := by
    rcases List.mem_pair.1 hfolder with rfl | rfl
    · exact hstaging hleft
    · exact hholder hleft
  unnamed hunrefreshed := absurd hunrefreshed h

/-- Where the tree is as it was, nothing is left. -/
theorem accounted_of_restored (h : ¬ IsUnrefreshed result)
    (hd : ∀ k, d.tree.get? k = disk.tree.get? k) : Accounted m r disk result d := by
  have hleft (folder : Path) : ¬ IsLeft disk d folder := fun ⟨hnone, hthere⟩ =>
    hthere ((hd _).trans hnone)
  exact accounted_of_named h (fun h => absurd h (hleft _)) fun h => absurd h (hleft _)

end

/-- The old files that a switch keeps are in its own folder. -/
theorem Retirement.mem_retired (hm : m.Lawful) (hc : m.Confined r disk) {st : Staging o}
    (rt : Retirement st) (hold : o.old ≠ none) : m.holderPath disk.toView ∈ rt.retired := by
  obtain ⟨folder, hfolder, hretired⟩ := rt.exists_retired hm hc hold
  cases h : rt.retired with
  | none =>
    rw [h] at hretired
    cases hretired
  | some holder =>
    rw [h] at hretired
    exact congrArg some hretired.holder_eq

theorem Course.accounted (hm : m.Lawful) (hc : m.Confined r disk) (hp : disk.toView.Proper)
    (hu : m.Unforeseen r disk) (hload : m.LoadsNormal) (ht : m.Tidy)
    {result : Except Failure Outcome} {s : Progress} (h : Course m r disk result s) :
    Accounted m r disk result s.disk := by
  have hrestored := h.restored hm hc
  cases h with
  | unpromoted o h st rt e d hmove =>
    have hfolder := (st.staged hm hc).1
    rw [hfolder] at hmove ⊢
    refine accounted_of_named (by rintro ⟨_, ⟨⟩⟩) (fun _ => List.mem_cons_self) fun hleft => ?_
    by_cases hold : o.old = none
    · exact absurd (rt.get?_holder_unpromoted hm hc hp hu hmove hold hleft.1) hleft.2
    · exact List.mem_cons_of_mem _ (Option.mem_toList.2 (rt.mem_retired hm hc hold))
  | lost o h st rt pr e hswitch =>
    have hw := (hload disk o.workspace o.base o.loading).named
    rw [(switchedWorkspace_eq_ok hw o.found o.deployer o.spec).2] at hswitch
    cases hswitch
  | unrecorded o h st rt pr w e d hswitch hsave =>
    refine accounted_of_named (by rintro ⟨_, ⟨⟩⟩) (fun hleft => ?_) fun hleft => ?_
    · have hgone := pr.get?_staging hm hc hp hu []
      rw [List.append_nil] at hgone
      exact absurd ((pr.get?_own_unsaved hm hc hp ht hsave hleft.1).trans hgone) hleft.2
    · by_cases hold : o.old = none
      · have hgone := pr.get?_holder hm hc hp hu hold hleft.1
        exact absurd ((pr.get?_own_unsaved hm hc hp ht hsave hleft.1).trans hgone) hleft.2
      · exact Option.mem_toList.2 (rt.mem_retired hm hc hold)
  | unrefreshed o h st rt pr rc dp e d hregenerate =>
    refine ⟨fun h => absurd ⟨_, rfl⟩ h, fun _ => ⟨rfl, o, st, rt, pr, rc, dp, ?_⟩⟩
    intro folder hfolder
    have hend := dp.isLeft_end hm hc hp hu ht hregenerate hfolder
    exact ⟨fun h => ⟨dp.mem_leftover hm hc hp hu hfolder (hend.1 h), hend.1 h⟩,
      fun h => hend.2 h.2⟩
  | done o h st rt pr rc dp workflows d hregenerate =>
    refine ⟨fun _ folder hfolder hleft => ?_, by rintro ⟨_, ⟨⟩⟩⟩
    have hleft := (dp.isLeft_end hm hc hp hu ht hregenerate hfolder).1 hleft
    exact Option.mem_toList.2 (dp.mem_leftover hm hc hp hu hfolder hleft)
  | unread | unknown | active | declined =>
    exact accounted_of_restored (by rintro ⟨_, ⟨⟩⟩) (hrestored rfl).2
  | unloaded | blocked | unstaged | ungenerated | unheld | unmoved =>
    exact accounted_of_restored (by rintro ⟨_, ⟨⟩⟩) (hrestored (by simp)).2

/-- Each folder of its own that a switch leaves is named by how it ends, unless the workflow could
not be regenerated: then none is named, and what is left is the folder of the old files, where it
could not be deleted before. -/
theorem left_folders_are_named (hm : m.Lawful) (hc : m.Confined r disk)
    (hp : disk.toView.Proper) (hu : m.Unforeseen r disk) (hload : m.LoadsNormal) (ht : m.Tidy) :
    Accounted m r disk (run m r disk).1 (run m r disk).2.disk :=
  (course m r disk).accounted hm hc hp hu hload ht

/-! ### A folder that is in use -/

namespace Small

/-- The folder of the old files is in use when it is to be deleted. -/
def busy : Faults := { removal := some (0, .other "device or resource busy") }

/-- And the workflow cannot be written either. -/
def busyUnwritable : Faults := { busy with workflowWrites := .nth 1 }

/-- The folder for the old files of the small workspace. -/
def holder : Path := (means {}).holderPath start.toView

end Small

/-- Where the old files cannot be deleted, the report names the folder that keeps them. -/
theorem busy_folder_named :
    let ended := run (Small.means Small.busy) Small.request Small.start
    IsLeft Small.start ended.2.disk Small.holder ∧ Small.holder ∈ namedFolders ended.1 := by
  have hend : let ended := run (Small.means Small.busy) Small.request Small.start
      IsLeft Small.start ended.2.disk Small.holder ∧ ended.1.toOption.isSome := by
    decide +kernel
  obtain ⟨hleft, hdone⟩ := hend
  have haccounted := left_folders_are_named (Small.lawful Small.busy) (Small.confined Small.busy)
    (by decide) (Small.unforeseen Small.busy) (loadsNormal_standard _ _ _ _)
    (tidy_applyTo _ _ _ _)
  refine ⟨hleft, haccounted.named ?_ Small.holder (List.mem_pair.2 (.inr rfl)) hleft⟩
  rintro ⟨message, hunrefreshed⟩
  rw [hunrefreshed] at hdone
  cases hdone

/-- Where the workflow cannot be written after that, the same folder is left and nothing names
it. -/
theorem busy_folder_unnamed :
    let ended := run (Small.means Small.busyUnwritable) Small.request Small.start
    IsLeft Small.start ended.2.disk Small.holder ∧ namedFolders ended.1 = [] := by
  decide +kernel

end Rollout.Switch

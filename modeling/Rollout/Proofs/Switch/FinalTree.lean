import Mathlib.Tactic.Common
import Rollout.Proofs.Switch.Custody

/-!
# The tree after a switch

What is where once the new files are at their place, phase by phase up to the end: a later phase
changes its own file or folder and leaves all else alone. Saving and regenerating make no folders
on the way to the workspace, as these are there.
-/

namespace Rollout.Switch

open Disk DiskTask Location

variable {m : Means} {r : Request} {disk : Disk} {o : Opening m r disk}

/-! ### The folders on the way to the workspace -/

/-- A location on the way to the folder of the workspace, or that folder. -/
def Means.OnRootPath (m : Means) (disk : Disk) (s : Location) : Prop :=
  s ∈ trail ((fromTop disk.toView (Document.rootOf m.document)).origin disk.current)
    (fromTop disk.toView (Document.rootOf m.document)).segments ∨ s = m.rootSpot disk

section Root

variable (hm : m.Lawful) (hp : disk.toView.Proper)
include hp

theorem onRootPath_of_mem_trail {s : Location}
    (h : s ∈ trail ((Document.rootOf m.document).origin disk.current)
      (Document.rootOf m.document).segments) : m.OnRootPath disk s :=
  .inl (trail_fromTop hp _ _ s h)

theorem onRootPath_of_visits {s : Location}
    (h : Visits disk.current (Document.rootOf m.document) s) : m.OnRootPath disk s := by
  rcases h with h | heq
  · exact onRootPath_of_mem_trail hp h
  · exact .inr heq

include hm

theorem mem_trail_staging {s : Location} :
    s ∈ trail ((m.stagingPath disk.toView).origin disk.current)
      (m.stagingPath disk.toView).segments ↔ m.OnRootPath disk s := by
  have htrail := Path.trail_child hm.isName_stagingName
    (fromTop disk.toView (Document.rootOf m.document)) disk.current s
  rw [spot_fromTop hp] at htrail
  exact htrail

theorem mem_trail_holder {s : Location} :
    s ∈ trail ((m.holderPath disk.toView).origin disk.current)
      (m.holderPath disk.toView).segments ↔ m.OnRootPath disk s := by
  have htrail := Path.trail_child hm.isName_retiredName
    (fromTop disk.toView (Document.rootOf m.document)) disk.current s
  rw [spot_fromTop hp] at htrail
  exact htrail

end Root

/-! ### After the retirement -/

section Retired

variable {before d : Disk} {old retired : Option Path}

/-- Away from the old folder and the one that keeps it nothing has changed. -/
theorem Retired.get?_other (h : Retired m disk before old retired d) {k : Location}
    (hold : ∀ folder ∈ old, ¬ folder.spot disk.current <+: k)
    (hholder : ∀ folder ∈ old, ¬ m.holderSpot disk <+: k) :
    d.tree.get? k = before.tree.get? k := by
  cases h with
  | nothing => rfl
  | moved held movable =>
    rename_i folder
    have hk := hholder folder rfl
    have hkept : ¬ m.previousSpot disk <+: k := fun hbelow =>
      hk ((List.prefix_append _ _).trans hbelow)
    have hmoved := movable.sameOff k (not_or.2 ⟨hold folder rfl, hkept⟩)
    refine hmoved.trans ?_
    rw [held.get?_withHolder, if_neg]
    rintro rfl
    exact hk List.prefix_rfl

/-- At the old place there is nothing any more, but for what is kept there. -/
theorem Retired.get?_old {folder : Path} (h : Retired m disk before (some folder) retired d)
    {k : Location} (hold : folder.spot disk.current <+: k) (hholder : ¬ m.holderSpot disk <+: k) :
    d.tree.get? k = none := by
  cases h with
  | moved held movable =>
    have hkept : ¬ m.previousSpot disk <+: k := fun hbelow =>
      hholder ((List.prefix_append _ _).trans hbelow)
    change ((withHolder m disk before).tree.move _ _).get? k = none
    rw [movable.get?, if_neg hkept, if_pos hold]

theorem Retired.isFolder_holder (hm : m.Lawful) (hp : disk.toView.Proper) {folder : Path}
    (hthere : disk.tree.get? (folder.spot disk.current) ≠ none)
    (h : Retired m disk before (some folder) retired d) :
    d.tree.isFolder (m.holderSpot disk) := by
  have hroot := h.not_prefix_root hm hp
  have habsent := h.absent
  cases h with
  | moved held movable =>
    have hnot := (not_prefix_own hm hp hthere hroot).2 habsent []
    rw [List.append_nil] at hnot
    have hkept : ¬ m.previousSpot disk <+: m.holderSpot disk := by
      intro hbelow
      have hlength := hbelow.length_le
      rw [Means.previousSpot, List.length_append, List.length_singleton] at hlength
      omega
    have hmoved := movable.sameOff (m.holderSpot disk) (not_or.2 ⟨hnot, hkept⟩)
    exact decide_eq_true (hmoved.trans (Tree.get?_of_isFolder held.isFolder_withHolder))

theorem Retired.vacant_holder {folder : Path}
    (h : Retired m disk before (some folder) retired d) :
    Vacant before.toView (m.holderPath disk.toView) (m.holderSpot disk) := by
  cases h with
  | moved held movable => exact held.vacant

end Retired

/-! ### After the promotion -/

theorem newSpot_ne_stagingSpot (hm : m.Lawful) (hu : m.Unforeseen r disk)
    (o : Opening m r disk) : o.newSpot ≠ m.stagingSpot disk := by
  intro heq
  have hnew := (hu.apart hm o (within_newSpot o)).1
  rw [heq] at hnew
  exact hnew List.prefix_rfl

/-- What the promotion did: it moved the staged files, once the folders for the target were
there. -/
structure Moved (m : Means) (o : Opening m r disk) (before made d : Disk) : Prop where
  growing : Tree.Grows (Within disk.current o.plan.newFolder) before.tree made.tree
  movable : Tree.Movable made.tree (m.stagingSpot disk) o.newSpot
  after : d = made.after (.move (m.stagingSpot disk) o.newSpot)
  trail : ∀ s ∈ trail ((m.stagingPath disk.toView).origin disk.current)
    (m.stagingPath disk.toView).segments, made.tree.isFolder s ∨ s = m.stagingSpot disk
  place : ∃ pl, made.place o.plan.newFolder = .ok pl ∧ pl.location? = .ok o.newSpot
  current : made.current = disk.current
  isFolder : made.tree.isFolder (m.stagingSpot disk)

/-- A folder that was there is there, unless it was in the staging folder. -/
theorem Moved.isFolder_of_made {before made d : Disk} (h : Moved m o before made d) {s : Location}
    (hs : made.tree.isFolder s) (hstaging : ¬ m.stagingSpot disk <+: s) : d.tree.isFolder s := by
  rw [h.after]
  exact decide_eq_true
    (h.movable.get?_of_isFolder h.isFolder hstaging (Tree.get?_of_isFolder hs))

section Promotion

variable (hm : m.Lawful) (hc : m.Confined r disk) (hp : disk.toView.Proper)
  (hu : m.Unforeseen r disk) {st : Staging o} {rt : Retirement st}
include hm hc hp hu

theorem Promotion.moved (pr : Promotion rt) : ∃ made, Moved m o rt.disk made pr.disk := by
  have hf := rt.isFolder_staging hm hc hp
  have hcurrent := rt.current hm hc
  have hpromoted := pr.promoted_disk hm hc
  generalize pr.disk = d at hpromoted
  cases hpromoted with
  | stayed growing same => exact absurd same.symm (newSpot_ne_stagingSpot hm hu o)
  | moved growing movable trail place =>
    exact ⟨_, growing.last, movable, rfl, trail, place, growing.current.trans hcurrent,
      growing.last.extends.isFolder hf⟩

theorem Promotion.not_prefix_staging (pr : Promotion rt) (k : Location) :
    ¬ o.newSpot <+: m.stagingSpot disk ++ k := by
  have hnew := (hu.apart hm o (within_newSpot o)).1
  rw [stagingSpot_eq hm hp] at hnew ⊢
  exact (entry_apart hnew (pr.not_prefix_root hm hc hp) k).2

/-- The staged files are at their place. -/
theorem Promotion.get?_new (pr : Promotion rt) (k : Location) :
    pr.disk.tree.get? (o.newSpot ++ k) = st.disk.tree.get? (m.stagingSpot disk ++ k) := by
  obtain ⟨made, h⟩ := pr.moved hm hc hp hu
  have hstaged := (rt.retired_eq hm hc).get?_staging hm hp (st.staged hm hc).2
    (fun _ => o.get?_old hm) k
  have hmade : made.tree.get? (m.stagingSpot disk ++ k) =
      rt.disk.tree.get? (m.stagingSpot disk ++ k) :=
    h.growing.sameOff _ fun hwithin => (hu.apart hm o hwithin).1 (List.prefix_append _ k)
  rw [h.after, ← hstaged, ← hmade]
  exact h.movable.get?_target k

/-- Where they were staged there is nothing any more. -/
theorem Promotion.get?_staging (pr : Promotion rt) (k : Location) :
    pr.disk.tree.get? (m.stagingSpot disk ++ k) = none := by
  obtain ⟨made, h⟩ := pr.moved hm hc hp hu
  rw [h.after]
  change (made.tree.move _ _).get? _ = none
  rw [h.movable.get?, if_neg (pr.not_prefix_staging hm hc hp hu k),
    if_pos (List.prefix_append _ k)]

/-- Elsewhere there are new folders at most, and none below the one for the old files. -/
theorem Promotion.get?_other (pr : Promotion rt) {k : Location} (hnew : ¬ o.newSpot <+: k)
    (hstaging : ¬ m.stagingSpot disk <+: k) :
    pr.disk.tree.get? k = rt.disk.tree.get? k ∨ rt.disk.tree.get? k = none ∧
      pr.disk.tree.get? k = some .folder ∧ ¬ m.holderSpot disk <+: k := by
  obtain ⟨made, h⟩ := pr.moved hm hc hp hu
  have hmoved : pr.disk.tree.get? k = made.tree.get? k := by
    rw [h.after]
    exact h.movable.sameOff k (not_or.2 ⟨hstaging, hnew⟩)
  rw [hmoved]
  rcases h.growing k with heq | ⟨hwithin, hnone, hfolder⟩
  · exact .inl heq
  · exact .inr ⟨hnone, hfolder, (hu.apart hm o hwithin).2⟩

/-- The folder of the workspace and the folders on the way are there. -/
theorem Promotion.isFolder_root (pr : Promotion rt) {s : Location}
    (hs : m.OnRootPath disk s) : pr.disk.tree.isFolder s := by
  obtain ⟨made, h⟩ := pr.moved hm hc hp hu
  have hs := (mem_trail_staging hm hp).2 hs
  have hapart := (st.staged hm hc).2.vacant.not_prefix s hs
  have hmade : made.tree.isFolder s := by
    rcases h.trail s hs with hfolder | rfl
    · exact hfolder
    · exact absurd List.prefix_rfl hapart
  exact h.isFolder_of_made hmade hapart

end Promotion

/-! ### After saving, deleting and regenerating -/

section Later

variable (hm : m.Lawful) (hc : m.Confined r disk) (hp : disk.toView.Proper)
  (hu : m.Unforeseen r disk) {st : Staging o} {rt : Retirement st} {pr : Promotion rt}
  {rc : Recording pr}
include hm hc

theorem Recording.written (rc : Recording pr) :
    Written pr.disk m.document (Document.write rc.workspace) rc.disk.tree ∧
      m.document.spot pr.disk.current = m.documentSpot disk := by
  refine ⟨(hm.through_save_ok rc.saving).2, ?_⟩
  rw [(pr.promoted_disk hm hc).current, rt.current hm hc]
  rfl

theorem Recording.get?_document (rc : Recording pr) :
    rc.disk.tree.get? (m.documentSpot disk) =
      some (.file (.text (Document.write rc.workspace))) := by
  obtain ⟨hwritten, hspot⟩ := rc.written hm hc
  rw [← hspot]
  exact hwritten.file

/-- What was there before the folder for the old files is not in it. -/
theorem Disposal.get?_other (dp : Disposal rc) {k : Location}
    (hk : o.old ≠ none → ¬ m.holderSpot disk <+: k) :
    dp.disk.tree.get? k = rc.disk.tree.get? k := by
  rcases dp.how with ⟨-, -, hdisk⟩ | ⟨holder, hretired, -⟩
  · rw [hdisk]
  · refine (dp.through hm hc).last k (hk fun hnone => ?_)
    rcases rt.how with ⟨-, hnone', -⟩ | ⟨folder, -, -, hold, -⟩
    · rw [hnone'] at hretired
      cases hretired
    · rw [hnone] at hold
      cases hold

/-- A folder stays through the later phases, where it is not in what is deleted. -/
theorem Disposal.isFolder (dp : Disposal rc) {s : Location} (hs : pr.disk.tree.isFolder s)
    (hholder : o.old ≠ none → ¬ m.holderSpot disk <+: s) : dp.disk.tree.isFolder s := by
  have hsaved := (hm.through_save_ok rc.saving).1.last.isFolder hs
  rw [Tree.isFolder, dp.get?_other hm hc hholder, ← Tree.isFolder, hsaved]

include hp

/-- The folders on the way to the workspace are not those of the switch. -/
theorem Retirement.not_prefix_onRootPath (rt : Retirement st) (hold : o.old ≠ none) {s : Location}
    (hs : m.OnRootPath disk s) : ¬ m.holderSpot disk <+: s := by
  obtain ⟨folder, -, hretired⟩ := rt.exists_retired hm hc hold
  have hvacant := hretired.vacant_holder
  have htrail := (mem_trail_holder hm hp).2 hs
  rw [← (st.staged hm hc).2.current] at htrail
  exact hvacant.not_prefix s htrail

include hu

/-- Saving changes nothing but the document. -/
theorem Recording.get?_other (rc : Recording pr) {k : Location} (hk : k ≠ m.documentSpot disk) :
    rc.disk.tree.get? k = pr.disk.tree.get? k := by
  obtain ⟨hwritten, hspot⟩ := rc.written hm hc
  rcases hwritten.others k (hspot ▸ hk) with heq | ⟨hvisits, hnone, -⟩
  · exact heq
  · rw [(pr.promoted_disk hm hc).current, rt.current hm hc] at hvisits
    have hfolder := pr.isFolder_root hm hc hp hu (onRootPath_of_visits hp hvisits)
    rw [Tree.get?_of_isFolder hfolder] at hnone
    cases hnone

/-- Nothing but the means is in the way of deleting the folder that keeps the old files. -/
theorem Recording.on_removeFolder (rc : Recording pr) (hold : o.old ≠ none) :
    (Disk.removeFolder (m.holderPath disk.toView)).on rc.disk =
      (.ok (), rc.disk.after (.remove (m.holderSpot disk))) := by
  obtain ⟨folder, hfolder, hretired⟩ := rt.exists_retired hm hc hold
  have hcurrent : rc.disk.current = st.disk.current :=
    (rc.current hm hc).trans (st.staged hm hc).2.current.symm
  -- the folder and the way to it are there when it is deleted
  obtain ⟨made, hmoved⟩ := pr.moved hm hc hp hu
  have hthere : rc.disk.tree.isFolder (m.holderSpot disk) := by
    have hheld := hretired.isFolder_holder hm hp (o.get?_old hm hfolder)
    have hapart := (own_apart hm hp []).1
    rw [List.append_nil] at hapart
    have hfolder := hmoved.isFolder_of_made (hmoved.growing.extends.isFolder hheld) hapart
    exact (hm.through_save_ok rc.saving).1.last.isFolder hfolder
  have htrail : ∀ s ∈ trail ((m.holderPath disk.toView).origin st.disk.current)
      (m.holderPath disk.toView).segments, rc.disk.tree.isFolder s := by
    rw [(st.staged hm hc).2.current]
    intro s hs
    have hroot := pr.isFolder_root hm hc hp hu ((mem_trail_holder hm hp).1 hs)
    exact (hm.through_save_ok rc.saving).1.last.isFolder hroot
  exact hretired.vacant_holder.on_removeFolder hcurrent htrail hthere

/-- When the old files are deleted, nothing is left of the folder that kept them. -/
theorem Disposal.get?_holder (dp : Disposal rc) (hold : o.old ≠ none)
    (hleftover : dp.leftover = none) (k : Location) :
    dp.disk.tree.get? (m.holderSpot disk ++ k) = none := by
  obtain ⟨folder, hfolder, hretired⟩ := rt.exists_retired hm hc hold
  have hremove := rc.on_removeFolder hm hc hp hu hold
  rcases dp.how with ⟨hnone, -⟩ | ⟨holder, hholder, ⟨hdelete, -⟩ | ⟨e, -, hkept⟩⟩
  · rcases rt.how with ⟨hold', -⟩ | ⟨_, _, _, -, hsome, -⟩
    · exact absurd hold' hold
    · rw [hnone] at hsome
      cases hsome
  · have hpath : holder = m.holderPath disk.toView := Retired.holder_eq (hholder ▸ hretired)
    rcases hm.removeFolder holder rc.disk with heq | ⟨e, d', heq, -⟩
    · rw [hpath] at heq hdelete
      have hdisk : dp.disk = rc.disk.after (.remove (m.holderSpot disk)) :=
        congrArg Prod.snd (hdelete.symm.trans (heq.trans hremove))
      rw [hdisk]
      change (rc.disk.tree.remove _).get? _ = none
      rw [Tree.get?_remove _ _ hretired.vacant_holder.ne_nil, if_pos (List.prefix_append _ k)]
    · cases heq.symm.trans hdelete
  · rw [hkept] at hleftover
    cases hleftover

/-- Regenerating changes nothing but the workflow, where it makes folders for it at most. -/
theorem Disposal.get?_end (dp : Disposal rc) {workflows : List Path} {d : Disk}
    (h : (m.regenerate rc.workspace (Document.rootOf m.document)).on dp.disk =
      (.ok workflows, d)) {k : Location} (hk : k ≠ m.workflowSpot disk) :
    d.tree.get? k = dp.disk.tree.get? k ∨ dp.disk.tree.get? k = none ∧
      d.tree.get? k = some .folder ∧ k <+: m.workflowSpot disk := by
  have hcurrent : dp.disk.current = disk.current :=
    (dp.through hm hc).current.trans (rc.current hm hc)
  rcases hm.regenerate_ok h with ⟨-, rfl⟩ | ⟨-, -, hwritten⟩
  · exact .inl rfl
  · have hothers := hwritten.others k
    rw [hcurrent] at hothers
    rcases hothers hk with hsame | ⟨hvisits, hnone, hfolder⟩
    · exact .inl hsame
    · rcases Workflow.visits_fileIn hvisits with htrail | hbelow
      · have hroot := onRootPath_of_mem_trail hp htrail
        have hthere := dp.isFolder hm hc (pr.isFolder_root hm hc hp hu hroot)
          fun hold => rt.not_prefix_onRootPath hm hc hp hold hroot
        rw [Tree.get?_of_isFolder hthere] at hnone
        cases hnone
      · exact .inr ⟨hnone, hfolder, hbelow⟩

end Later

end Rollout.Switch

import Mathlib.Tactic.Common
import Rollout.Proofs.Switch.FinalTree

/-!
# Files that arrive

A file that is generated in the staging folder is in the new folder when a switch is done, wherever
other files of the generator have gone (`Disposal.exists_inward_end`), and its path there leads to
it (`Disposal.isFile_inward_end`). Nothing is asked of the keys of the configurations: what leads
out of the staging folder may lie anywhere in the workspace while the switch goes on.
-/

namespace Rollout.Switch

open Disk DiskTask Location

variable {m : Means} {r : Request} {disk : Disk} {o : Opening m r disk} {st : Staging o}
  {rt : Retirement st} {pr : Promotion rt} {rc : Recording pr} {workflows : List Path} {d : Disk}

/-- Moving makes no other folder the current one. -/
theorem Means.Lawful.current_rename (hm : m.Lawful) (n : Nat) (source target : Path) (d : Disk) :
    ((m.rename n source target).on d).2.current = d.current := by
  have hmade := (through_makeFoldersTo target d).current
  rcases hm.rename n source target d with heq | ⟨e, d', heq, rfl | rfl⟩
  · rw [heq]
    rcases Disk.rename_cases source target d rfl rfl rfl with ⟨e, heq⟩ | ⟨heq, -⟩ | ⟨heq, -⟩
    · rw [heq, hmade]
    · rw [heq, hmade]
    · rw [heq, after_current, hmade]
  · rw [heq]
  · rw [heq, hmade]

section Places

variable (hm : m.Lawful) (hb : m.Builtin)
include hm hb

/-- The files that are there when the staging folder is made are there when the new files are
staged. -/
theorem Staging.isFile (st : Staging o) :
    st.disk.current = disk.current ∧ ∀ p, disk.isFile p → st.disk.isFile p := by
  obtain ⟨-, hvacant, hmade⟩ := st.made_eq hm
  have hcurrent := st.made_current hm
  have hfiles (p : Path) (hp : disk.isFile p) : st.made.isFile p := by
    have hextends : Tree.Extends disk.tree st.made.tree := hmade ▸ hvacant.extends_put .folder
    obtain ⟨content, -, hfile⟩ := View.isFile_eq_true.1 hp
    exact isFile_mono hp hcurrent (fun _ => hextends.isFolder) ⟨content, hextends _ _ hfile⟩
  obtain ⟨faults, hgenerate⟩ := st.exists_faults hb
  obtain ⟨hgenerated, hkept, -⟩ := isFile_of_writeFiles hgenerate
  exact ⟨hgenerated.trans hcurrent, fun p hp => hkept p (hfiles p hp)⟩

/-- The old files are kept where nothing was when the new ones were staged. -/
theorem Retirement.holder_eq (rt : Retirement st) {holder : Path} (h : rt.retired = some holder) :
    holder = m.holderPath disk.toView ∧ st.disk.tree.get? (m.holderSpot disk) = none := by
  rcases rt.how with ⟨-, hnone, -⟩ | ⟨_, holder', made, -, hsome, hmake, -⟩
  · cases h.symm.trans hnone
  obtain rfl := Option.some.inj (h.symm.trans hsome)
  obtain ⟨hpath, hvacant, -⟩ := hm.makeFolder_ok hm.isName_retiredName hmake
  rw [temporaryPath_congr (st.isFile hm hb).1] at hpath
  have habsent := hvacant.absent
  rw [(st.isFile hm hb).1, hpath] at habsent
  exact ⟨hpath, habsent⟩

theorem Retirement.current_eq (rt : Retirement st) : rt.disk.current = disk.current := by
  have hstaged := (st.isFile hm hb).1
  rcases rt.how with ⟨-, -, hdisk⟩ | ⟨folder, holder, made, -, -, hmake, hmove⟩
  · rw [hdisk, hstaged]
  · obtain ⟨-, -, hmade⟩ := hm.makeFolder_ok hm.isName_retiredName hmake
    have hmoved := hm.current_rename 1 folder (holder.child previousName) made
    rw [hmove] at hmoved
    rw [hmoved, hmade, after_current, hstaged]

theorem Promotion.current_eq (pr : Promotion rt) : pr.disk.current = disk.current := by
  have hmoved := hm.current_rename (rt.renames + 1) st.folder o.plan.newFolder rt.disk
  rw [pr.moving, rt.current_eq hm hb] at hmoved
  exact hmoved

theorem Recording.current_eq (rc : Recording pr) : rc.disk.current = disk.current :=
  (hm.through_save_ok rc.saving).1.current.trans (pr.current_eq hm hb)

variable (hp : disk.toView.Proper)
include hp

/-- Moving the old folder aside leaves what is staged. -/
theorem Retirement.holds_staging (rt : Retirement st) :
    Tree.Holds st.disk.tree (m.stagingSpot disk) rt.disk.tree (m.stagingSpot disk) := by
  rcases rt.how with ⟨-, -, hdisk⟩ | ⟨folder, holder, made, hold, hretired, hmake, hmove⟩
  · rw [hdisk]
    exact .refl _ _
  obtain rfl := (rt.holder_eq hm hb hretired).1
  obtain ⟨-, hvacant, hmade⟩ := hm.makeFolder_ok hm.isName_retiredName hmake
  have hcurrent : made.current = disk.current := by
    rw [hmade, after_current, (st.isFile hm hb).1]
  have hextends : Tree.Extends st.disk.tree made.tree := hmade ▸ hvacant.extends_put .folder
  have hgrows := (through_makeFoldersTo ((m.holderPath disk.toView).child previousName) made).last
  rcases hm.rename 1 folder ((m.holderPath disk.toView).child previousName) made with
    heq | ⟨e, d', heq, -⟩
  · have hcases := Disk.rename_cases folder ((m.holderPath disk.toView).child previousName) made
      rfl rfl rfl
    have hspot : ((m.holderPath disk.toView).child previousName).spot disk.current =
        m.previousSpot disk := Path.spot_child isName_previousName _ _
    rw [← heq, hmove, hcurrent, hspot] at hcases
    rcases hcases with ⟨e, hrename⟩ | ⟨hrename, -⟩ | ⟨hrename, hmovable, -⟩
    · cases hrename
    · rw [(Prod.mk.inj hrename).2]
      exact (hextends.trans hgrows.extends).holds
    · rw [(Prod.mk.inj hrename).2]
      have hroot : ¬ folder.spot disk.current <+: m.rootSpot disk := fun hbelow => by
        refine hmovable.apart (hbelow.trans ?_)
        rw [Means.previousSpot, holderSpot_eq hm hp, List.append_assoc]
        exact List.prefix_append _ _
      refine (hextends.trans hgrows.extends).holds.sameOff hmovable.sameOff fun k _ =>
        not_or.2 ⟨?_, fun hkept => ?_⟩
      · exact (not_prefix_own hm hp (o.get?_old hm hold) hroot).1 (st.made_eq hm).2.1.absent k
      · exact (own_apart hm hp k).2 ((List.prefix_append _ _).trans hkept)
  · cases heq.symm.trans hmove

omit hp in
theorem Promotion.promoted (pr : Promotion rt) :
    Promoted m disk rt.disk o.plan.newFolder pr.disk :=
  pr.promoted_of_current hm (rt.current_eq hm hb)

omit hp in
/-- A file of the generator that goes inwards is below the staging folder. -/
theorem Staging.get?_inward (st : Staging o) {file : Path × String} (hfile : file ∈ o.files)
    (hinward : file.1.IsInward) : ∃ content,
      st.disk.tree.get? (m.stagingSpot disk ++ walk [] file.1.segments) = some (.file content) := by
  obtain ⟨content, -, hget⟩ := View.isFile_eq_true.1 (st.isFile_join hb hfile)
  rw [(st.isFile hm hb).1, hinward.spot_join, st.spot_folder hm] at hget
  exact ⟨content, hget⟩

theorem Retirement.isFolder_stagingSpot (rt : Retirement st) :
    rt.disk.tree.isFolder (m.stagingSpot disk) := by
  obtain ⟨file, hfile, hinward⟩ : ∃ file ∈ o.files, file.1.IsInward := DeployFiles.exists_inward
  obtain ⟨content, hget⟩ := st.get?_inward hm hb hfile hinward
  refine Tree.isFolder_of_append (r := walk [] file.1.segments) ?_ hinward.ne_nil
  rw [rt.holds_staging hm hb hp _ _ hget]
  exact Option.some_ne_none _

end Places

/-! ### What the later phases leave -/

section End

variable (hm : m.Lawful)
include hm

/-- Saving leaves folders and files. -/
theorem Recording.holdsKinds (rc : Recording pr) (l : Location) :
    Tree.HoldsKinds pr.disk.tree l rc.disk.tree l := by
  obtain ⟨hthrough, hwritten⟩ := hm.through_save_ok rc.saving
  exact hthrough.last.kinds hwritten.file l

/-- Regenerating leaves folders and files. -/
theorem Disposal.holdsKinds_end (dp : Disposal rc)
    (h : (m.regenerate rc.workspace (Document.rootOf m.document)).on dp.disk = (.ok workflows, d))
    (l : Location) : Tree.HoldsKinds dp.disk.tree l d.tree l := by
  have hregenerate := hm.through_regenerate rc.workspace (Document.rootOf m.document) dp.disk
  rw [h] at hregenerate
  rcases hm.regenerate_ok h with ⟨-, rfl⟩ | ⟨-, -, hwritten⟩
  · exact (Tree.Holds.refl _ _).kinds
  · exact hregenerate.last.kinds hwritten.file l

variable (hb : m.Builtin)
include hb

/-- Deleting the old files changes nothing but the folder that keeps them. -/
theorem Disposal.through_sameOff (dp : Disposal rc) :
    Through (Tree.SameOff (m.holderSpot disk <+: ·) rc.disk.tree) rc.disk dp.disk := by
  refine dp.through_of_current hm (rc.current_eq hm hb) fun holder hretired => ?_
  rw [(rt.holder_eq hm hb hretired).1]
  rfl

theorem Disposal.current_eq_end (dp : Disposal rc)
    (h : (m.regenerate rc.workspace (Document.rootOf m.document)).on dp.disk =
      (.ok workflows, d)) : d.current = disk.current := by
  have hregenerate := hm.through_regenerate rc.workspace (Document.rootOf m.document) dp.disk
  rw [h] at hregenerate
  rw [hregenerate.current, (dp.through_sameOff hm hb).current, rc.current_eq hm hb]

/-- What is not deleted with the old files is of the same kind in the end. -/
theorem Disposal.holdsKinds_of_apart (dp : Disposal rc)
    (h : (m.regenerate rc.workspace (Document.rootOf m.document)).on dp.disk = (.ok workflows, d))
    {l : Location} (hl : ∀ k, ¬ m.holderSpot disk <+: l ++ k) :
    Tree.HoldsKinds pr.disk.tree l d.tree l := by
  have hdelete : Tree.Holds rc.disk.tree l dp.disk.tree l :=
    (Tree.Holds.refl _ _).sameOff (dp.through_sameOff hm hb).last fun k _ => hl k
  exact ((rc.holdsKinds hm l).trans hdelete.kinds).trans (dp.holdsKinds_end hm h l)

theorem Disposal.isFolder_of_apart (dp : Disposal rc)
    (h : (m.regenerate rc.workspace (Document.rootOf m.document)).on dp.disk = (.ok workflows, d))
    {s : Location} (hs : pr.disk.tree.isFolder s) (hholder : ¬ m.holderSpot disk <+: s) :
    d.tree.isFolder s := by
  have hsaved : rc.disk.tree.isFolder s := (rc.holdsKinds hm []).isFolder hs
  rw [← (dp.through_sameOff hm hb).last.isFolder hholder] at hsaved
  exact (dp.holdsKinds_end hm h []).isFolder hsaved

variable (hp : disk.toView.Proper) (hu : m.Unforeseen r disk)
include hp hu

/-- What is staged is of the same kind in the new folder in the end. -/
theorem Disposal.arrived (dp : Disposal rc)
    (h : (m.regenerate rc.workspace (Document.rootOf m.document)).on dp.disk =
      (.ok workflows, d)) :
    Tree.HoldsKinds st.disk.tree (m.stagingSpot disk) d.tree o.newSpot := by
  have hpromoted := pr.promoted hm hb
  have hroot := hpromoted.not_prefix_root hm hp (rt.isFolder_stagingSpot hm hb hp)
  have hholder : ∀ k, ¬ m.holderSpot disk <+: o.newSpot ++ k := by
    have hnew := (hu.apart hm o (within_newSpot o)).2
    rw [holderSpot_eq hm hp] at hnew ⊢
    exact fun k => (entry_apart hnew hroot k).1
  have hmoved := (rt.holds_staging hm hb hp).trans hpromoted.through_new.2
  exact hmoved.kinds.trans (dp.holdsKinds_of_apart hm hb h hholder)

/-- The path of the new folder leads to it in the end. -/
theorem Disposal.locate_newFolder (dp : Disposal rc)
    (h : (m.regenerate rc.workspace (Document.rootOf m.document)).on dp.disk =
      (.ok workflows, d)) : d.locate o.plan.newFolder = .ok o.newSpot := by
  have hstaging := rt.isFolder_stagingSpot hm hb hp
  have hpromoted := pr.promoted hm hb
  have hfolder : d.tree.isFolder o.newSpot :=
    dp.isFolder_of_apart hm hb h (hpromoted.isFolder_target hstaging)
      (hu.apart hm o (within_newSpot o)).2
  have hend {s : Location} (hs : pr.disk.tree.isFolder s) := dp.isFolder_of_apart hm hb h hs
  generalize pr.disk = promoted at hpromoted hend
  cases hpromoted with
  | stayed growing same => exact absurd same.symm (newSpot_ne_stagingSpot hm hu o)
  | @moved made growing movable trail place =>
    obtain ⟨pl, hplace, hlocation⟩ := place
    obtain ⟨last, hlast⟩ := View.name_of_location? hlocation
    have hmade : made.current = disk.current := growing.current.trans (rt.current_eq hm hb)
    have hcurrent := (dp.current_eq_end hm hb h).trans hmade.symm
    have hplaced := View.place_mono hplace hlast hcurrent <| by
      rw [hmade]
      intro s hs hmadeFolder
      obtain ⟨hout, hholder⟩ := hu.apart hm o (Visits.within (.inl hs) fun _ hn => .inl hn)
      refine hend (decide_eq_true ?_) hholder
      exact movable.get?_of_isFolder (growing.last.extends.isFolder hstaging) hout
        (Tree.get?_of_isFolder hmadeFolder)
    exact View.locate_of_place hplaced hlocation hfolder

/-- A file that is generated inside the staging folder is in the new folder in the end. -/
theorem Disposal.exists_inward_end (dp : Disposal rc)
    (h : (m.regenerate rc.workspace (Document.rootOf m.document)).on dp.disk = (.ok workflows, d))
    {file : Path × String} (hfile : file ∈ o.files) (hinward : file.1.IsInward) :
    ∃ content, d.tree.get? ((o.plan.newFolder.join file.1).spot disk.current) =
      some (.file content) := by
  obtain ⟨content, hget⟩ := st.get?_inward hm hb hfile hinward
  rw [hinward.spot_join]
  exact (dp.arrived hm hb hp hu h).file hget

/-- Its path leads to it, unless it is too long. -/
theorem Disposal.isFile_inward_end (dp : Disposal rc)
    (h : (m.regenerate rc.workspace (Document.rootOf m.document)).on dp.disk = (.ok workflows, d))
    {file : Path × String} (hfile : file ∈ o.files) (hinward : file.1.IsInward)
    (husable : View.isUnusable (o.plan.newFolder.join file.1) = false) :
    d.isFile (o.plan.newFolder.join file.1) := by
  have hcurrent := dp.current_eq_end hm hb h
  have hstaged : st.folder.spot st.disk.current = m.stagingSpot disk := by
    rw [(st.isFile hm hb).1, st.spot_folder hm]
  obtain ⟨-, hlocate, -⟩ := View.isFile_eq_true.1 (st.isFile_join hb hfile)
  obtain ⟨content, hget⟩ := dp.exists_inward_end hm hb hp hu h hfile hinward
  have harrived := dp.arrived hm hb hp hu h
  have hlocated := dp.locate_newFolder hm hb hp hu h
  rw [Opening.newSpot, ← hcurrent] at harrived hlocated
  rw [← hstaged] at harrived
  rw [← hcurrent] at hget
  exact View.isFile_eq_true.2
    ⟨content, hinward.locate_join harrived hlocate hlocated husable, hget⟩

end End

end Rollout.Switch

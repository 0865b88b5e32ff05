import Mathlib.Tactic.Common
import Rollout.Proofs.Switch.Generator

/-!
# Where the files are

The old and the new files of a switch pass from one place to another. Here is how the places lie
to each other, and what each later phase does to what is there: no phase that moves or removes
something has the files of the other kind in its way.
-/

namespace Rollout.Switch

open Disk DiskTask Location

namespace Means

variable (m : Means) (disk : Disk)

/-- Where the folder of the workspace is. -/
def rootSpot : Location := (Document.rootOf m.document).spot disk.current

/-- Where the workspace document is. -/
def documentSpot : Location := m.document.spot disk.current

/-- Where the workflow is. -/
def workflowSpot : Location := (Workflow.fileIn (Document.rootOf m.document)).spot disk.current

theorem workflowSpot_eq : m.workflowSpot disk = m.rootSpot disk ++ Workflow.location :=
  Workflow.spot_fileIn _ _

/-- The workflow is no entry of the folder of the workspace, it is further down. -/
theorem entry_ne_workflowSpot (name : String) : m.rootSpot disk ++ [name] ≠ m.workflowSpot disk := by
  simp [workflowSpot_eq, Workflow.location]

/-- The names of the switch's own folders occur neither in the current folder nor in the path of
the new folder. -/
def Unforeseen (m : Means) (r : Request) (disk : Disk) : Prop :=
  ∀ o : Opening m r disk, ∀ name ∈ [m.stagingName, m.retiredName],
    name ∉ disk.current ∧ name ∉ o.plan.newFolder.segments

end Means

/-- Where the new files go. -/
def Opening.newSpot {m : Means} {r : Request} {disk : Disk} (o : Opening m r disk) : Location :=
  o.plan.newFolder.spot disk.current

variable {m : Means} {r : Request} {disk : Disk} {o : Opening m r disk}

section Places

variable (hm : m.Lawful)
include hm

theorem stagingSpot_eq (hp : disk.toView.Proper) :
    m.stagingSpot disk = m.rootSpot disk ++ [m.stagingName] := by
  have hspot := Path.spot_child hm.isName_stagingName
    (fromTop disk.toView (Document.rootOf m.document)) disk.current
  rw [spot_fromTop hp] at hspot
  exact hspot

theorem holderSpot_eq (hp : disk.toView.Proper) :
    m.holderSpot disk = m.rootSpot disk ++ [m.retiredName] := by
  have hspot := Path.spot_child hm.isName_retiredName
    (fromTop disk.toView (Document.rootOf m.document)) disk.current
  rw [spot_fromTop hp] at hspot
  exact hspot

theorem stagingName_mem_stagingSpot : m.stagingName ∈ m.stagingSpot disk := by
  have hspot := Path.spot_child hm.isName_stagingName
    (fromTop disk.toView (Document.rootOf m.document)) disk.current
  change m.stagingName ∈ Path.spot _ _
  rw [Means.stagingPath, temporaryPath, hspot]
  exact List.mem_append_right _ (List.mem_singleton_self _)

theorem retiredName_mem_holderSpot : m.retiredName ∈ m.holderSpot disk := by
  have hspot := Path.spot_child hm.isName_retiredName
    (fromTop disk.toView (Document.rootOf m.document)) disk.current
  change m.retiredName ∈ Path.spot _ _
  rw [Means.holderPath, temporaryPath, hspot]
  exact List.mem_append_right _ (List.mem_singleton_self _)

/-- The switch's own folders are not in the way of the new folder. -/
theorem Means.Unforeseen.apart (hu : m.Unforeseen r disk) (o : Opening m r disk) {k : Location}
    (hk : Within disk.current o.plan.newFolder k) :
    ¬ m.stagingSpot disk <+: k ∧ ¬ m.holderSpot disk <+: k := by
  have absent {name : String} (hname : name ∈ [m.stagingName, m.retiredName]) (hne : name ≠ "") :
      name ∉ k := by
    intro hmem
    obtain ⟨hcurrent, hsegments⟩ := hu o name hname
    rcases hk name hmem with h | h | h
    · exact hcurrent h
    · exact hsegments h
    · exact hne h
  constructor
  · intro hbelow
    exact absent (by simp) hm.isName_stagingName.1
      (hbelow.subset (stagingName_mem_stagingSpot hm))
  · intro hbelow
    exact absent (by simp) hm.isName_retiredName.1
      (hbelow.subset (retiredName_mem_holderSpot hm))

end Places

theorem within_newSpot (o : Opening m r disk) :
    Within disk.current o.plan.newFolder o.newSpot :=
  Visits.within (.inr rfl) fun _ hn => .inl hn

theorem Small.unforeseen (f : Faults) :
    (Small.means f).Unforeseen Small.request Small.start := fun o =>
  o.of_loaded (P := fun _ p => ∀ name ∈ [stagingPrefix ++ "0aZb9X", retiredPrefix ++ "0aZb9X"],
    name ∉ Small.start.current ∧
      name ∉ (planFor (Document.rootOf ⟨"keel.json"⟩) p Small.request).newFolder.segments) (by
    rw [Small.load_means]
    decide +kernel)

/-- The folder for the old files is not below the staging folder, nor the other way round. -/
theorem own_apart (hm : m.Lawful) (hp : disk.toView.Proper) (k : Location) :
    ¬ m.stagingSpot disk <+: m.holderSpot disk ++ k ∧
      ¬ m.holderSpot disk <+: m.stagingSpot disk ++ k := by
  rw [stagingSpot_eq hm hp, holderSpot_eq hm hp, List.append_assoc, List.append_assoc,
    List.prefix_append_right_inj, List.prefix_append_right_inj]
  simp [hm.names_ne, Ne.symm hm.names_ne]

/-! ### Moving the old folder aside -/

/-- What was there before is not in the switch's own folders, and it does not hold them unless it
holds the folder of the workspace. -/
theorem not_prefix_own (hm : m.Lawful) (hp : disk.toView.Proper) {l : Location}
    (hthere : disk.tree.get? l ≠ none) (hroot : ¬ l <+: m.rootSpot disk) :
    (disk.tree.get? (m.stagingSpot disk) = none → ∀ k, ¬ l <+: m.stagingSpot disk ++ k) ∧
      (disk.tree.get? (m.holderSpot disk) = none → ∀ k, ¬ l <+: m.holderSpot disk ++ k) := by
  have apart {name : String} (hnone : disk.tree.get? (m.rootSpot disk ++ [name]) = none)
      (k : Location) : ¬ l <+: (m.rootSpot disk ++ [name]) ++ k :=
    (entry_apart (fun hbelow => hthere (Tree.get?_under hnone hbelow)) hroot k).2
  rw [stagingSpot_eq hm hp, holderSpot_eq hm hp]
  exact ⟨apart, apart⟩

namespace Retired

variable {before d : Disk} {folder : Path} {retired : Option Path}

/-- The folder of the workspace is not in what is moved aside. -/
theorem not_prefix_root (hm : m.Lawful) (hp : disk.toView.Proper)
    (h : Retired m disk before (some folder) retired d) :
    ¬ folder.spot disk.current <+: m.rootSpot disk := by
  cases h with
  | moved held movable =>
    intro hbelow
    refine movable.apart (hbelow.trans ?_)
    rw [Means.previousSpot, holderSpot_eq hm hp, List.append_assoc]
    exact List.prefix_append _ _

theorem current {old : Option Path} (hs : Staged m disk before)
    (h : Retired m disk before old retired d) : d.current = disk.current := by
  cases h with
  | nothing => exact hs.current
  | moved held movable =>
    rw [after_current, withHolder_current]
    exact hs.current

theorem holder_eq {old : Option Path} {holder : Path}
    (h : Retired m disk before old (some holder) d) : holder = m.holderPath disk.toView := by
  cases h with
  | moved held movable => rfl

theorem absent (h : Retired m disk before (some folder) retired d) :
    disk.tree.get? (m.holderSpot disk) = none := by
  cases h with
  | moved held movable => exact held.absent

/-- The old folder is at its place until it is where it is kept. -/
theorem through_old (h : Retired m disk before (some folder) retired d) :
    Through (fun t => Tree.Holds disk.tree (folder.spot disk.current) t (folder.spot disk.current) ∨
        Tree.Holds disk.tree (folder.spot disk.current) t (m.previousSpot disk)) disk d ∧
      Tree.Holds disk.tree (folder.spot disk.current) d.tree (m.previousSpot disk) := by
  cases h with
  | moved held movable =>
    have hmoved := held.through.last.holds.trans movable.holds
    exact ⟨(held.through.mono fun t ht => .inl ht.holds).step _ (.inr hmoved), hmoved⟩

/-- The staged files stay where they are. -/
theorem get?_staging (hm : m.Lawful) (hp : disk.toView.Proper) (hs : Staged m disk before)
    {old : Option Path} (hold : ∀ folder ∈ old, disk.tree.get? (folder.spot disk.current) ≠ none)
    (h : Retired m disk before old retired d) (k : Location) :
    d.tree.get? (m.stagingSpot disk ++ k) = before.tree.get? (m.stagingSpot disk ++ k) := by
  have hroot := fun folder (h : Retired m disk before (some folder) retired d) =>
    h.not_prefix_root hm hp
  cases h with
  | nothing => rfl
  | moved held movable =>
    rename_i folder
    have hnot := (not_prefix_own hm hp (hold folder rfl) (hroot folder (.moved held movable))).1
      hs.vacant.absent k
    have hapart := (own_apart hm hp k).2
    have hkept : ¬ m.previousSpot disk <+: m.stagingSpot disk ++ k := fun hbelow =>
      hapart ((List.prefix_append _ _).trans hbelow)
    have hmoved := movable.sameOff (m.stagingSpot disk ++ k) (not_or.2 ⟨hnot, hkept⟩)
    refine hmoved.trans ?_
    rw [held.get?_withHolder, if_neg]
    intro heq
    exact hapart (heq ▸ List.prefix_rfl)

end Retired

/-! ### Moving the new files to their place -/

namespace Promoted

variable {before d : Disk} {target : Path} (h : Promoted m disk before target d)
include h

theorem current : d.current = before.current := by
  cases h with
  | stayed growing same => exact growing.current
  | moved growing movable trail place => exact growing.current

/-- The new files are at their place, and on the way there they are where they were staged. -/
theorem through_new :
    Through (fun t => Tree.Holds before.tree (m.stagingSpot disk) t (m.stagingSpot disk) ∨
        Tree.Holds before.tree (m.stagingSpot disk) t (target.spot disk.current)) before d ∧
      Tree.Holds before.tree (m.stagingSpot disk) d.tree (target.spot disk.current) := by
  cases h with
  | stayed growing same =>
    have hheld := growing.last.extends.holds (a := m.stagingSpot disk)
    rw [← same]
    exact ⟨growing.mono fun t ht => .inl ht.extends.holds, hheld⟩
  | moved growing movable trail place =>
    have hmoved := growing.last.extends.holds.trans movable.holds
    exact ⟨(growing.mono fun t ht => .inl ht.extends.holds).step _ (.inr hmoved), hmoved⟩

/-- What is held elsewhere is held all the time. -/
theorem through_holds (hf : before.tree.isFolder (m.stagingSpot disk)) {t₀ : Tree}
    {a b : Location} (hheld : Tree.Holds t₀ a before.tree b)
    (hapart : ∀ r, ¬ m.stagingSpot disk <+: b ++ r) :
    Through (fun t => Tree.Holds t₀ a t b) before d := by
  cases h with
  | stayed growing same => exact growing.mono fun t ht => hheld.extends ht.extends
  | moved growing movable trail place =>
    refine (growing.mono fun t ht => hheld.extends ht.extends).step _ fun r e hr => ?_
    exact movable.get?_of_isFolder (growing.last.extends.isFolder hf) (hapart r)
      (growing.last.extends _ e (hheld r e hr))

theorem isFolder_target (hf : before.tree.isFolder (m.stagingSpot disk)) :
    d.tree.isFolder (target.spot disk.current) := by
  have hheld := h.through_new.2 [] .folder
  rw [List.append_nil, List.append_nil] at hheld
  exact decide_eq_true (hheld (Tree.get?_of_isFolder hf))

/-- The folder of the workspace is not in the new folder: the staged files are there, and the new
folder was empty at most. -/
theorem not_prefix_root (hm : m.Lawful) (hp : disk.toView.Proper)
    (hf : before.tree.isFolder (m.stagingSpot disk)) :
    ¬ target.spot disk.current <+: m.rootSpot disk := by
  have hstaging := stagingSpot_eq hm hp
  intro hbelow
  cases h with
  | stayed growing same =>
    rw [← same, hstaging] at hbelow
    exact absurd hbelow.length_le (by simp)
  | moved growing movable trail place =>
    obtain ⟨r, hr⟩ := hbelow
    have hthere := Tree.get?_of_isFolder (growing.last.extends.isFolder hf)
    rw [hstaging, ← hr, List.append_assoc] at hthere
    have hnil := (movable.free _ _ hthere).1
    simp at hnil

end Promoted

/-! ### Saving, deleting, regenerating -/

namespace Means.Lawful

variable (hm : m.Lawful)
include hm

/-- A save that fails keeps the old document. -/
theorem through_save_error {w : Workspace} {e : StoreError} {d d' : Disk}
    (h : (m.save w).on d = (.error e, d')) : Through (Tree.Extends d.tree) d d' := by
  rcases hm.save w d with heq | ⟨e', d'', heq, hthrough⟩
  · rcases Document.save_cases .never m.document w d with
      ⟨e', d'', hsave, hthrough, -⟩ | ⟨d'', hsave, -⟩
    · obtain rfl : d'' = d' := congrArg Prod.snd (hsave.symm.trans (heq.symm.trans h))
      exact hthrough.mono fun t ht => ht.keeps
    · cases hsave.symm.trans (heq.symm.trans h)
  · obtain rfl : d'' = d' := congrArg Prod.snd (heq.symm.trans h)
    exact hthrough

/-- A save that succeeds has written the document. -/
theorem through_save_ok {w : Workspace} {d d' : Disk} (h : (m.save w).on d = (.ok (), d')) :
    Through (Tree.ExtendsBut (m.document.spot d.current) d.tree) d d' ∧
      Written d m.document (Document.write w) d'.tree := by
  rcases hm.save w d with heq | ⟨e', d'', heq, -⟩
  · rcases Document.save_cases .never m.document w d with
      ⟨e', d'', hsave, -⟩ | ⟨d'', hsave, hthrough, hwritten⟩
    · cases hsave.symm.trans (heq.symm.trans h)
    · obtain rfl : d'' = d' := congrArg Prod.snd (hsave.symm.trans (heq.symm.trans h))
      exact ⟨hthrough.mono fun t ht => ht.keeps, hwritten⟩
  · cases heq.symm.trans h

theorem through_delete (p : Path) (d : Disk) :
    Through (Tree.SameOff (p.spot d.current <+: ·) d.tree) d ((m.removeFolder p).on d).2 := by
  rcases hm.removeFolder p d with heq | ⟨e, d', heq, hthrough⟩
  · rw [heq]
    exact through_removeFolder p d
  · rw [heq]
    exact hthrough

/-- Where regenerating succeeds there is nothing to write, or the workflow is written. -/
theorem regenerate_ok {w : Workspace} {root : Path} {paths : List Path} {d d' : Disk}
    (h : (m.regenerate w root).on d = (.ok paths, d')) :
    Workflow.jobs w = [] ∧ d' = d ∨ Workflow.jobs w ≠ [] ∧ paths = [Workflow.fileIn root] ∧
      Written d (Workflow.fileIn root) (Workflow.text w) d'.tree := by
  rcases hm.regenerate w root d with heq | ⟨e, d'', heq, -⟩
  · rcases Workflow.regenerate_cases .never w root d with
      ⟨hjobs, hnone⟩ | ⟨hjobs, ⟨e, d'', hfailed, -⟩ | ⟨d'', hdone, -, hwritten⟩⟩
    · exact .inl ⟨hjobs, congrArg Prod.snd (h.symm.trans (heq.trans hnone))⟩
    · cases hfailed.symm.trans (heq.symm.trans h)
    · obtain ⟨rfl, rfl⟩ : [Workflow.fileIn root] = paths ∧ d'' = d' := by
        simpa using hdone.symm.trans (heq.symm.trans h)
      exact .inr ⟨hjobs, rfl, hwritten⟩
  · cases heq.symm.trans h

theorem through_regenerate (w : Workspace) (root : Path) (d : Disk) :
    Through (Tree.ExtendsBut ((Workflow.fileIn root).spot d.current) d.tree) d
      ((m.regenerate w root).on d).2 := by
  rcases hm.regenerate w root d with heq | ⟨e, d', heq, hthrough⟩
  · rw [heq]
    rcases Workflow.regenerate_cases .never w root d with
      ⟨-, heq⟩ | ⟨-, ⟨e, d', heq, hthrough, -⟩ | ⟨d', heq, hthrough, -⟩⟩
    · rw [heq]
      exact .rest (Tree.Extends.refl _).but
    · rw [heq]
      exact hthrough.mono fun t ht => ht.keeps.but
    · rw [heq]
      exact hthrough.mono fun t ht => ht.keeps
  · rw [heq]
    exact hthrough

end Means.Lawful

section Course

variable {st : Staging o} {rt : Retirement st} {pr : Promotion rt} {rc : Recording pr}
  (hm : m.Lawful) (hc : m.Confined r disk)
include hm

/-- The staged files are moved to the new folder, or they were there. -/
theorem Promotion.promoted_of_current (pr : Promotion rt) (h : rt.disk.current = disk.current) :
    Promoted m disk rt.disk o.plan.newFolder pr.disk := by
  have hmoving := pr.moving
  rw [(st.made_eq hm).1] at hmoving
  rcases promote_rename_cases hm (rt.renames + 1) o.plan.newFolder h with
    ⟨e, d', heq, -⟩ | ⟨d', heq, hpromoted⟩
  · cases heq.symm.trans hmoving
  · obtain rfl : d' = pr.disk := congrArg Prod.snd (heq.symm.trans hmoving)
    exact hpromoted

/-- Deleting the old files changes nothing but the folder that keeps them. -/
theorem Disposal.through_of_current (dp : Disposal rc) (h : rc.disk.current = disk.current)
    {kept : Location} (hkept : ∀ holder, rt.retired = some holder →
      holder.spot disk.current = kept) :
    Through (Tree.SameOff (kept <+: ·) rc.disk.tree) rc.disk dp.disk := by
  rcases dp.how with ⟨-, -, hdisk⟩ | ⟨holder, hretired, hend⟩
  · rw [hdisk]
    exact .rest (.refl _ _)
  · have hdelete := hm.through_delete holder rc.disk
    rw [h, hkept holder hretired] at hdelete
    rcases hend with ⟨heq, -⟩ | ⟨e, heq, -⟩
    · rwa [heq] at hdelete
    · rwa [heq] at hdelete

include hc

theorem Retirement.current (rt : Retirement st) : rt.disk.current = disk.current :=
  (rt.retired_eq hm hc).current (st.staged hm hc).2

/-- Where there is an old folder it was moved aside. -/
theorem Retirement.retired_some (rt : Retirement st) {folder : Path} (hold : o.old = some folder) :
    Retired m disk st.disk (some folder) rt.retired rt.disk :=
  hold ▸ rt.retired_eq hm hc

theorem Retirement.exists_retired (rt : Retirement st) (hold : o.old ≠ none) :
    ∃ folder, o.old = some folder ∧
      Retired m disk st.disk (some folder) rt.retired rt.disk := by
  obtain ⟨folder, hfolder⟩ := Option.ne_none_iff_exists'.1 hold
  exact ⟨folder, hfolder, rt.retired_some hm hc hfolder⟩

theorem Retirement.isFolder_staging (hp : disk.toView.Proper) (rt : Retirement st) :
    rt.disk.tree.isFolder (m.stagingSpot disk) := by
  have hs := (st.staged hm hc).2
  have hstaging := (rt.retired_eq hm hc).get?_staging hm hp hs (fun _ => o.get?_old hm) []
  rw [List.append_nil] at hstaging
  rw [Tree.isFolder, hstaging, ← Tree.isFolder, hs.folder]

theorem Promotion.promoted_disk (pr : Promotion rt) :
    Promoted m disk rt.disk o.plan.newFolder pr.disk :=
  pr.promoted_of_current hm (rt.current hm hc)

theorem Recording.current (rc : Recording pr) : rc.disk.current = disk.current := by
  rw [(hm.through_save_ok rc.saving).1.current, (pr.promoted_disk hm hc).current,
    rt.current hm hc]

/-- The document is an entry of the folder of the workspace. -/
theorem Recording.documentSpot_eq (rc : Recording pr) :
    ∃ name, m.documentSpot disk = m.rootSpot disk ++ [name] := by
  obtain ⟨name, -, hspot⟩ := (hm.through_save_ok rc.saving).2.named
  rw [(pr.promoted_disk hm hc).current, rt.current hm hc] at hspot
  exact ⟨name, hspot⟩

theorem Disposal.through (dp : Disposal rc) :
    Through (Tree.SameOff (m.holderSpot disk <+: ·) rc.disk.tree) rc.disk dp.disk := by
  refine dp.through_of_current hm (rc.current hm hc) fun holder hretired => ?_
  have hholder : holder = m.holderPath disk.toView :=
    Retired.holder_eq (hretired ▸ rt.retired_eq hm hc)
  rw [hholder]
  rfl

variable (hp : disk.toView.Proper)
include hp

theorem Promotion.not_prefix_root (pr : Promotion rt) : ¬ o.newSpot <+: m.rootSpot disk :=
  (pr.promoted_disk hm hc).not_prefix_root hm hp (rt.isFolder_staging hm hc hp)

/-- What is deleted is neither above the new folder nor in it. -/
theorem Promotion.holder_apart (hu : m.Unforeseen r disk) (pr : Promotion rt) (k : Location) :
    ¬ m.holderSpot disk <+: o.newSpot ++ k := by
  have hnew := (hu.apart hm o (within_newSpot o)).2
  rw [holderSpot_eq hm hp] at hnew ⊢
  exact (entry_apart hnew (pr.not_prefix_root hm hc hp) k).1

/-- The document is not in the new folder: it is an entry of the folder of the workspace and no
folder itself. -/
theorem Recording.not_prefix_document (rc : Recording pr) :
    ¬ o.newSpot <+: m.documentSpot disk := by
  obtain ⟨name, hname⟩ := rc.documentSpot_eq hm hc
  intro hbelow
  rw [hname] at hbelow
  rcases List.prefix_concat_iff.1 hbelow with heq | hbelow
  · have hpromoted := pr.promoted_disk hm hc
    have hfolder := hpromoted.isFolder_target (rt.isFolder_staging hm hc hp)
    have hreplaced := (hm.through_save_ok rc.saving).2.replaced
    rw [hpromoted.current, rt.current hm hc] at hreplaced
    have hspot : o.newSpot = m.document.spot disk.current := heq.trans hname.symm
    rw [show o.plan.newFolder.spot disk.current = _ from hspot, hreplaced] at hfolder
    cases hfolder
  · exact pr.not_prefix_root hm hc hp hbelow

end Course

end Rollout.Switch

import Mathlib.Data.List.Basic
import Mathlib.Tactic.Common
import Rollout.Proofs.Switch.FinalTree
import Rollout.Proofs.Switch.NothingLost
import Rollout.Proofs.Switch.Recorded

/-!
# A completed switch

What has become of the workspace and of the tree when a switch reports that it is done
(`completed_switch`): the staged files are at the new place, nothing of the old folder is at its
place, and whatever else was there is there.
-/

namespace Rollout.Switch

open Disk DiskTask Location

variable {m : Means} {r : Request} {disk : Disk} {o : Opening m r disk}

/-- What is somewhere now is what was there, or a folder where nothing was. -/
def Stays (before after : Option Entry) : Prop :=
  after = before ∨ before = none ∧ after = some .folder

namespace Stays

theorem trans {a b c : Option Entry} (h₁ : Stays a b) (h₂ : Stays b c) : Stays a c := by
  rcases h₁ with rfl | ⟨hnone, rfl⟩
  · exact h₂
  · rcases h₂ with rfl | ⟨hb, -⟩
    · exact .inr ⟨hnone, rfl⟩
    · cases hb

/-- A file that is there was there. -/
theorem file {before after : Option Entry} {content : Content} (h : Stays before after)
    (hfile : after = some (.file content)) : before = some (.file content) := by
  rcases h with rfl | ⟨-, rfl⟩
  · exact hfile
  · cases hfile

theorem folder {before after : Option Entry} (h : Stays before after)
    (hfolder : before = some .folder) : after = some .folder := by
  rcases h with rfl | ⟨hnone, -⟩
  · exact hfolder
  · rw [hfolder] at hnone
    cases hnone

end Stays

/-! ### The places of a switch -/

section Places

variable (hm : m.Lawful) (hp : disk.toView.Proper)
include hm hp

/-- The switch's own folders are not on the way to the workflow. -/
theorem own_not_prefix_workflowSpot :
    ¬ m.stagingSpot disk <+: m.workflowSpot disk ∧
      ¬ m.holderSpot disk <+: m.workflowSpot disk := by
  have apart {start suffix : String} (h : start.toList.take 2 = ['.', 'k']) :
      ¬ m.rootSpot disk ++ [start ++ suffix] <+: m.workflowSpot disk := by
    rw [m.workflowSpot_eq, List.prefix_append_right_inj]
    intro hbelow
    have hname : start ++ suffix = ".github" := by simpa [Workflow.location] using hbelow
    have htake := congrArg (List.take 2 ∘ String.toList) hname
    have hlength : 2 ≤ start.toList.length := by
      have := congrArg List.length h
      simp at this
      omega
    simp [List.take_append_of_le_length hlength, h] at htake
  obtain ⟨staging, -, hstaging⟩ := hm.stagingName
  obtain ⟨retired, -, hretired⟩ := hm.retiredName
  rw [stagingSpot_eq hm hp, holderSpot_eq hm hp, hstaging, hretired]
  exact ⟨apart (by decide), apart (by decide)⟩

end Places

section Document

variable (hm : m.Lawful) (hc : m.Confined r disk) {st : Staging o} {rt : Retirement st}
  {pr : Promotion rt}
include hm hc

theorem Recording.documentSpot_ne_workflowSpot (rc : Recording pr) :
    m.documentSpot disk ≠ m.workflowSpot disk := by
  obtain ⟨name, hname⟩ := rc.documentSpot_eq hm hc
  rw [hname]
  exact m.entry_ne_workflowSpot disk name

omit hc in
/-- The document was there before, and so it is not where nothing was. -/
theorem Opening.not_prefix_documentSpot (o : Opening m r disk) {l : Location}
    (h : disk.tree.get? l = none) : ¬ l <+: m.documentSpot disk := by
  intro hbelow
  obtain ⟨content, hdocument⟩ := hm.present disk o.workspace o.base o.loading
  rw [show m.document.spot disk.current = m.documentSpot disk from rfl,
    Tree.get?_under h hbelow] at hdocument
  cases hdocument

end Document

/-! ### The tree -/

/-- What the tree is after a switch that staged its files on one disk, saved a workspace and ended
on another disk. -/
structure Settled (o : Opening m r disk) (staged : Disk) (w : Workspace) (leftover : Option Path)
    (d : Disk) : Prop where
  /-- The path of the new folder leads to it. -/
  located : d.locate o.plan.newFolder = .ok o.newSpot
  /-- In the new folder are the staged files, but for the workflow and the folders to it. -/
  new : ∀ k, o.newSpot ++ k ≠ m.workflowSpot disk →
    d.tree.get? (o.newSpot ++ k) = staged.tree.get? (m.stagingSpot disk ++ k) ∨
      staged.tree.get? (m.stagingSpot disk ++ k) = none ∧
        d.tree.get? (o.newSpot ++ k) = some .folder ∧ o.newSpot ++ k <+: m.workflowSpot disk
  /-- No file is left in the old folder, but for those in the new one and the workflow. Where the
  document itself was taken for the old folder, there is the new document. -/
  old : ∀ folder ∈ o.old, ∀ k content,
    d.tree.get? (folder.spot disk.current ++ k) = some (.file content) →
      o.newSpot <+: folder.spot disk.current ++ k ∨
      folder.spot disk.current ++ k = m.workflowSpot disk ∨
      folder.spot disk.current ++ k = m.documentSpot disk ∧
        disk.tree.isFolder (folder.spot disk.current) = false
  staging : ∀ k, d.tree.get? (m.stagingSpot disk ++ k) = none
  holder : o.old ≠ none → leftover = none → ∀ k, d.tree.get? (m.holderSpot disk ++ k) = none
  kept : ∀ folder ∈ leftover, o.old ≠ none ∧ folder = m.holderPath disk.toView
  document : d.tree.get? (m.documentSpot disk) = some (.file (.text (Document.write w)))
  workflow : d.tree.get? (m.workflowSpot disk) = some (.file (.text (Workflow.text w)))
  /-- Everything else is as it was, but for new folders. -/
  others : ∀ k, (∀ folder ∈ o.old, ¬ folder.spot disk.current <+: k) → ¬ o.newSpot <+: k →
    k ≠ m.documentSpot disk → k ≠ m.workflowSpot disk →
    (leftover ≠ none → ¬ m.holderSpot disk <+: k) → Stays (disk.tree.get? k) (d.tree.get? k)

section Tree

variable (hm : m.Lawful) (hc : m.Confined r disk) {st : Staging o} {rt : Retirement st}
  {pr : Promotion rt} {rc : Recording pr} {workflows : List Path} {d : Disk}
include hm hc

/-- A folder that is there when the workspace is saved is there in the end, where it is not in
what is deleted. -/
theorem Disposal.isFolder_end (dp : Disposal rc)
    (h : (m.regenerate rc.workspace (Document.rootOf m.document)).on dp.disk = (.ok workflows, d))
    {s : Location} (hs : pr.disk.tree.isFolder s) (hholder : ¬ m.holderSpot disk <+: s) :
    d.tree.isFolder s := by
  have hthere := dp.isFolder hm hc hs fun _ => hholder
  have hregenerate := hm.through_regenerate rc.workspace (Document.rootOf m.document) dp.disk
  rw [h] at hregenerate
  exact hregenerate.last.isFolder hthere

/-- The workflow is that of the saved workspace. -/
theorem Disposal.workflow_eq (dp : Disposal rc)
    (h : (m.regenerate rc.workspace (Document.rootOf m.document)).on dp.disk = (.ok workflows, d))
    (hjobs : Workflow.jobs rc.workspace ≠ []) :
    workflows = [Workflow.fileIn (Document.rootOf m.document)] ∧
      d.tree.get? (m.workflowSpot disk) = some (.file (.text (Workflow.text rc.workspace))) := by
  have hcurrent : dp.disk.current = disk.current :=
    (dp.through hm hc).current.trans (rc.current hm hc)
  rcases hm.regenerate_ok h with ⟨hnone, -⟩ | ⟨-, rfl, hwritten⟩
  · exact absurd hnone hjobs
  · have hfile := hwritten.file
    rw [hcurrent] at hfile
    exact ⟨rfl, hfile⟩

/-- The document stays as it was saved. -/
theorem Disposal.get?_document (dp : Disposal rc) :
    dp.disk.tree.get? (m.documentSpot disk) =
      some (.file (.text (Document.write rc.workspace))) := by
  rw [dp.get?_other hm hc, rc.get?_document hm hc]
  intro hold
  obtain ⟨folder, -, hretired⟩ := rt.exists_retired hm hc hold
  exact o.not_prefix_documentSpot hm hretired.absent

variable (hp : disk.toView.Proper)
include hp

/-- What is in the old folder is not in the switch's own folders. -/
theorem Retirement.old_apart (rt : Retirement st) {folder : Path} (hold : o.old = some folder)
    (k : Location) : ¬ m.stagingSpot disk <+: folder.spot disk.current ++ k ∧
      ¬ m.holderSpot disk <+: folder.spot disk.current ++ k := by
  have hretired := rt.retired_some hm hc hold
  have hthere := o.get?_old hm hold
  obtain ⟨hstaging, hholder⟩ := not_prefix_own hm hp hthere (hretired.not_prefix_root hm hp)
  have apart {l : Location} (habsent : disk.tree.get? l = none)
      (hnot : ¬ folder.spot disk.current <+: l) : ¬ l <+: folder.spot disk.current ++ k := by
    intro hbelow
    rcases List.prefix_or_prefix_of_prefix hbelow (List.prefix_append _ k) with hl | hl
    · exact hthere (Tree.get?_under habsent hl)
    · exact hnot hl
  constructor
  · apply apart (st.staged hm hc).2.vacant.absent
    simpa using hstaging (st.staged hm hc).2.vacant.absent []
  · apply apart hretired.absent
    simpa using hholder hretired.absent []

/-- The document is in the old folder only where it was taken for the old folder itself. -/
theorem Recording.isFolder_old (rc : Recording pr) {folder : Path} (hold : o.old = some folder)
    (h : folder.spot disk.current <+: m.documentSpot disk) :
    disk.tree.isFolder (folder.spot disk.current) = false := by
  have hretired := rt.retired_some hm hc hold
  obtain ⟨content, hdocument⟩ := hm.present disk o.workspace o.base o.loading
  obtain ⟨name, hname⟩ := rc.documentSpot_eq hm hc
  rw [hname] at h
  rcases List.prefix_concat_iff.1 h with heq | h
  · have hspot : folder.spot disk.current = m.document.spot disk.current := heq.trans hname.symm
    rw [hspot]
    simp [Tree.isFolder, hdocument]
  · exact absurd h (hretired.not_prefix_root hm hp)

variable (hu : m.Unforeseen r disk)
include hu

/-- The path of the new folder leads to it in the end. -/
theorem Disposal.locate_end (dp : Disposal rc)
    (h : (m.regenerate rc.workspace (Document.rootOf m.document)).on dp.disk =
      (.ok workflows, d)) : d.locate o.plan.newFolder = .ok o.newSpot := by
  obtain ⟨made, hmoved⟩ := pr.moved hm hc hp hu
  obtain ⟨pl, hplace, hlocation⟩ := hmoved.place
  obtain ⟨last, hlast⟩ := View.name_of_location? hlocation
  have hcurrent : d.current = made.current := by
    have hregenerate := hm.through_regenerate rc.workspace (Document.rootOf m.document) dp.disk
    rw [h] at hregenerate
    rw [hregenerate.current, (dp.through hm hc).current, rc.current hm hc, hmoved.current]
  have hkeep : ∀ s ∈ trail (o.plan.newFolder.origin made.current) o.plan.newFolder.segments,
      made.tree.isFolder s → d.tree.isFolder s := by
    rw [hmoved.current]
    intro s hs hfolder
    have hwithin : Within disk.current o.plan.newFolder s :=
      Visits.within (.inl hs) fun _ hn => .inl hn
    obtain ⟨hstaging, hholder⟩ := hu.apart hm o hwithin
    exact dp.isFolder_end hm hc h (hmoved.isFolder_of_made hfolder hstaging) hholder
  have hfolder : d.tree.isFolder o.newSpot := by
    have htarget := (pr.promoted_disk hm hc).isFolder_target (rt.isFolder_staging hm hc hp)
    exact dp.isFolder_end hm hc h htarget (hu.apart hm o (within_newSpot o)).2
  have hplaced := View.place_mono hplace hlast hcurrent hkeep
  exact View.locate_of_place hplaced hlocation hfolder

/-- The staged files are in the new folder once the old ones are deleted. -/
theorem Disposal.get?_new (dp : Disposal rc) (k : Location) :
    dp.disk.tree.get? (o.newSpot ++ k) = st.disk.tree.get? (m.stagingSpot disk ++ k) := by
  have hdocument : o.newSpot ++ k ≠ m.documentSpot disk := by
    intro heq
    apply rc.not_prefix_document hm hc hp
    rw [← heq]
    exact List.prefix_append _ k
  calc dp.disk.tree.get? (o.newSpot ++ k)
      = rc.disk.tree.get? (o.newSpot ++ k) :=
        dp.get?_other hm hc fun _ => pr.holder_apart hm hc hp hu k
    _ = pr.disk.tree.get? (o.newSpot ++ k) := rc.get?_other hm hc hp hu hdocument
    _ = st.disk.tree.get? (m.stagingSpot disk ++ k) := pr.get?_new hm hc hp hu k

/-- The staged files are in the new folder in the end. -/
theorem Disposal.new_end (dp : Disposal rc)
    (h : (m.regenerate rc.workspace (Document.rootOf m.document)).on dp.disk = (.ok workflows, d))
    {k : Location} (hk : o.newSpot ++ k ≠ m.workflowSpot disk) :
    d.tree.get? (o.newSpot ++ k) = st.disk.tree.get? (m.stagingSpot disk ++ k) ∨
      st.disk.tree.get? (m.stagingSpot disk ++ k) = none ∧
        d.tree.get? (o.newSpot ++ k) = some .folder ∧ o.newSpot ++ k <+: m.workflowSpot disk := by
  rw [← dp.get?_new hm hc hp hu]
  exact dp.get?_end hm hc hp hu h hk

/-- What is neither a place of the switch nor on the way to the workflow is in the end as it was
before the workflow was regenerated. -/
theorem Disposal.get?_end_of_not_prefix (dp : Disposal rc)
    (h : (m.regenerate rc.workspace (Document.rootOf m.document)).on dp.disk = (.ok workflows, d))
    {l : Location} (hl : ¬ l <+: m.workflowSpot disk) (k : Location) :
    d.tree.get? (l ++ k) = dp.disk.tree.get? (l ++ k) := by
  have hbelow : ¬ l ++ k <+: m.workflowSpot disk := fun hk =>
    hl ((List.prefix_append l k).trans hk)
  have hne : l ++ k ≠ m.workflowSpot disk := by
    rintro heq
    exact hbelow (heq ▸ List.prefix_rfl)
  rcases dp.get?_end hm hc hp hu h hne with hsame | ⟨-, -, hk⟩
  · exact hsame
  · exact absurd hk hbelow

theorem Disposal.staging_end (dp : Disposal rc)
    (h : (m.regenerate rc.workspace (Document.rootOf m.document)).on dp.disk = (.ok workflows, d))
    (k : Location) : d.tree.get? (m.stagingSpot disk ++ k) = none := by
  have habsent := (st.staged hm hc).2.vacant.absent
  have hdocument : m.stagingSpot disk ++ k ≠ m.documentSpot disk := by
    intro heq
    apply o.not_prefix_documentSpot hm habsent
    rw [← heq]
    exact List.prefix_append _ k
  calc d.tree.get? (m.stagingSpot disk ++ k)
      = dp.disk.tree.get? (m.stagingSpot disk ++ k) :=
        dp.get?_end_of_not_prefix hm hc hp hu h (own_not_prefix_workflowSpot hm hp).1 k
    _ = rc.disk.tree.get? (m.stagingSpot disk ++ k) :=
        dp.get?_other hm hc fun _ => (own_apart hm hp k).2
    _ = pr.disk.tree.get? (m.stagingSpot disk ++ k) := rc.get?_other hm hc hp hu hdocument
    _ = none := pr.get?_staging hm hc hp hu k

theorem Disposal.holder_end (dp : Disposal rc)
    (h : (m.regenerate rc.workspace (Document.rootOf m.document)).on dp.disk = (.ok workflows, d))
    (hold : o.old ≠ none) (hleftover : dp.leftover = none) (k : Location) :
    d.tree.get? (m.holderSpot disk ++ k) = none := by
  rw [dp.get?_end_of_not_prefix hm hc hp hu h (own_not_prefix_workflowSpot hm hp).2 k]
  exact dp.get?_holder hm hc hp hu hold hleftover k

/-- Away from the places of the switch the later phases make new folders at most. -/
theorem Disposal.stays_end (dp : Disposal rc)
    (h : (m.regenerate rc.workspace (Document.rootOf m.document)).on dp.disk = (.ok workflows, d))
    {k : Location} (hnew : ¬ o.newSpot <+: k) (hstaging : ¬ m.stagingSpot disk <+: k)
    (hholder : o.old ≠ none → ¬ m.holderSpot disk <+: k) (hdocument : k ≠ m.documentSpot disk)
    (hworkflow : k ≠ m.workflowSpot disk) :
    Stays (rt.disk.tree.get? k) (d.tree.get? k) := by
  have hpromoted : Stays (rt.disk.tree.get? k) (pr.disk.tree.get? k) :=
    (pr.get?_other hm hc hp hu hnew hstaging).imp_right fun ⟨hnone, hfolder, _⟩ => ⟨hnone, hfolder⟩
  have hdisposed : dp.disk.tree.get? k = pr.disk.tree.get? k :=
    (dp.get?_other hm hc hholder).trans (rc.get?_other hm hc hp hu hdocument)
  have hregenerated : Stays (dp.disk.tree.get? k) (d.tree.get? k) :=
    (dp.get?_end hm hc hp hu h hworkflow).imp_right fun ⟨hnone, hfolder, _⟩ => ⟨hnone, hfolder⟩
  rw [hdisposed] at hregenerated
  exact hpromoted.trans hregenerated

/-- A file at a place of the old folder in the end is one of the new files, the workflow or the
document. -/
theorem Disposal.old_end (dp : Disposal rc)
    (h : (m.regenerate rc.workspace (Document.rootOf m.document)).on dp.disk = (.ok workflows, d))
    {folder : Path} (hold : o.old = some folder) {k : Location} {content : Content}
    (hfile : d.tree.get? (folder.spot disk.current ++ k) = some (.file content)) :
    o.newSpot <+: folder.spot disk.current ++ k ∨
      folder.spot disk.current ++ k = m.workflowSpot disk ∨
      folder.spot disk.current ++ k = m.documentSpot disk ∧
        disk.tree.isFolder (folder.spot disk.current) = false := by
  by_cases hnew : o.newSpot <+: folder.spot disk.current ++ k
  · exact .inl hnew
  by_cases hworkflow : folder.spot disk.current ++ k = m.workflowSpot disk
  · exact .inr (.inl hworkflow)
  by_cases hdocument : folder.spot disk.current ++ k = m.documentSpot disk
  · refine .inr (.inr ⟨hdocument, rc.isFolder_old hm hc hp hold ?_⟩)
    rw [← hdocument]
    exact List.prefix_append _ k
  exfalso
  obtain ⟨hstaging, hholder⟩ := rt.old_apart hm hc hp hold k
  have hstays := dp.stays_end hm hc hp hu h hnew hstaging (fun _ => hholder) hdocument hworkflow
  have hretired := rt.retired_some hm hc hold
  have hbefore := hstays.file hfile
  rw [hretired.get?_old (List.prefix_append _ k) hholder] at hbefore
  cases hbefore

/-- What is at no place of the switch stays. -/
theorem Disposal.others_end (dp : Disposal rc)
    (h : (m.regenerate rc.workspace (Document.rootOf m.document)).on dp.disk = (.ok workflows, d))
    {k : Location} (hold : ∀ folder ∈ o.old, ¬ folder.spot disk.current <+: k)
    (hnew : ¬ o.newSpot <+: k) (hdocument : k ≠ m.documentSpot disk)
    (hworkflow : k ≠ m.workflowSpot disk)
    (hleftover : dp.leftover ≠ none → ¬ m.holderSpot disk <+: k) :
    Stays (disk.tree.get? k) (d.tree.get? k) := by
  have hstaged := (st.staged hm hc).2
  by_cases hstaging : m.stagingSpot disk <+: k
  · obtain ⟨k, rfl⟩ := hstaging
    rw [dp.staging_end hm hc hp hu h, Tree.get?_append_of_none hstaged.vacant.absent]
    exact .inl rfl
  by_cases hholder : o.old ≠ none ∧ m.holderSpot disk <+: k
  · obtain ⟨hne, k, rfl⟩ := hholder
    have hnone : dp.leftover = none := by
      by_contra hsome
      exact hleftover hsome (List.prefix_append _ k)
    obtain ⟨folder, -, hretired⟩ := rt.exists_retired hm hc hne
    rw [dp.holder_end hm hc hp hu h hne hnone, Tree.get?_append_of_none hretired.absent]
    exact .inl rfl
  have hapart : o.old ≠ none → ¬ m.holderSpot disk <+: k := fun hne hbelow => hholder ⟨hne, hbelow⟩
  have hsame : rt.disk.tree.get? k = disk.tree.get? k := by
    rw [(rt.retired_eq hm hc).get?_other hold fun folder hfolder => hapart fun hnone => by
      rw [hnone] at hfolder
      cases hfolder]
    exact hstaged.same k hstaging
  have hstays := dp.stays_end hm hc hp hu h hnew hstaging hapart hdocument hworkflow
  rwa [hsame] at hstays

omit hp hu in
/-- What is left over is the folder for the old files. -/
theorem Disposal.kept (dp : Disposal rc) :
    ∀ folder ∈ dp.leftover, o.old ≠ none ∧ folder = m.holderPath disk.toView := by
  intro folder hfolder
  rcases dp.how with ⟨-, hnone, -⟩ | ⟨holder, hretired, ⟨-, hnone⟩ | ⟨e, -, hsome⟩⟩
  · rw [hnone] at hfolder
    cases hfolder
  · rw [hnone] at hfolder
    cases hfolder
  · rw [hsome] at hfolder
    obtain rfl : holder = folder := Option.some.inj hfolder
    have heq := rt.retired_eq hm hc
    rw [hretired] at heq
    refine ⟨fun hnone => ?_, heq.holder_eq⟩
    rw [hnone] at heq
    cases heq

theorem Disposal.settled (dp : Disposal rc)
    (h : (m.regenerate rc.workspace (Document.rootOf m.document)).on dp.disk = (.ok workflows, d))
    (hjobs : Workflow.jobs rc.workspace ≠ []) :
    Settled o st.disk rc.workspace dp.leftover d where
  located := dp.locate_end hm hc hp hu h
  new k hk := dp.new_end hm hc hp hu h hk
  old folder hold k content hfile := dp.old_end hm hc hp hu h hold hfile
  staging k := dp.staging_end hm hc hp hu h k
  holder hold hleftover k := dp.holder_end hm hc hp hu h hold hleftover k
  kept := dp.kept hm hc
  document := by
    have hregenerate := dp.get?_end hm hc hp hu h (rc.documentSpot_ne_workflowSpot hm hc)
    rw [dp.get?_document hm hc] at hregenerate
    rcases hregenerate with hsame | ⟨hnone, -⟩
    · exact hsame
    · cases hnone
  workflow := (dp.workflow_eq hm hc h hjobs).2
  others k hold hnew hdocument hworkflow hleftover :=
    dp.others_end hm hc hp hu h hold hnew hdocument hworkflow hleftover

end Tree

/-! ### The report -/

/-- The files that were promoted are the staged ones, seen from the new folder. -/
theorem Staging.promoted_eq (hm : m.Lawful) (hc : m.Confined r disk) (st : Staging o)
    (target : Path) {inner : List Path} (hinner : ∀ p ∈ inner, p.IsInward)
    (hfiles : st.files = inner.map st.folder.join) :
    promoted st.folder target st.files = inner.map target.join := by
  have hpath : st.folder = (fromTop disk.toView (Document.rootOf m.document)).child m.stagingName :=
    (st.staged hm hc).1
  have hname := hm.isName_stagingName
  have habsolute : st.folder.isAbsolute := by
    rw [hpath, Path.child, Path.isAbsolute_join _ (Path.isAbsolute_name hname)]
    exact isAbsolute_fromTop _ _
  obtain ⟨xs, ys, -, -, hsegs⟩ := Path.segments_join
    (fromTop disk.toView (Document.rootOf m.document)) (Path.isAbsolute_name hname)
  rw [Path.segments_name hname, ← Path.child, ← hpath] at hsegs
  have hlast : Path.isIdle m.stagingName = false := by
    obtain ⟨hempty, hdot, -⟩ := hname
    simp [Path.isIdle, hempty, hdot]
  rw [promoted, hfiles, List.filterMap_map, List.filterMap_eq_map_iff_forall_eq_some]
  intro p hp
  rw [Function.comp_apply, (hinner p hp).below?_join habsolute hsegs hlast]
  rfl

/-- What a switch did that is completed, with the project that it recorded. -/
structure Completed {st : Staging o} {rt : Retirement st} {pr : Promotion rt} (rc : Recording pr)
    (p' : Project) (report : Report) (d : Disk) : Prop where
  /-- The saved workspace is the loaded one but for one project, and that project differs in its
  deploy spec and the note of its deployer only. -/
  updated : Updated o.workspace r.project p' rc.workspace
  redeployed : Redeployed o.project o.deployer o.spec p'
  defaultConfiguration :
    o.spec.defaultConfiguration = o.project.deploy.bind (·.defaultConfiguration)
  /-- The spec has the config path that the recorded project resolves to. -/
  configPath :
    o.spec.options.get? Settings.configPathKey = some (.text (Settings.configPathOf p'))
  planned : report.configFolder = o.plan.newFolder
  resolved : report.configFolder =
    ((Document.rootOf m.document).child p'.root).child (Settings.configPathOf p')
  removed : report.removed = o.old
  /-- The files that are reported are the staged ones in their order, in the new folder. -/
  written : ∃ inner : List Path, (∀ p ∈ inner, p.IsInner) ∧
    st.files = inner.map st.folder.join ∧ report.written = inner.map report.configFolder.join
  workflows : report.workflows = [Workflow.fileIn (Document.rootOf m.document)]
  settled : Settled o st.disk rc.workspace report.leftover d

/-- A switch that reports to be done has done what it is to do. -/
theorem completed_switch (hm : m.Lawful) (hc : m.Confined r disk) (hp : disk.toView.Proper)
    (hu : m.Unforeseen r disk) (hload : m.LoadsNormal) (hnames : m.NamesInside r disk)
    {report : Report} (h : (run m r disk).1 = .ok (.switched report)) :
    ∃ (o : Opening m r disk) (st : Staging o) (rt : Retirement st) (pr : Promotion rt)
      (rc : Recording pr) (p' : Project), (run m r disk).2.saved = some rc.disk ∧
        Completed rc p' report (run m r disk).2.disk := by
  have hcourse := course m r disk
  rw [h] at hcourse
  generalize (run m r disk).2 = s at hcourse ⊢
  cases hcourse with
  | done o _ st rt pr rc dp workflows d hregenerate =>
    obtain ⟨p', hredeployed, hupdated, hsorted⟩ := rc.recorded_eq hload
    have hjobs := jobs_ne_nil hsorted hupdated.project
      (declaredDeployer_of_noted hredeployed.noted)
    obtain ⟨inner, hinner, hfiles⟩ := hnames o st.folder st.made st.disk st.files st.making
      st.generating
    have hroot : p'.root = o.project.root := by
      rw [← hredeployed.rest]
    have hpath := o.configPathOf_eq hredeployed.deploy
    refine ⟨o, st, rt, pr, rc, p', by simp, ?_⟩
    exact {
      updated := hupdated
      redeployed := hredeployed
      defaultConfiguration := rfl
      configPath := by rw [hpath, o.get?_configPath]
      planned := rfl
      resolved := by
        rw [hroot, hpath]
        rfl
      removed := rfl
      written := ⟨inner, hinner, hfiles,
        st.promoted_eq hm hc _ (fun p hp => (hinner p hp).isInward) hfiles⟩
      workflows := (dp.workflow_eq hm hc hregenerate hjobs).1
      settled := dp.settled hm hc hp hu hregenerate hjobs }

def Small.report : Report :=
  { project := "web"
    origin := some "helm"
    target := .cloudRun
    configFolder := ⟨"./web/deploy"⟩
    removed := some ⟨"./web/deploy"⟩
    leftover := none
    written := [⟨"./web/deploy/service.yaml"⟩]
    workflows := [⟨"./.github/workflows/keel-deploy.yml"⟩] }

/-- In a small workspace a switch replaces the old files. -/
theorem small_switch_completes :
    (run (Small.means {}) Small.request Small.start).1 = .ok (.switched Small.report) ∧
      ∃ (o : Opening (Small.means {}) Small.request Small.start) (st : Staging o)
        (rt : Retirement st) (pr : Promotion rt) (rc : Recording pr) (p' : Project),
        (run (Small.means {}) Small.request Small.start).2.saved = some rc.disk ∧
          Completed rc p' Small.report (run (Small.means {}) Small.request Small.start).2.disk := by
  have hend : (run (Small.means {}) Small.request Small.start).1 =
      .ok (.switched Small.report) := by
    decide +kernel
  exact ⟨hend, completed_switch (Small.lawful {}) (Small.confined {}) (by decide)
    (Small.unforeseen {}) (loadsNormal_standard _ _ _ _) (Small.namesInside {}) hend⟩

end Rollout.Switch

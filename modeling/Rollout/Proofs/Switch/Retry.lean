import Mathlib.Tactic.Common
import Rollout.Proofs.Switch.Halted
import Rollout.Proofs.Workspace.Noted

/-!
# Retrying a switch that failed

What a second switch for the same request comes to, by how the first one failed
(`failed_switch_retried`). A failure that comes early has done nothing. One that comes once the old
folder is moved aside leaves what the second switch takes up, unless the new folder is taken by
then. And where only the workflow is missing the second switch has nothing to do, so that it stays
missing (`unwritten_workflow_not_retried`).
-/

namespace Rollout.Switch

open Disk DiskTask Location

variable {first again : Means} {r : Request} {disk d : Disk} {o₁ : Opening first r disk}
  {o : Opening again r disk}

/-! ### Two switches for one request -/

/-- What is loaded is the document. -/
def Means.Reads (m : Means) : Prop :=
  ∀ d w d', m.load.on d = (.ok w, d') → (Document.load m.document).on d = (.ok w, d')

theorem Means.reads_of_loadsDocument (h : first.LoadsDocument) : first.Reads :=
  fun _ _ _ hload => (h : first.load = _) ▸ hload

theorem Means.Reads.loadsNormal (h : first.Reads) : first.LoadsNormal := by
  intro d w d' hload
  obtain ⟨content, -, hread⟩ := Document.read_of_load (h d w d' hload)
  exact Document.normal_of_read hread

/-- The names that a switch gives to its own folders. -/
def Means.ownNames (m : Means) : List String := [m.stagingName, m.retiredName]

/-- Two switches find the same. -/
structure Opening.Same (o₁ : Opening first r disk) (o : Opening again r disk) : Prop where
  document : first.document = again.document
  deployer : o₁.deployer = o.deployer
  workspace : o₁.workspace = o.workspace
  project : o₁.project = o.project
  base : o₁.base = o.base

theorem Opening.same (hread : first.Reads) (hs : again.Sound)
    (hdocument : first.document = again.document) (o₁ : Opening first r disk)
    (o : Opening again r disk) : o₁.Same o := by
  have hloading := hread _ _ _ o₁.loading
  rw [hdocument, ← hs.load] at hloading
  obtain ⟨hdeployer, hworkspace, hbase, hproject⟩ := o.found_eq o₁.read hloading o₁.found
  exact ⟨hdocument, hdeployer, hworkspace, hproject, hbase⟩

namespace Opening.Same

variable (h : o₁.Same o)
include h

theorem plan : o₁.plan = o.plan := by
  rw [Opening.plan, h.document, h.project]
  rfl

theorem old : o₁.old = o.old := by
  rw [Opening.old, h.plan, h.base]
  rfl

theorem spec : o₁.spec = o.spec := by
  rw [Opening.spec, h.workspace, h.project, h.deployer, h.plan]
  rfl

theorem files : o₁.files = o.files := by
  rw [Opening.files, h.deployer, h.project, h.spec]
  rfl

theorem cleared : o₁.cleared = o.cleared := by
  rw [Opening.cleared, h.old]
  rfl

theorem newSpot : o₁.newSpot = o.newSpot := by
  rw [Opening.newSpot, h.plan]
  rfl

theorem onWay {k : Location} : o₁.OnWay k ↔ o.OnWay k := by
  rw [Opening.OnWay, h.plan]
  rfl

theorem rootSpot : first.rootSpot disk = again.rootSpot disk := by
  rw [Means.rootSpot, h.document]
  rfl

theorem documentSpot : first.documentSpot disk = again.documentSpot disk := by
  rw [Means.documentSpot, h.document]
  rfl

theorem workflowSpot : first.workflowSpot disk = again.workflowSpot disk := by
  rw [Means.workflowSpot, h.document]
  rfl

theorem keysStay (hkeys : KeysStay again r disk) : KeysStay first r disk := by
  intro o₂ key hkey
  obtain rfl : o₂ = o₁ := Subsingleton.elim _ _
  rw [h.deployer, h.project, h.spec] at hkey
  exact hkeys o key hkey

theorem unforeseen (hnew : ∀ name ∈ first.ownNames, o.IsNew name) : first.Unforeseen r disk := by
  intro o₂ name hname
  obtain rfl : o₂ = o₁ := Subsingleton.elim _ _
  rw [h.plan]
  exact (hnew name hname).unforeseen

theorem not_beside (hm : first.Lawful) (hp : disk.toView.Proper) {k : Location}
    (hk : ¬ again.Beside disk first.ownNames k) :
    ¬ first.stagingSpot disk <+: k ∧ ¬ first.holderSpot disk <+: k := by
  rw [stagingSpot_eq hm hp, holderSpot_eq hm hp, h.rootSpot]
  exact ⟨fun hbelow => hk ⟨_, by simp [Means.ownNames], hbelow⟩,
    fun hbelow => hk ⟨_, by simp [Means.ownNames], hbelow⟩⟩

end Opening.Same

/-- What one switch opens with another one does. -/
theorem Opening.exists_again (hread : first.Reads) (hs : again.Sound)
    (hdocument : first.document = again.document) (o₁ : Opening first r disk) :
    ∃ o : Opening again r disk, o₁.Same o := by
  have hloading := hread _ _ _ o₁.loading
  rw [hdocument, ← hs.load] at hloading
  have hfree := o₁.free
  rw [hdocument] at hfree
  let o : Opening again r disk := ⟨o₁.deployer, o₁.workspace, o₁.project, o₁.base, o₁.read,
    hloading, o₁.found, o₁.inactive, hfree⟩
  exact ⟨o, o₁.same hread hs hdocument o⟩

theorem Means.Reads.keysStay (hread : first.Reads) (hs : again.Sound)
    (hdocument : first.document = again.document) (hkeys : KeysStay again r disk) :
    KeysStay first r disk := by
  intro o₁ key hkey
  obtain ⟨o, hsame⟩ := o₁.exists_again hread hs hdocument
  exact hsame.keysStay hkeys o₁ key hkey

/-! ### Where the first switch halts -/

section Halts

variable (hm : first.Lawful) (hc : first.Confined r disk) (hp : disk.toView.Proper)
  {st : Staging o₁} {rt : Retirement st}
include hm hc

/-- A move to the new folder that fails makes folders on the way to it at most. -/
theorem Retirement.grows_unpromoted (rt : Retirement st)
    (htext : o₁.plan.newFolder.text ≠ "") {last : String}
    (hlast : o₁.plan.newFolder.last? = some last) (hidle : Path.isIdle last = false)
    {e : FileError}
    (hmove : (first.rename (rt.renames + 1) st.folder o₁.plan.newFolder).on rt.disk =
      (.error e, d)) : d.current = disk.current ∧ Tree.Grows o₁.OnWay rt.disk.tree d.tree := by
  have hcurrent := rt.current hm hc
  have hgrows := grows_makeFoldersTo htext hlast hidle rt.disk
  have hmade := (through_makeFoldersTo o₁.plan.newFolder rt.disk).current
  rw [hcurrent] at hgrows hmade
  have hcases : d = rt.disk ∨ d = ((makeFoldersTo o₁.plan.newFolder).on rt.disk).2 := by
    rcases hm.rename (rt.renames + 1) st.folder o₁.plan.newFolder rt.disk with
      heq | ⟨_, d', heq, hd⟩
    · rw [hmove] at heq
      rcases Disk.rename_cases st.folder o₁.plan.newFolder rt.disk rfl rfl rfl with
        ⟨_, heq'⟩ | ⟨heq', -⟩ | ⟨heq', -⟩
      · exact .inr (congrArg Prod.snd (heq.trans heq'))
      · cases heq.trans heq'
      · cases heq.trans heq'
    · obtain rfl : d = d' := congrArg Prod.snd (hmove.symm.trans heq)
      exact hd
  rcases hcases with rfl | rfl
  · exact ⟨hcurrent, .refl _ _⟩
  · exact ⟨hmade, hgrows⟩

include hp

/-- A document that cannot be saved leaves what was there. -/
theorem Promotion.get?_unsaved (ht : first.Tidy) (hu : first.Unforeseen r disk)
    (pr : Promotion rt) {w : Workspace} {e : StoreError}
    (hsave : (first.save w).on pr.disk = (.error e, d)) (k : Location) :
    d.tree.get? k = pr.disk.tree.get? k := by
  rcases ht.save _ _ _ _ hsave k with heq | ⟨hvisits, hnone, -⟩
  · exact heq
  · rw [(pr.promoted_disk hm hc).current, rt.current hm hc] at hvisits
    have hfolder := pr.isFolder_root hm hc hp hu (onRootPath_of_visits hp hvisits)
    rw [Tree.get?_of_isFolder hfolder] at hnone
    cases hnone

/-- The path of the new folder leads to it once the files are there. -/
theorem Promotion.locate_new (hu : first.Unforeseen r disk) (pr : Promotion rt) :
    pr.disk.locate o₁.plan.newFolder = .ok o₁.newSpot ∧ pr.disk.tree.isFolder o₁.newSpot := by
  obtain ⟨made, hmoved⟩ := pr.moved hm hc hp hu
  obtain ⟨pl, hplace, hlocation⟩ := hmoved.place
  obtain ⟨last, hlast⟩ := View.name_of_location? hlocation
  have hcurrent : pr.disk.current = made.current := by rw [hmoved.after]; rfl
  have hkeep : ∀ s ∈ trail (o₁.plan.newFolder.origin made.current) o₁.plan.newFolder.segments,
      made.tree.isFolder s → pr.disk.tree.isFolder s := by
    rw [hmoved.current]
    intro s hs hfolder
    have hwithin : Within disk.current o₁.plan.newFolder s :=
      Visits.within (.inl hs) fun _ hn => .inl hn
    exact hmoved.isFolder_of_made hfolder (hu.apart hm o₁ hwithin).1
  have htarget : pr.disk.tree.isFolder o₁.newSpot :=
    (pr.promoted_disk hm hc).isFolder_target (rt.isFolder_staging hm hc hp)
  exact ⟨View.locate_of_place (View.place_mono hplace hlast hcurrent hkeep) hlocation htarget,
    htarget⟩

theorem Promotion.locate_unsaved (hu : first.Unforeseen r disk) (ht : first.Tidy)
    (pr : Promotion rt) {w : Workspace} {e : StoreError}
    (hsave : (first.save w).on pr.disk = (.error e, d)) : d.current = disk.current ∧
      d.locate o₁.plan.newFolder = .ok o₁.newSpot ∧ d.tree.isFolder o₁.newSpot := by
  have hget := pr.get?_unsaved hm hc hp ht hu hsave
  have hcurrent := (pr.promoted_disk hm hc).current.trans (rt.current hm hc)
  have hcurrent' := (hm.through_save_error hsave).current.trans hcurrent
  obtain ⟨hlocate, hfolder⟩ := pr.locate_new hm hc hp hu
  have halike : View.Alike Nowhere disk.current pr.disk.toView d.toView :=
    ⟨hcurrent, hcurrent', fun k _ => hget k⟩
  refine ⟨hcurrent', ?_, ?_⟩
  · rw [halike.locate_eq fun k _ => not_nowhere k]
    exact hlocate
  · rw [Tree.isFolder, hget]
    exact hfolder

/-- A switch whose new files cannot be moved to their place halts with the old folder gone. -/
theorem halted_unpromoted (h : o₁.Same o) (hroom : o.HasRoom) (rt : Retirement st) {e : FileError}
    (hmove : (first.rename (rt.renames + 1) st.folder o₁.plan.newFolder).on rt.disk =
      (.error e, d)) : Halted o first.ownNames False d := by
  obtain ⟨last, hlast, hidle, -⟩ := hroom.room.named
  have htext := hroom.room.text
  rw [← h.plan] at hlast htext
  obtain ⟨hcurrent, hgrows⟩ := rt.grows_unpromoted hm hc htext hlast hidle hmove
  refine ⟨hcurrent, fun k hk _ => ?_, False.elim⟩
  obtain ⟨hstaging, hholder⟩ := h.not_beside hm hp hk
  have hleft := rt.get?_left hm hc hstaging fun _ => hholder
  rw [h.cleared] at hleft
  have hgrown := hgrows k
  rw [hleft, h.onWay] at hgrown
  exact hgrown

/-- A switch whose document cannot be saved halts with the new files at their place. -/
theorem halted_unrecorded (hu : first.Unforeseen r disk) (ht : first.Tidy) (h : o₁.Same o)
    (hroom : o.HasRoom) (pr : Promotion rt) {w : Workspace} {e : StoreError}
    (hsave : (first.save w).on pr.disk = (.error e, d)) :
    Halted o first.ownNames True d := by
  have hget := pr.get?_unsaved hm hc hp ht hu hsave
  obtain ⟨hcurrent, hlocated⟩ := pr.locate_unsaved hm hc hp hu ht hsave
  rw [h.plan, h.newSpot] at hlocated
  refine ⟨hcurrent, fun k hk hout => ?_, fun _ => hlocated⟩
  obtain ⟨hstaging, hholder⟩ := h.not_beside hm hp hk
  replace hout : ¬ o.newSpot <+: k := fun hbelow => hout ⟨trivial, hbelow⟩
  rw [← h.newSpot] at hout
  have haway := pr.get?_away hm hc hp hu hout hstaging
  rw [h.onWay, ← hget] at haway
  rcases haway with ⟨hway, hfolder⟩ | ⟨-, hkept⟩
  · obtain ⟨last, hlast, hidle, hup⟩ := hroom.room.named
    have hclear := hroom.room.clear k ((visits_iff hlast hidle hup).2 (.inl hway))
    rw [hfolder]
    rcases Tree.passable_iff.1 hclear with hnone | hthere
    · exact .inr ⟨hway, hnone, rfl⟩
    · exact .inl (Tree.get?_of_isFolder hthere).symm
  · rw [hkept, rt.get?_left hm hc hstaging fun _ => hholder, h.cleared]
    exact .inl rfl

end Halts

/-! ### Files staged twice -/

section Staged

theorem Staging.written {m : Means} {o : Opening m r disk} (hb : m.Builtin) (st : Staging o) :
    ∃ faults, (writeFiles faults 1 (o.files.map fun file => (st.folder.join file.1, file.2))).on
      st.made = (.ok st.files, st.disk) :=
  st.exists_faults hb

/-- Two switches stage the same files. -/
theorem Staging.get?_same (hm : first.Lawful) (hb : first.Builtin) (hm' : again.Lawful)
    (hs : again.Sound) (hkeys : KeysStay again r disk) (h : o₁.Same o) (st : Staging o₁)
    (st' : Staging o) (k : Location) :
    st'.disk.tree.get? (again.stagingSpot disk ++ k) =
      st.disk.tree.get? (first.stagingSpot disk ++ k) := by
  obtain ⟨faults, hwrite⟩ := st.written hb
  obtain ⟨faults', hwrite'⟩ := st'.written hs.builtin
  rw [h.files] at hwrite
  have hout {m : Means} (hm : m.Lawful) {o : Opening m r disk} (st : Staging o) :
      ∀ s ∈ trail (st.folder.origin disk.current) st.folder.segments,
        ¬ st.folder.spot disk.current <+: s := by
    obtain ⟨hfolder, hvacant, -⟩ := st.made_eq hm
    rw [hfolder]
    exact hvacant.not_prefix
  have hsame := sameBelow_writeFiles (hkeys.isInward o) (hout hm st) (hout hm' st')
    (st.made_current hm) (st'.made_current hm') (fun k => by
      rw [st.spot_folder hm, st'.spot_folder hm', st.get?_made hm, st'.get?_made hm'])
    hwrite hwrite'
  have hget := hsame k
  rw [st.spot_folder hm, st'.spot_folder hm'] at hget
  exact hget

end Staged

/-! ### After the document is saved -/

/-- The document and the new folder are as on another disk, the workflow and the folders to it
aside, and the next switch has nothing to do. -/
structure Unrefreshed (o : Opening again r disk) (reference d : Disk) : Prop where
  document : d.tree.get? (again.documentSpot disk) =
    reference.tree.get? (again.documentSpot disk)
  files : ∀ k, ¬ o.newSpot ++ k <+: again.workflowSpot disk →
    d.tree.get? (o.newSpot ++ k) = reference.tree.get? (o.newSpot ++ k)
  saved : ∃ w, switchedWorkspace o.workspace o.project.name o.deployer o.spec = .ok w ∧
    (Disk.read again.document).on d = (.ok (Document.write w), d)
  outcome : (run again r d).1 = match (again.load.on d).1 with
    | .ok _ => .ok (.alreadyActive o.project.name o.deployer)
    | .error e => .error (.phase .detectOld e.message)
  unchanged : (run again r d).2.disk = d

section Saved

variable {st : Staging o₁} {rt : Retirement st} {pr : Promotion rt} {rc : Recording pr}
  (hm : first.Lawful) (hc : first.Confined r disk) (hp : disk.toView.Proper)
  (hu : first.Unforeseen r disk) (ht : first.Tidy)
include hm hc hp hu ht

/-- A workflow that cannot be written leaves new folders on the way to it at most. -/
theorem Disposal.grows_unrefreshed (dp : Disposal rc) {e : OutputError}
    (h : (first.regenerate rc.workspace (Document.rootOf first.document)).on dp.disk =
      (.error e, d)) :
    d.current = disk.current ∧ Tree.Grows (· <+: first.workflowSpot disk) dp.disk.tree d.tree := by
  have hcurrent : dp.disk.current = disk.current :=
    (dp.through hm hc).current.trans (rc.current hm hc)
  have hregenerate := hm.through_regenerate rc.workspace (Document.rootOf first.document) dp.disk
  rw [h] at hregenerate
  refine ⟨hregenerate.current.trans hcurrent, fun k => ?_⟩
  rcases ht.regenerate _ _ _ _ _ h k with heq | ⟨hvisits, hnone, hfolder⟩
  · exact .inl heq
  · rw [hcurrent] at hvisits
    rcases Workflow.visits_fileIn hvisits with htrail | hbelow
    · have hroot := onRootPath_of_mem_trail hp htrail
      have hthere := dp.isFolder hm hc (pr.isFolder_root hm hc hp hu hroot)
        fun hold => rt.not_prefix_onRootPath hm hc hp hold hroot
      rw [Tree.get?_of_isFolder hthere] at hnone
      cases hnone
    · exact .inr ⟨hbelow, hnone, hfolder⟩

end Saved

/-- Where a switched workspace is saved the next switch finds nothing to do, unless the document
cannot be read any more. -/
theorem run_saved (hm : again.Lawful) (hs : again.Sound) {w : Workspace}
    (hswitched : switchedWorkspace o.workspace o.project.name o.deployer o.spec = .ok w)
    (hread : (Disk.read again.document).on d = (.ok (Document.write w), d)) :
    ((run again r d).1 = match (again.load.on d).1 with
      | .ok _ => .ok (.alreadyActive o.project.name o.deployer)
      | .error e => .error (.phase .detectOld e.message)) ∧ (run again r d).2.disk = d := by
  rcases hload : again.load.on d with ⟨e | loaded, d'⟩
  · obtain rfl : d' = d := by simpa [hload] using hm.load d
    exact run_unloaded o.read hload
  · obtain rfl : d' = d := by simpa [hload] using hm.load d
    obtain ⟨-, content, hopened⟩ := o.read_document hs.loadsDocument
    have hnamed := (Document.normal_of_read hopened).named
    obtain ⟨hname, hupdated⟩ := switchedWorkspace_eq_ok hnamed o.found o.deployer o.spec
    rw [hswitched] at hupdated
    have hproject : w.projects.get? r.project =
        some (switchedProject o.project o.deployer o.spec) := by
      rw [Except.ok.inj hupdated, Dict.get?_insert, if_pos rfl]
    rw [hs.load] at hload
    obtain ⟨text, htext, hback⟩ := Document.read_of_load hload
    obtain rfl : Document.write w = text := by simpa using hread.symm.trans htext
    have hlaid := (Document.laidOut_of_read hopened).switched hswitched
    obtain ⟨p, s, hp, hdeploy, htool⟩ := Document.deployed_of_read hlaid hback hproject rfl
    rw [← hs.load] at hload
    obtain ⟨hresult, hunchanged⟩ := run_active o.read hload (Workspace.project_eq_ok.2 hp)
      (o.deploysWith_of_tool hdeploy htool)
    rw [(Document.normal_of_read hback).named _ _ hp, ← hname] at hresult
    exact ⟨hresult, hunchanged⟩

/-- A switch that cannot regenerate the workflow has done all the rest. -/
theorem unrefreshed_of_error (hm : first.Lawful) (hb : first.Builtin) (ht : first.Tidy)
    (hm' : again.Lawful) (hs : again.Sound) (hp : disk.toView.Proper)
    (hkeys : KeysStay again r disk) (hu : first.Unforeseen r disk) (hu' : again.Unforeseen r disk)
    (h : o₁.Same o) {st : Staging o₁} {rt : Retirement st} {pr : Promotion rt}
    {rc : Recording pr} (dp : Disposal rc) {e : OutputError}
    (herror : (first.regenerate rc.workspace (Document.rootOf first.document)).on dp.disk =
      (.error e, d))
    {st' : Staging o} {rt' : Retirement st'} {pr' : Promotion rt'} {rc' : Recording pr'}
    (dp' : Disposal rc') {workflows : List Path} {reference : Disk}
    (hregenerate : (again.regenerate rc'.workspace (Document.rootOf again.document)).on dp'.disk =
      (.ok workflows, reference)) : Unrefreshed o reference d := by
  have hc := hb.confined_of_keysStay hm (h.keysStay hkeys)
  have hc' := hs.builtin.confined_of_keysStay hm' hkeys
  obtain ⟨hcurrent, hgrows⟩ := dp.grows_unrefreshed hm hc hp hu ht herror
  have hswitched := rc.switched
  rw [h.workspace, h.project, h.deployer, h.spec] at hswitched
  have hsaved : rc'.workspace = rc.workspace := Except.ok.inj (rc'.switched.symm.trans hswitched)
  have hdocument := hgrows.extends _ _ (dp.get?_document hm hc)
  have hread : (Disk.read again.document).on d = (.ok (Document.write rc.workspace), d) := by
    have hfile := (o.read_document hs.loadsDocument).1
    rw [← h.document] at hfile ⊢
    obtain ⟨hcurrent', hread⟩ := dp.read_of_isFile hm hb hfile
    obtain ⟨-, -, hfile⟩ := read_eq_ok.1 hread
    exact read_mono hread (hcurrent.trans hcurrent'.symm)
      (fun s _ hs => hgrows.extends.isFolder hs) ((hgrows.extends _ _ hfile).trans hfile.symm)
  obtain ⟨houtcome, hunchanged⟩ := run_saved hm' hs hswitched hread
  refine ⟨?_, fun k hk => ?_, ⟨_, hswitched, hread⟩, houtcome, hunchanged⟩
  · have hend := dp'.get?_end hm' hc' hp hu' hregenerate
      (rc'.documentSpot_ne_workflowSpot hm' hc')
    rw [dp'.get?_document hm' hc'] at hend
    rw [← h.documentSpot, hdocument, ← hsaved, h.documentSpot]
    rcases hend with hend | ⟨hnone, -⟩
    · exact hend.symm
    · cases hnone
  · have hspot := h.newSpot
    have hkept : d.tree.get? (o.newSpot ++ k) = dp.disk.tree.get? (o.newSpot ++ k) :=
      hgrows.sameOff _ fun hbelow => hk (h.workflowSpot ▸ hbelow)
    have hnew := dp.get?_new hm hc hp hu k
    rw [hspot] at hnew
    rcases dp'.new_end hm' hc' hp hu' hregenerate
      (fun heq => hk (heq ▸ List.prefix_rfl)) with hend | ⟨-, -, hbelow⟩
    · rw [hend, hkept, hnew, Staging.get?_same hm hb hm' hs hkeys h st st' k]
    · exact absurd hbelow hk

/-! ### Every failure -/

/-- Where a switch has halted with the old folder gone, the next one is refused if the new folder is
taken, and ends as it would have otherwise. -/
structure Resumed (o : Opening again r disk) (names : List String) (report : Report) (d : Disk) :
    Prop where
  refused : o.plan.isBlocked d.toView →
    (run again r d).1 = .error (.phase .detectOld (takenMessage o.plan)) ∧
      (run again r d).2.disk = d
  recovered : o.plan.isBlocked d.toView = false → Recovered o names report d

/-- What the next switch comes to, by how the first one failed. -/
def Continued (o : Opening again r disk) (names : List String) (report : Report) (d : Disk) :
    Failure → Prop
  | .inconsistent .. => Resumed o names report d
  | .unrecorded .. =>
    (o.plan.isBlocked d.toView ↔ ¬ o.plan.oldFolder.any (·.same o.plan.newFolder)) ∧
      Resumed o names report d
  | .phase phase _ => phase = .updateWorkflows ∧ Unrefreshed o (run again r disk).2.disk d
  | .workspace _ => False

/-- A switch has failed at a disk and can be done again from there. -/
structure Retried (first again : Means) (r : Request) (disk : Disk) (failure : Failure)
    (d : Disk) : Prop where
  /-- A failure that comes early has done nothing, and the next switch does all. -/
  early : IsEarly (.error failure) → (∀ k, d.tree.get? k = disk.tree.get? k) ∧
    (run again r d).1 = (run again r disk).1 ∧
    ∀ k, (run again r d).2.disk.tree.get? k = (run again r disk).2.disk.tree.get? k
  late : ¬ IsEarly (.error failure) → ∀ (o : Opening again r disk) (report : Report),
    o.Retriable first.ownNames → (run again r disk).1 = .ok (.switched report) →
      Continued o first.ownNames report d failure

/-- A switch that fails late has left what the next one can go on from. -/
theorem Course.continued (hm : first.Lawful) (hb : first.Builtin) (hread : first.Reads)
    (ht : first.Tidy) (hm' : again.Lawful) (hs : again.Sound)
    (hdocument : first.document = again.document) (hp : disk.toView.Proper)
    (hkeys : KeysStay again r disk)
    (hallowed : r.force ∨ ∀ name folder, again.approves name folder)
    {failure : Failure} {s : Progress} (h : Course first r disk (.error failure) s)
    (hlate : ¬ IsEarly (.error failure)) {report : Report} (hr : o.Retriable first.ownNames)
    (href : (run again r disk).1 = .ok (.switched report)) :
    Continued o first.ownNames report s.disk failure := by
  obtain ⟨o', st', rt', pr', rc', dp', workflows, hregenerate, -⟩ := exists_disposal href
  obtain rfl : o' = o := Subsingleton.elim _ _
  have hc := hb.confined_of_keysStay hm (hread.keysStay hs hdocument hkeys)
  have hc' := hs.builtin.confined_of_keysStay hm' hkeys
  have hroom := (rt'.rename_ok_iff hm' hc' hp (unforeseen_of_isNew hr.fresh)).1
    (congrArg Prod.fst (pr'.renamed hm' hc'))
  have hready := hr.ready hm' hc' hp rt'
  have resumed {placed : Prop} {d : Disk} (hhalted : Halted o' first.ownNames placed d) :
      Resumed o' first.ownNames report d :=
    ⟨hhalted.refused hready hroom hm' hs, fun hfree =>
      hhalted.recovered hready hm' hs hp hkeys hfree hallowed href⟩
  have foreseen (o₁ : Opening first r disk) : first.Unforeseen r disk :=
    (o₁.same hread hs hdocument o').unforeseen fun name hname => hr.fresh name (by simp [hname])
  cases h with
  | unread | unloaded | unknown | blocked | unstaged | ungenerated | unheld | unmoved | lost =>
    simp [IsEarly] at hlate
  | unpromoted o₁ h st rt e d hmove =>
    rw [Progress.tellFailure_disk, Progress.move_disk]
    exact resumed (halted_unpromoted hm hc hp (o₁.same hread hs hdocument o') hroom rt hmove)
  | unrecorded o₁ h st rt pr w e d hswitch hsave =>
    rw [Progress.tellFailure_disk, Progress.move_disk]
    have hhalted := halted_unrecorded hm hc hp (foreseen o₁) ht
      (o₁.same hread hs hdocument o') hroom pr hsave
    refine ⟨?_, resumed hhalted⟩
    simp [Plan.isBlocked, hhalted.exists?_newFolder trivial]
  | unrefreshed o₁ h st rt pr rc dp e d hfailed =>
    rw [Progress.tellFailure_disk, Progress.move_disk]
    exact ⟨rfl, unrefreshed_of_error hm hb ht hm' hs hp hkeys (foreseen o₁)
      (unforeseen_of_isNew hr.fresh) (o₁.same hread hs hdocument o') dp hfailed dp' hregenerate⟩

/-- A switch that failed can be done again. -/
theorem failed_switch_retried (hm : first.Lawful) (hb : first.Builtin) (hread : first.Reads)
    (ht : first.Tidy) (hm' : again.Lawful) (hs : again.Sound)
    (hdocument : first.document = again.document) (hp : disk.toView.Proper)
    (hkeys : KeysStay again r disk)
    (hallowed : r.force ∨ ∀ name folder, again.approves name folder)
    {failure : Failure} (hfail : (run first r disk).1 = .error failure) :
    Retried first again r disk failure (run first r disk).2.disk := by
  have h := course first r disk
  rw [hfail] at h
  refine ⟨fun hearly => ?_, fun hlate o report hr href =>
    h.continued hm hb hread ht hm' hs hdocument hp hkeys hallowed hlate hr href⟩
  have hc := hb.confined_of_keysStay hm (hread.keysStay hs hdocument hkeys)
  obtain ⟨hthrough, hget⟩ := h.restored hm hc
    (h.kept_of_early hearly (.inl hread.loadsNormal.loadsNamed))
  obtain ⟨hresult, hend⟩ := run_alike (hs.steady disk.current) r
    ⟨rfl, hthrough.current, fun k _ => hget k⟩
  exact ⟨hget, hresult, fun k => hend.disk.same k (not_nowhere k)⟩

/-! ### A refused move, and a workflow that cannot be written -/

namespace Small

/-- The means of a switch that comes after one in the small workspace. -/
def later : Means := .standard ⟨"keel.json"⟩ "1cYd8Z" fun _ _ => false

/-- The workflow cannot be written. -/
def unwritable : Faults := { workflowWrites := .nth 1 }

theorem lawful_later : later.Lawful :=
  lawful_applyTo {} ⟨"keel.json"⟩ (by decide : '/' ∉ "1cYd8Z".toList) fun _ _ => false

theorem keysStay_later : KeysStay later request start :=
  keysStay_of_isName fun o =>
    o.of_loaded (P := fun w p => ∀ name ∈ environmentsOf w p, Path.IsName name) (by decide +kernel)

theorem plan_later (o : Opening later request start) :
    o.plan.oldFolder = some ⟨"./web/deploy"⟩ ∧ o.plan.newFolder = ⟨"./web/deploy"⟩ :=
  o.of_loaded (P := fun _ p =>
    (planFor (Document.rootOf ⟨"keel.json"⟩) p request).oldFolder = some ⟨"./web/deploy"⟩ ∧
      (planFor (Document.rootOf ⟨"keel.json"⟩) p request).newFolder = ⟨"./web/deploy"⟩)
    (by decide +kernel)

theorem retriable_later (f : Faults) (o : Opening later request start) :
    o.Retriable (means f).ownNames := by
  obtain ⟨hold, hnew⟩ := plan_later o
  have hnames : later.stagingName :: later.retiredName :: (means f).ownNames =
      ["stage-1cYd8Z", "retired-1cYd8Z", "stage-0aZb9X", "retired-0aZb9X"].map (".keel-" ++ ·) := by
    change later.stagingName :: later.retiredName :: (means {}).ownNames = _
    decide
  have unused : ∀ rest ∈ ["stage-1cYd8Z", "retired-1cYd8Z", "stage-0aZb9X", "retired-0aZb9X"],
      start.tree.get? (later.rootSpot start ++ [".keel-" ++ rest]) = none ∧
        ".keel-" ++ rest ∉ start.current ∧
        ".keel-" ++ rest ∉ (Path.mk "./web/deploy").segments := by
    decide
  have fresh : ∀ name ∈ later.stagingName :: later.retiredName :: (means f).ownNames,
      (∃ rest, name = ".keel-" ++ rest) ∧
        start.tree.get? (later.rootSpot start ++ [name]) = none ∧ name ∉ start.current ∧
        name ∉ (Path.mk "./web/deploy").segments := by
    rw [hnames, List.forall_mem_map]
    exact fun rest hrest => ⟨⟨rest, rfl⟩, unused rest hrest⟩
  refine ⟨fun name hname => ?_, ?_, ?_, ?_, fun hnone => ?_⟩
  · obtain ⟨hown, habsent, hcurrent, hsegments⟩ := fresh name hname
    exact ⟨hown, habsent, hcurrent, hnew ▸ hsegments⟩
  · exact (by decide : later.stagingName ∉ (means {}).ownNames ∧
      later.retiredName ∉ (means {}).ownNames)
  · rw [hold]
    rintro _ ⟨⟩ name hname
    exact (fresh name (List.mem_cons_of_mem _ (List.mem_cons_of_mem _ hname))).2.2.2
  · rw [hold]
    rintro _ ⟨⟩ s ((hs | rfl) | hs | rfl)
    · revert s
      decide
    · decide
    · revert s
      decide
    · decide
  · unfold Opening.old Plan.existing? at hnone
    rw [hold, o.base_eq lawful_later] at hnone
    exact absurd hnone (by decide)

theorem later_switches : (run later request start).1 = .ok (.switched report) := by
  decide +kernel

/-- What a later switch saves is loaded as it was. -/
theorem load_later (o : Opening later request start) {w : Workspace} {d : Disk}
    (hw : switchedWorkspace o.workspace o.project.name o.deployer o.spec = .ok w)
    (hread : (Disk.read later.document).on d = (.ok (Document.write w), d)) :
    later.load.on d = (.ok w, d) := by
  have hdeployer : o.deployer = .cloudRun :=
    Except.ok.inj (o.read.symm.trans (Deployer.read_id .cloudRun))
  have hspec : o.spec = specFor o.workspace o.project .cloudRun request o.plan.configPath :=
    hdeployer ▸ rfl
  obtain ⟨hfits, hf⟩ := o.of_loaded (P := fun w p =>
    let spec := specFor w p .cloudRun request
      (planFor (Document.rootOf later.document) p request).configPath
    Document.Fits spec ∧ ∀ w' ∈ (switchedWorkspace w p.name .cloudRun spec).toOption,
      (Document.toJson w').Faithful) (by decide +kernel)
  have hreadable := o.readable_spec (fun e he => by cases he)
  obtain ⟨-, content, hopened⟩ := o.read_document (sound_standard _ _ _).loadsDocument
  rw [hdeployer, hspec] at hw
  rw [hspec] at hreadable
  have hback : Document.read later.document (Document.write w) = .ok w :=
    (Document.read_write_switched hopened hw hreadable (hf w (congrArg Except.toOption hw)) _).trans
      (if_pos hfits)
  have hload : later.load.on d =
      ((Document.read later.document (Document.write w)).mapError .invalid, d) :=
    Document.on_load_of_read hread
  rw [hload, hback]
  rfl

/-- The second move is refused. -/
def unplaced : Failure :=
  .inconsistent "web" ⟨"/w/./.keel-stage-0aZb9X"⟩ (some ⟨"/w/./.keel-retired-0aZb9X"⟩) "I/O error"

/-- The workflow is refused. -/
def unwritten : Failure :=
  .phase .updateWorkflows ("failed to write ./.github/workflows/keel-deploy.yml: " ++
    "Permission denied: ./.github/workflows/keel-deploy.yml")

end Small

/-- A switch whose new files did not reach their place ends at the second attempt as it would have
at the first. -/
theorem refused_promotion_retried :
    (run (Small.means (Small.refusing 2)) Small.request Small.start).1 = .error Small.unplaced ∧
      ∃ o : Opening Small.later Small.request Small.start,
        Recovered o (Small.means {}).ownNames Small.report
          (run (Small.means (Small.refusing 2)) Small.request Small.start).2.disk := by
  have hfail : (run (Small.means (Small.refusing 2)) Small.request Small.start).1 =
      .error Small.unplaced := by
    decide +kernel
  obtain ⟨o, -⟩ := exists_disposal Small.later_switches
  have hretried := failed_switch_retried (Small.lawful (Small.refusing 2)) (builtin_applyTo _ _)
    (Means.reads_of_loadsDocument rfl) (tidy_applyTo _ _ _ _) Small.lawful_later
    (sound_standard _ _ _) rfl (by decide) Small.keysStay_later (.inl rfl) hfail
  have hresumed : Resumed o _ Small.report _ := hretried.late (by simp [IsEarly, Small.unplaced])
    o _ (Small.retriable_later _ o) Small.later_switches
  obtain ⟨hold, hnew⟩ := Small.plan_later o
  refine ⟨hfail, o, hresumed.recovered ?_⟩
  have hsame : (Path.mk "./web/deploy").same ⟨"./web/deploy"⟩ := by decide
  simp [Plan.isBlocked, hold, hnew, hsame]

/-- A switch whose workflow could not be written has nothing to do at the second attempt, and there
is no workflow then where one switch would have left it. -/
theorem unwritten_workflow_not_retried :
    let failed := run (Small.means Small.unwritable) Small.request Small.start
    let retried := run Small.later Small.request failed.2.disk
    let whole := run Small.later Small.request Small.start
    failed.1 = .error Small.unwritten ∧ retried.1 = .ok (.alreadyActive "web" .cloudRun) ∧
      retried.2.disk.tree.get? (Small.later.workflowSpot Small.start) = none ∧
      whole.1 = .ok (.switched Small.report) ∧
      (whole.2.disk.tree.get? (Small.later.workflowSpot Small.start)).isSome := by
  have hfail : (run (Small.means Small.unwritable) Small.request Small.start).1 =
      .error Small.unwritten := by
    decide +kernel
  have hmissing : (run (Small.means Small.unwritable) Small.request Small.start).2.disk.tree.get?
      (Small.later.workflowSpot Small.start) = none := by
    decide +kernel
  have hthere : ((run Small.later Small.request Small.start).2.disk.tree.get?
      (Small.later.workflowSpot Small.start)).isSome := by
    decide +kernel
  obtain ⟨o, st, rt, pr, rc, dp, workflows, -, hreport⟩ := exists_disposal Small.later_switches
  have h := course (Small.means Small.unwritable) Small.request Small.start
  rw [hfail] at h
  have hcontinued : _ ∧ Unrefreshed o _ _ := h.continued (Small.lawful Small.unwritable)
    (builtin_applyTo _ _) (Means.reads_of_loadsDocument rfl) (tidy_applyTo _ _ _ _)
    Small.lawful_later (sound_standard _ _ _) rfl (by decide) Small.keysStay_later (.inl rfl)
    (by simp [IsEarly, Small.unwritten]) (Small.retriable_later _ o) Small.later_switches
  obtain ⟨w, hw, hread⟩ := hcontinued.2.saved
  have hactive := hcontinued.2.outcome
  rw [Small.load_later o hw hread] at hactive
  replace hactive : _ = Except.ok (Outcome.alreadyActive o.project.name o.deployer) := hactive
  have hname : o.project.name = "web" := (congrArg Report.project hreport).symm
  have htarget : o.deployer = .cloudRun := (congrArg Report.target hreport).symm
  rw [hname, htarget] at hactive
  refine ⟨hfail, hactive, ?_, Small.later_switches, hthere⟩
  rw [hcontinued.2.unchanged]
  exact hmissing

end Rollout.Switch

import Mathlib.Tactic.Common
import Rollout.Proofs.Switch.Phases

/-!
# The course of a switch

The ways in which a switch can go, with the disks in between: what was found (`Opening`), and
what each further phase did as long as none failed (`Staging` to `Recording`). A run follows one
`Course`, which says with what result and at which disk it ended (`course`).
-/

namespace Rollout.Switch

open Disk

variable (m : Means) (r : Request) (disk : Disk)

/-- What a switch finds that has something to do. -/
structure Opening where
  deployer : Deployer
  workspace : Workspace
  project : Project
  /-- The disk once the workspace is loaded. -/
  base : Disk
  read : Deployer.read r.deployer = .ok deployer
  loading : m.load.on disk = (.ok workspace, base)
  found : workspace.project r.project = .ok project
  inactive : deploysWith project deployer = false
  free : (planFor (Document.rootOf m.document) project r).isBlocked base.toView = false

namespace Opening

variable {m r disk} (o : Opening m r disk)

def plan : Plan := planFor (Document.rootOf m.document) o.project r

/-- The old folder, if there is one. -/
def old : Option Path := o.plan.existing? o.base.toView

def spec : Spec := specFor o.workspace o.project o.deployer r o.plan.configPath

/-- The switch may go on: there is no old folder, or its deletion is approved. -/
def Allowed : Prop := ∀ folder ∈ o.old, r.force ∨ m.approves o.project.name folder

/-- The deletions that approval is asked for. -/
def asked : List (String × Path) :=
  if r.force then [] else o.old.toList.map (o.project.name, ·)

/-- How far a switch has got when it has a plan. -/
def opened : Progress :=
  { disk := o.base
    events := [.phaseStarted .detectOld, .started o.project.name o.plan.origin o.deployer.id] }

/-- How far a switch has got when it knows whether it may go on. -/
def progress : Progress :=
  { o.opened.tell [match o.old with
      | none => .phaseSkipped .confirmDeletion "no existing deployment folder"
      | some _ => .phaseStarted .confirmDeletion] with
    asked := o.asked }

theorem old_eq_some {folder : Path} :
    o.old = some folder ↔ o.plan.oldFolder = some folder ∧ o.base.exists? folder :=
  Option.filter_eq_some_iff

variable {o} in
theorem mem_old {folder : Path} (h : o.old = some folder) : o.plan.oldFolder = some folder :=
  (o.old_eq_some.1 h).1

/-- There is one way to open a switch. -/
instance : Subsingleton (Opening m r disk) where
  allEq := by
    rintro ⟨d, w, p, base, hread, hload, hfind, _, _⟩
      ⟨d', w', p', base', hread', hload', hfind', _, _⟩
    obtain rfl : d = d' := Except.ok.inj (hread.symm.trans hread')
    obtain ⟨rfl, rfl⟩ : w = w' ∧ base = base' := by simpa using hload.symm.trans hload'
    obtain rfl : p = p' := Except.ok.inj (hfind.symm.trans hfind')
    rfl

/-- What a switch finds is what it opens with. -/
theorem found_eq {d : Deployer} {w : Workspace} {base : Disk} {p : Project}
    (hread : Deployer.read r.deployer = .ok d) (hload : m.load.on disk = (.ok w, base))
    (hfind : w.project r.project = .ok p) :
    d = o.deployer ∧ w = o.workspace ∧ base = o.base ∧ p = o.project := by
  obtain ⟨rfl, rfl⟩ : w = o.workspace ∧ base = o.base := by simpa using hload.symm.trans o.loading
  exact ⟨Except.ok.inj (hread.symm.trans o.read), rfl, rfl,
    Except.ok.inj (hfind.symm.trans o.found)⟩

/-- What is found of all that is loaded is found of what a switch opens with. -/
theorem of_loaded {P : Workspace → Project → Prop} [∀ w p, Decidable (P w p)]
    (h : (m.load.on disk).1.toOption.all fun w =>
      (w.project r.project).toOption.all fun p => decide (P w p)) (o : Opening m r disk) :
    P o.workspace o.project := by
  rw [show m.load.on disk = _ from o.loading] at h
  simpa [Except.toOption, show o.workspace.project r.project = _ from o.found] using h

end Opening

variable {m r disk} {o : Opening m r disk}

@[simp] theorem Opening.progress_disk : o.progress.disk = o.base := rfl

@[simp] theorem Opening.progress_asked : o.progress.asked = o.asked := rfl

@[simp] theorem Opening.progress_kept : o.progress.kept = none := rfl

@[simp] theorem Opening.progress_saved : o.progress.saved = none := rfl

/-- What staging the new files did. -/
structure Staging (o : Opening m r disk) where
  folder : Path
  files : List Path
  /-- The disk once the folder is made. -/
  made : Disk
  disk : Disk
  making : (m.makeFolder (Document.rootOf m.document) m.stagingName).on o.base = (.ok folder, made)
  generating : (m.generate o.deployer o.project.name (withDeploy o.project o.spec) o.spec.options
    folder).on made = (.ok files, disk)
  nonempty : files ≠ []

def Staging.progress (st : Staging o) : Progress :=
  (o.progress.tell [.phaseStarted .stage]).move st.disk

@[simp] theorem Staging.progress_asked (st : Staging o) : st.progress.asked = o.asked := rfl

@[simp] theorem Staging.progress_kept (st : Staging o) : st.progress.kept = none := rfl

@[simp] theorem Staging.progress_saved (st : Staging o) : st.progress.saved = none := rfl

/-- What moving the old folder aside did, if there is one. -/
structure Retirement (st : Staging o) where
  /-- The folder that keeps the old one. -/
  retired : Option Path
  disk : Disk
  how : o.old = none ∧ retired = none ∧ disk = st.disk ∨
    ∃ folder holder made, o.old = some folder ∧ retired = some holder ∧
      (m.makeFolder (Document.rootOf m.document) m.retiredName).on st.disk = (.ok holder, made) ∧
      (m.rename 1 folder (holder.child previousName)).on made = (.ok (), disk)

namespace Retirement

variable {st : Staging o} (rt : Retirement st)

/-- The moves so far. -/
def renames (_ : Retirement st) : Nat := if o.old.isSome then 1 else 0

def progress : Progress :=
  { st.progress.tell (match o.old with
      | none => [.phaseSkipped .removeOld "nothing to remove"]
      | some folder => [.phaseStarted .removeOld, .folderRemoved folder]) with
    disk := rt.disk, renames := rt.renames }

/-- How far a switch has got when it is about to move the new files. -/
def promoting : Progress :=
  { rt.progress.tell [.phaseStarted .promote] with
    kept := some rt.disk, renames := rt.renames + 1 }

@[simp] theorem promoting_asked : rt.promoting.asked = o.asked := rfl

@[simp] theorem promoting_kept : rt.promoting.kept = some rt.disk := rfl

@[simp] theorem promoting_saved : rt.promoting.saved = none := rfl

end Retirement

/-- What moving the new files to their place did. -/
structure Promotion {st : Staging o} (rt : Retirement st) where
  disk : Disk
  moving : (m.rename (rt.renames + 1) st.folder o.plan.newFolder).on rt.disk = (.ok (), disk)

namespace Promotion

variable {st : Staging o} {rt : Retirement st} (pr : Promotion rt)

/-- The new files at their place. -/
def written (_ : Promotion rt) : List Path := promoted st.folder o.plan.newFolder st.files

/-- How far a switch has got when it is about to save. -/
def progress : Progress :=
  ((rt.promoting.move pr.disk).tell (pr.written.map .fileWritten)).tell
    [.phaseStarted .updateConfig]

@[simp] theorem progress_disk : pr.progress.disk = pr.disk := rfl

@[simp] theorem progress_asked : pr.progress.asked = o.asked := rfl

@[simp] theorem progress_kept : pr.progress.kept = some rt.disk := rfl

@[simp] theorem progress_saved : pr.progress.saved = none := rfl

end Promotion

/-- What noting the deployer in the workspace did. -/
structure Recording {st : Staging o} {rt : Retirement st} (pr : Promotion rt) where
  workspace : Workspace
  disk : Disk
  switched : switchedWorkspace o.workspace o.project.name o.deployer o.spec = .ok workspace
  saving : (m.save workspace).on pr.disk = (.ok (), disk)

def Recording.progress {st : Staging o} {rt : Retirement st} {pr : Promotion rt}
    (rc : Recording pr) : Progress :=
  { pr.progress.move rc.disk with saved := some rc.disk }

/-- What deleting the old files did, if there are any. -/
structure Disposal {st : Staging o} {rt : Retirement st} {pr : Promotion rt}
    (rc : Recording pr) where
  /-- The folder that still keeps them. -/
  leftover : Option Path
  disk : Disk
  how : rt.retired = none ∧ leftover = none ∧ disk = rc.disk ∨
    ∃ holder, rt.retired = some holder ∧
      ((m.removeFolder holder).on rc.disk = (.ok (), disk) ∧ leftover = none ∨
        ∃ e, (m.removeFolder holder).on rc.disk = (.error e, disk) ∧ leftover = some holder)

namespace Disposal

variable {st : Staging o} {rt : Retirement st} {pr : Promotion rt} {rc : Recording pr}
  (dp : Disposal rc)

/-- How far a switch has got when it is about to regenerate the workflow. -/
def progress : Progress := (rc.progress.move dp.disk).tell [.phaseStarted .updateWorkflows]

@[simp] theorem progress_asked : dp.progress.asked = o.asked := rfl

@[simp] theorem progress_kept : dp.progress.kept = some rt.disk := rfl

@[simp] theorem progress_saved : dp.progress.saved = some rc.disk := rfl

/-- What a switch reports with these workflows. -/
def report (workflows : List Path) : Report :=
  { project := o.project.name
    origin := o.plan.origin
    target := o.deployer
    configFolder := o.plan.newFolder
    removed := o.old
    leftover := dp.leftover
    written := pr.written
    workflows }

end Disposal

/-- What is told of a new folder that is taken. -/
def takenMessage (plan : Plan) : String :=
  "destination " ++ plan.newFolder.text ++ " already exists"

variable (m r disk) in
/-- A switch ends with a result and at a disk. -/
inductive Course : Except Failure Outcome → Progress → Prop
  | unread (id : String) (h : Deployer.read r.deployer = .error id) :
      Course (.error (.workspace (.unknownDeployer id))) { disk }
  | unloaded (d : Deployer) (e : StoreError) (base : Disk) (h : Deployer.read r.deployer = .ok d)
      (hload : m.load.on disk = (.error e, base)) :
      Course (.error (.phase .detectOld e.message))
        (Progress.tellFailure { disk := base, events := [.phaseStarted .detectOld] }
          (.phase .detectOld e.message))
  | unknown (d : Deployer) (w : Workspace) (base : Disk) (e : WorkspaceError)
      (h : Deployer.read r.deployer = .ok d) (hload : m.load.on disk = (.ok w, base))
      (hfind : w.project r.project = .error e) :
      Course (.error (.workspace e)) { disk := base, events := [.phaseStarted .detectOld] }
  | active (d : Deployer) (w : Workspace) (base : Disk) (p : Project)
      (h : Deployer.read r.deployer = .ok d) (hload : m.load.on disk = (.ok w, base))
      (hfind : w.project r.project = .ok p) (hactive : deploysWith p d) :
      Course (.ok (.alreadyActive p.name d))
        { disk := base, events := [.phaseStarted .detectOld,
            .phaseSkipped .detectOld ("already deploying with " ++ d.id)] }
  | blocked (d : Deployer) (w : Workspace) (base : Disk) (p : Project)
      (h : Deployer.read r.deployer = .ok d) (hload : m.load.on disk = (.ok w, base))
      (hfind : w.project r.project = .ok p) (hactive : deploysWith p d = false)
      (plan : Plan) (hplan : plan = planFor (Document.rootOf m.document) p r)
      (hblocked : plan.isBlocked base.toView) :
      Course (.error (.phase .detectOld (takenMessage plan)))
        (Progress.tellFailure { disk := base, events := [.phaseStarted .detectOld] }
          (.phase .detectOld (takenMessage plan)))
  | declined (o : Opening m r disk) (h : ¬ o.Allowed) :
      Course (.ok (.cancelled o.project.name)) o.progress
  | unstaged (o : Opening m r disk) (h : o.Allowed) (e : FileError) (d : Disk)
      (hmake : (m.makeFolder (Document.rootOf m.document) m.stagingName).on o.base =
        (.error e, d)) :
      Course (.error (.phase .stage e.message))
        (((o.progress.tell [.phaseStarted .stage]).move d).tellFailure (.phase .stage e.message))
  | ungenerated (o : Opening m r disk) (h : o.Allowed) (folder : Path) (made d : Disk)
      (message : String)
      (hmake : (m.makeFolder (Document.rootOf m.document) m.stagingName).on o.base =
        (.ok folder, made))
      (hgenerate : ((m.generate o.deployer o.project.name (withDeploy o.project o.spec)
        o.spec.options folder).on made).2 = d)
      (hnone : ∀ files, ((m.generate o.deployer o.project.name (withDeploy o.project o.spec)
        o.spec.options folder).on made).1 = .ok files → files = []) :
      Course (.error (.phase .stage message))
        (((o.progress.tell [.phaseStarted .stage]).move (d.discarded folder)).tellFailure
          (.phase .stage message))
  | unheld (o : Opening m r disk) (h : o.Allowed) (st : Staging o) (old : Path) (e : FileError)
      (d : Disk) (hold : o.old = some old)
      (hmake : (m.makeFolder (Document.rootOf m.document) m.retiredName).on st.disk =
        (.error e, d)) :
      Course (.error (.phase .removeOld e.message))
        (((st.progress.tell [.phaseStarted .removeOld]).move (d.discarded st.folder)).tellFailure
          (.phase .removeOld e.message))
  | unmoved (o : Opening m r disk) (h : o.Allowed) (st : Staging o) (old holder : Path)
      (e : FileError) (made d : Disk) (hold : o.old = some old)
      (hmake : (m.makeFolder (Document.rootOf m.document) m.retiredName).on st.disk =
        (.ok holder, made))
      (hmove : (m.rename 1 old (holder.child previousName)).on made = (.error e, d)) :
      Course (.error (.phase .removeOld e.message))
        (({ st.progress.tell [.phaseStarted .removeOld] with renames := 1 } : Progress).move
          ((d.discarded holder).discarded st.folder) |>.tellFailure (.phase .removeOld e.message))
  | unpromoted (o : Opening m r disk) (h : o.Allowed) (st : Staging o) (rt : Retirement st)
      (e : FileError) (d : Disk)
      (hmove : (m.rename (rt.renames + 1) st.folder o.plan.newFolder).on rt.disk = (.error e, d)) :
      Course (.error (.inconsistent o.project.name st.folder rt.retired e.message))
        ((rt.promoting.move d).tellFailure
          (.inconsistent o.project.name st.folder rt.retired e.message))
  | lost (o : Opening m r disk) (h : o.Allowed) (st : Staging o) (rt : Retirement st)
      (pr : Promotion rt) (e : WorkspaceError)
      (hswitch : switchedWorkspace o.workspace o.project.name o.deployer o.spec = .error e) :
      Course (.error (.workspace e)) pr.progress
  | unrecorded (o : Opening m r disk) (h : o.Allowed) (st : Staging o) (rt : Retirement st)
      (pr : Promotion rt) (w : Workspace) (e : StoreError) (d : Disk)
      (hswitch : switchedWorkspace o.workspace o.project.name o.deployer o.spec = .ok w)
      (hsave : (m.save w).on pr.disk = (.error e, d)) :
      Course (.error (.unrecorded o.project.name o.plan.newFolder o.plan.origin o.deployer
          rt.retired e.message))
        ((pr.progress.move d).tellFailure (.unrecorded o.project.name o.plan.newFolder
          o.plan.origin o.deployer rt.retired e.message))
  | unrefreshed (o : Opening m r disk) (h : o.Allowed) (st : Staging o) (rt : Retirement st)
      (pr : Promotion rt) (rc : Recording pr) (dp : Disposal rc) (e : OutputError) (d : Disk)
      (hregenerate : (m.regenerate rc.workspace (Document.rootOf m.document)).on dp.disk =
        (.error e, d)) :
      Course (.error (.phase .updateWorkflows e.message))
        ((dp.progress.move d).tellFailure (.phase .updateWorkflows e.message))
  | done (o : Opening m r disk) (h : o.Allowed) (st : Staging o) (rt : Retirement st)
      (pr : Promotion rt) (rc : Recording pr) (dp : Disposal rc) (workflows : List Path) (d : Disk)
      (hregenerate : (m.regenerate rc.workspace (Document.rootOf m.document)).on dp.disk =
        (.ok workflows, d)) :
      Course (.ok (.switched (dp.report workflows)))
        (((dp.progress.move d).tell (workflows.map .fileWritten)).tell
          [.completed o.project.name o.deployer.id])

/-! ### Every switch follows a course -/

open SwitchM

theorem confirm_eq (o : Opening m r disk) :
    ∃ allowed, (confirm m r o.project.name o.old).on o.opened = (.ok allowed, o.progress) ∧
      (allowed = true ↔ o.Allowed) := by
  rw [on_confirm]
  unfold Opening.progress Opening.asked Opening.Allowed
  cases o.old with
  | none => exact ⟨true, by simp [Opening.opened, Progress.tell], by simp⟩
  | some folder =>
    simp only
    by_cases hforce : r.force
    · exact ⟨true, by simp [hforce, Opening.opened, Progress.tell], by simp [hforce]⟩
    · exact ⟨_, by simp [hforce, Opening.opened, Progress.tell]; rfl, by simp [hforce]⟩

theorem stage_cases (o : Opening m r disk) (h : o.Allowed) :
    (∃ f s, (stage m o.deployer o.project.name o.project o.spec).on o.progress = (.error f, s) ∧
      Course m r disk (.error f) s) ∨
    ∃ st : Staging o, (stage m o.deployer o.project.name o.project o.spec).on o.progress =
      (.ok (st.folder, st.files), st.progress) := by
  rw [on_stage]
  simp only [show o.progress.disk = o.base from rfl]
  rcases hmake : (m.makeFolder (Document.rootOf m.document) m.stagingName).on o.base with
    ⟨e | folder, made⟩
  · exact .inl ⟨_, _, rfl, .unstaged o h e made hmake⟩
  · simp only
    rcases hgenerate : (m.generate o.deployer o.project.name (withDeploy o.project o.spec)
      o.spec.options folder).on made with ⟨e | _ | ⟨file, files⟩, d⟩
    · exact .inl ⟨_, _, rfl, .ungenerated o h folder made d _ hmake (by rw [hgenerate])
        (by simp [hgenerate])⟩
    · exact .inl ⟨_, _, rfl, .ungenerated o h folder made d _ hmake (by rw [hgenerate])
        (by simp [hgenerate])⟩
    · exact .inr ⟨⟨folder, file :: files, made, d, hmake, hgenerate, by simp⟩, rfl⟩

theorem retire_cases (h : o.Allowed) (st : Staging o) :
    (∃ f s, (retire m st.folder o.old).on st.progress = (.error f, s) ∧
      Course m r disk (.error f) s) ∨
    ∃ rt : Retirement st, (retire m st.folder o.old).on st.progress =
      (.ok rt.retired, rt.progress) := by
  rw [on_retire]
  simp only [show st.progress.disk = st.disk from rfl,
    show st.progress.renames = 0 from rfl, Nat.zero_add]
  cases hold : o.old with
  | none =>
    refine .inr ⟨⟨none, st.disk, .inl ⟨hold, rfl, rfl⟩⟩, ?_⟩
    simp only [Retirement.progress, Retirement.renames, hold]
    rfl
  | some old =>
    simp only
    rcases hmake : (m.makeFolder (Document.rootOf m.document) m.retiredName).on st.disk with
      ⟨e | holder, made⟩
    · exact .inl ⟨_, _, rfl, .unheld o h st old e made hold hmake⟩
    · simp only
      rcases hmove : (m.rename 1 old (holder.child previousName)).on made with ⟨e | _, d⟩
      · exact .inl ⟨_, _, rfl, .unmoved o h st old holder e made d hold hmake hmove⟩
      · refine .inr ⟨⟨some holder, d, .inr ⟨old, holder, made, hold, rfl, hmake, hmove⟩⟩, ?_⟩
        simp [Retirement.progress, Retirement.renames, hold, Progress.tell, Progress.move]

theorem promote_cases (h : o.Allowed) {st : Staging o} (rt : Retirement st) :
    (∃ f s, (promote m o.project.name o.plan st.folder st.files rt.retired).on rt.progress =
      (.error f, s) ∧ Course m r disk (.error f) s) ∨
    ∃ pr : Promotion rt, (promote m o.project.name o.plan st.folder st.files rt.retired).on
      rt.progress = (.ok pr.written,
        (rt.promoting.move pr.disk).tell (pr.written.map .fileWritten)) := by
  rw [on_promote]
  simp only [show rt.progress.disk = rt.disk from rfl,
    show rt.progress.renames = rt.renames from rfl]
  rcases hmove : (m.rename (rt.renames + 1) st.folder o.plan.newFolder).on rt.disk with ⟨e | _, d⟩
  · exact .inl ⟨_, _, rfl, .unpromoted o h st rt e d hmove⟩
  · exact .inr ⟨⟨d, hmove⟩, rfl⟩

theorem record_cases (h : o.Allowed) {st : Staging o} {rt : Retirement st} (pr : Promotion rt) :
    let s := (rt.promoting.move pr.disk).tell (pr.written.map .fileWritten)
    let part := record m o.project.name o.workspace o.deployer o.spec o.plan rt.retired
    (∃ f s', part.on s = (.error f, s') ∧ Course m r disk (.error f) s') ∨
    ∃ rc : Recording pr, part.on s = (.ok rc.workspace, rc.progress) := by
  simp only
  rw [on_record]
  simp only
  cases hswitch : switchedWorkspace o.workspace o.project.name o.deployer o.spec with
  | error e => exact .inl ⟨_, _, rfl, .lost o h st rt pr e hswitch⟩
  | ok w =>
    simp only [show ((rt.promoting.move pr.disk).tell (pr.written.map .fileWritten)).disk = pr.disk
      from rfl]
    rcases hsave : (m.save w).on pr.disk with ⟨e | _, d⟩
    · exact .inl ⟨_, _, rfl, .unrecorded o h st rt pr w e d hswitch hsave⟩
    · exact .inr ⟨⟨w, d, hswitch, hsave⟩, rfl⟩

theorem dispose_eq {st : Staging o} {rt : Retirement st} {pr : Promotion rt}
    (rc : Recording pr) : ∃ dp : Disposal rc,
      (dispose m rt.retired).on rc.progress = (.ok dp.leftover, rc.progress.move dp.disk) := by
  rw [on_dispose]
  cases hretired : rt.retired with
  | none => exact ⟨⟨none, rc.disk, .inl ⟨hretired, rfl, rfl⟩⟩, rfl⟩
  | some holder =>
    simp only [show rc.progress.disk = rc.disk from rfl]
    rcases hremove : (m.removeFolder holder).on rc.disk with ⟨e | _, d⟩
    · exact ⟨⟨some holder, d, .inr ⟨holder, hretired, .inr ⟨e, hremove, rfl⟩⟩⟩, rfl⟩
    · exact ⟨⟨none, d, .inr ⟨holder, hretired, .inl ⟨hremove, rfl⟩⟩⟩, rfl⟩

theorem course_replace (o : Opening m r disk) (h : o.Allowed) :
    Course m r disk
      (((replace m r o.workspace o.project o.deployer o.plan o.old).on o.progress).1.map .switched)
      ((replace m r o.workspace o.project o.deployer o.plan o.old).on o.progress).2 := by
  rw [replace]
  simp only [show specFor o.workspace o.project o.deployer r o.plan.configPath = o.spec from rfl]
  rw [on_bind]
  rcases stage_cases o h with ⟨f, s, heq, hc⟩ | ⟨st, heq⟩
  · rw [heq]
    exact hc
  rw [heq]
  simp only
  rw [on_bind]
  rcases retire_cases h st with ⟨f, s, heq, hc⟩ | ⟨rt, heq⟩
  · rw [heq]
    exact hc
  rw [heq]
  simp only
  rw [on_bind]
  rcases promote_cases h rt with ⟨f, s, heq, hc⟩ | ⟨pr, heq⟩
  · rw [heq]
    exact hc
  rw [heq]
  simp only
  rw [on_bind]
  rcases record_cases h pr with ⟨f, s, heq, hc⟩ | ⟨rc, heq⟩
  · rw [heq]
    exact hc
  rw [heq]
  simp only
  rw [on_bind]
  obtain ⟨dp, heq⟩ := dispose_eq rc
  rw [heq]
  simp only
  rw [on_bind, on_refresh]
  simp only [show (rc.progress.move dp.disk).disk = dp.disk from rfl]
  rcases hregenerate : (m.regenerate rc.workspace (Document.rootOf m.document)).on dp.disk with
    ⟨e | workflows, d⟩
  · exact .unrefreshed o h st rt pr rc dp e d hregenerate
  · exact .done o h st rt pr rc dp workflows d hregenerate

/-- What a switch does once it has a plan. -/
def proceed (o : Opening m r disk) : SwitchM Outcome := do
  if ← confirm m r o.project.name o.old then
    return .switched (← replace m r o.workspace o.project o.deployer o.plan o.old)
  else
    return .cancelled o.project.name

theorem course_opened (o : Opening m r disk) :
    Course m r disk ((proceed o).on o.opened).1 ((proceed o).on o.opened).2 := by
  obtain ⟨allowed, heq, hallowed⟩ := confirm_eq o
  rw [proceed, on_bind, heq]
  simp only
  split
  · rename_i h
    rw [on_bind]
    have hc := course_replace o (hallowed.1 h)
    generalize (replace m r o.workspace o.project o.deployer o.plan o.old).on o.progress = end_
      at hc
    obtain ⟨f | report, s⟩ := end_ <;> exact hc
  · rename_i h
    exact .declined o fun ha => h (hallowed.2 ha)

variable (m r disk)

/-- Every switch follows a course. -/
theorem course : Course m r disk (run m r disk).1 (run m r disk).2 := by
  change Course m r disk ((execute m r).on { disk }).1 ((execute m r).on { disk }).2
  rw [execute]
  cases hread : Deployer.read r.deployer with
  | error id => exact .unread id hread
  | ok d =>
  simp only
  rw [on_bind, on_detect]
  simp only
  rcases hload : m.load.on disk with ⟨e | w, base⟩
  · exact .unloaded d e base hread hload
  simp only
  cases hfind : w.project r.project with
  | error e => exact .unknown d w base e hread hload hfind
  | ok p =>
  simp only
  split
  · rename_i hactive
    exact .active d w base p hread hload hfind hactive
  rename_i hinactive
  have hinactive : deploysWith p d = false := by simpa using hinactive
  rw [on_bind, on_makePlan]
  simp only [show (({ disk } : Progress).tell [.phaseStarted .detectOld] |>.move base).disk = base
    from rfl]
  by_cases hblocked : (planFor (Document.rootOf m.document) p r).isBlocked base.toView
  · rw [if_pos hblocked]
    exact .blocked d w base p hread hload hfind hinactive _ rfl hblocked
  rw [if_neg hblocked]
  let o : Opening m r disk :=
    ⟨d, w, p, base, hread, hload, hfind, hinactive, by simpa using hblocked⟩
  simp only
  rw [on_bind, view, on_bind, on_get]
  exact course_opened o

/-- A switch that reports to be done has gone through all its phases. -/
theorem exists_disposal {m : Means} {r : Request} {disk : Disk} {report : Report}
    (h : (run m r disk).1 = .ok (.switched report)) :
    ∃ (o : Opening m r disk) (st : Staging o) (rt : Retirement st) (pr : Promotion rt)
      (rc : Recording pr) (dp : Disposal rc) (workflows : List Path),
      (m.regenerate rc.workspace (Document.rootOf m.document)).on dp.disk =
        (.ok workflows, (run m r disk).2.disk) ∧ report = dp.report workflows := by
  have hcourse := course m r disk
  rw [h] at hcourse
  generalize (run m r disk).2 = s at hcourse ⊢
  cases hcourse with
  | done o _ st rt pr rc dp workflows d hregenerate =>
    exact ⟨o, st, rt, pr, rc, dp, workflows, hregenerate, rfl⟩

end Rollout.Switch

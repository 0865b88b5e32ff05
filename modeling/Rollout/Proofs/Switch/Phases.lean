import Mathlib.Tactic.Common
import Rollout.Switch.Run
import Rollout.Proofs.FileTree.OwnFolder

/-!
# The phases of a switch, one by one

What each phase comes to in terms of what the means do: one equation for each, which says how
the phase ends and what is noted on the way. The phases are looked into only here.
-/

namespace Rollout.Switch

/-- How a part of a switch ends, and how far the switch has got then. -/
def SwitchM.on {α : Type} (part : SwitchM α) (s : Progress) : Except Failure α × Progress :=
  part.run.run s

namespace Progress

/-- More events are told. -/
def tell (s : Progress) (es : List Event) : Progress := { s with events := s.events ++ es }

/-- The disk is another one now. -/
def move (s : Progress) (d : Disk) : Progress := { s with disk := d }

/-- A failure is told where it is one of a phase. -/
def tellFailure (s : Progress) (f : Failure) : Progress :=
  match f.phase? with
  | some phase => s.tell [.phaseFailed phase f.message]
  | none => s

variable (s : Progress) (es : List Event) (d : Disk) (f : Failure)

@[simp] theorem tell_disk : (s.tell es).disk = s.disk := rfl

@[simp] theorem tell_asked : (s.tell es).asked = s.asked := rfl

@[simp] theorem tell_kept : (s.tell es).kept = s.kept := rfl

@[simp] theorem tell_saved : (s.tell es).saved = s.saved := rfl

@[simp] theorem move_disk : (s.move d).disk = d := rfl

@[simp] theorem move_asked : (s.move d).asked = s.asked := rfl

@[simp] theorem move_kept : (s.move d).kept = s.kept := rfl

@[simp] theorem move_saved : (s.move d).saved = s.saved := rfl

@[simp] theorem tellFailure_disk : (s.tellFailure f).disk = s.disk := by
  unfold tellFailure
  split <;> rfl

@[simp] theorem tellFailure_asked : (s.tellFailure f).asked = s.asked := by
  unfold tellFailure
  split <;> rfl

@[simp] theorem tellFailure_kept : (s.tellFailure f).kept = s.kept := by
  unfold tellFailure
  split <;> rfl

@[simp] theorem tellFailure_saved : (s.tellFailure f).saved = s.saved := by
  unfold tellFailure
  split <;> rfl

end Progress

namespace SwitchM

variable {α β ε : Type} (s : Progress)

theorem on_pure (a : α) : (pure a : SwitchM α).on s = (.ok a, s) := rfl

theorem on_bind (x : SwitchM α) (f : α → SwitchM β) :
    (x >>= f).on s = match x.on s with
      | (.ok a, s') => (f a).on s'
      | (.error e, s') => (.error e, s') := by
  unfold SwitchM.on
  rw [ExceptT.run_bind, StateT.run_bind]
  simp only [Bind.bind]
  generalize StateT.run (ExceptT.run x) s = r
  obtain ⟨a | a, s'⟩ := r <;> rfl

theorem on_modify (f : Progress → Progress) :
    SwitchM.on (modify f) s = (.ok (), f s) := rfl

theorem on_get : SwitchM.on get s = (.ok s, s) := rfl

theorem on_emit (e : Event) : (emit e).on s = (.ok (), s.tell [e]) := rfl

theorem on_startPhase (p : Phase) : (startPhase p).on s = (.ok (), s.tell [.phaseStarted p]) := rfl

theorem on_fail (f : Failure) : (fail f : SwitchM α).on s = (.error f, s.tellFailure f) := by
  unfold fail Progress.tellFailure
  cases f.phase? <;> rfl

theorem on_attempt (task : DiskTask ε α) :
    (attempt task).on s = (.ok (task.on s.disk).1, s.move (task.on s.disk).2) := rfl

theorem on_discard (p : Path) :
    (discard p).on s = (.ok (), s.move (s.disk.discarded p)) := rfl

theorem tell_tell (es es' : List Event) : (s.tell es).tell es' = s.tell (es ++ es') := by
  simp [Progress.tell]

theorem on_emitAll (es : List Event) : (es.forM emit).on s = (.ok (), s.tell es) := by
  induction es generalizing s with
  | nil => simp [Progress.tell, on_pure]
  | cons e es ih =>
    rw [List.forM, on_bind, on_emit]
    simp only
    rw [ih, tell_tell, List.singleton_append]

theorem forM_emit {γ : Type} (f : γ → Event) (xs : List γ) :
    (xs.forM fun x => emit (f x)) = (xs.map f).forM emit := by
  induction xs with
  | nil => rfl
  | cons x xs ih => rw [List.forM, List.map_cons, List.forM, ih]

theorem on_need (phase : Phase) (message : ε → String) (task : DiskTask ε α) :
    (need phase message task).on s =
      match task.on s.disk with
      | (.ok a, d) => (.ok a, s.move d)
      | (.error e, d) => (.error (.phase phase (message e)),
          (s.move d).tellFailure (.phase phase (message e))) := by
  rw [need, on_bind, on_attempt]
  simp only
  rcases task.on s.disk with ⟨e | a, d⟩
  · exact on_fail _ _
  · rfl

theorem on_discardAll (folders : List Path) :
    (folders.forM discard).on s = (.ok (), s.move (folders.foldl Disk.discarded s.disk)) := by
  induction folders generalizing s with
  | nil => rfl
  | cons p folders ih =>
    rw [List.forM, on_bind, on_discard]
    simp only
    rw [ih]
    rfl

theorem on_failDiscarding (folders : List Path) (phase : Phase) (message : String) :
    (failDiscarding folders phase message : SwitchM α).on s =
      (.error (.phase phase message),
        (s.move (folders.foldl Disk.discarded s.disk)).tellFailure (.phase phase message)) := by
  rw [failDiscarding, on_bind, on_discardAll]
  exact on_fail _ _

end SwitchM

open SwitchM

variable (m : Means) (r : Request) (s : Progress)

theorem on_detect :
    (detect m r).on s =
      match m.load.on s.disk with
      | (.error e, d) => (.error (.phase .detectOld e.message),
          ((s.tell [.phaseStarted .detectOld]).move d).tellFailure (.phase .detectOld e.message))
      | (.ok w, d) =>
        match w.project r.project with
        | .ok p => (.ok (w, p), (s.tell [.phaseStarted .detectOld]).move d)
        | .error e => (.error (.workspace e), (s.tell [.phaseStarted .detectOld]).move d) := by
  rw [detect, on_bind, on_startPhase]
  simp only
  rw [on_bind, on_need]
  simp only [show (s.tell [.phaseStarted .detectOld]).disk = s.disk from rfl]
  rcases m.load.on s.disk with ⟨e | w, d⟩
  · rfl
  · simp only
    cases w.project r.project <;> rfl

theorem on_makePlan (p : Project) (d : Deployer) :
    (makePlan m p r d).on s =
      let plan := planFor (Document.rootOf m.document) p r
      let message := "destination " ++ plan.newFolder.text ++ " already exists"
      if plan.isBlocked s.disk.toView then
        (.error (.phase .detectOld message), s.tellFailure (.phase .detectOld message))
      else (.ok plan, s.tell [.started p.name plan.origin d.id]) := by
  rw [makePlan]
  simp only
  rw [on_bind, view, on_bind, on_get]
  simp only [on_pure]
  split
  · rw [on_bind, on_fail]
  · rfl

theorem on_confirm (name : String) (old : Option Path) :
    (confirm m r name old).on s =
      match old with
      | none => (.ok true, s.tell [.phaseSkipped .confirmDeletion "no existing deployment folder"])
      | some folder =>
        if r.force then (.ok true, s.tell [.phaseStarted .confirmDeletion])
        else (.ok (m.approves name folder),
          { s.tell [.phaseStarted .confirmDeletion] with asked := s.asked ++ [(name, folder)] }) := by
  cases old with
  | none => rfl
  | some folder =>
    rw [confirm, on_bind, on_startPhase]
    simp only
    split <;> rfl

theorem on_stage (d : Deployer) (name : String) (p : Project) (spec : Spec) :
    (stage m d name p spec).on s =
      let s₁ := s.tell [.phaseStarted .stage]
      match (m.makeFolder (Document.rootOf m.document) m.stagingName).on s.disk with
      | (.error e, d₁) => (.error (.phase .stage e.message),
          (s₁.move d₁).tellFailure (.phase .stage e.message))
      | (.ok folder, d₁) =>
        match (m.generate d name (withDeploy p spec) spec.options folder).on d₁ with
        | (.error e, d₂) => (.error (.phase .stage e.message),
            (s₁.move (d₂.discarded folder)).tellFailure (.phase .stage e.message))
        | (.ok [], d₂) => (.error (.phase .stage (d.id ++ " generator produced no files")),
            (s₁.move (d₂.discarded folder)).tellFailure
              (.phase .stage (d.id ++ " generator produced no files")))
        | (.ok (file :: files), d₂) => (.ok (folder, file :: files), s₁.move d₂) := by
  rw [stage, on_bind, on_startPhase]
  simp only
  rw [on_bind, on_need]
  simp only [show (s.tell [.phaseStarted .stage]).disk = s.disk from rfl]
  rcases (m.makeFolder (Document.rootOf m.document) m.stagingName).on s.disk with ⟨e | folder, d₁⟩
  · rfl
  · simp only
    rw [on_bind, on_attempt]
    simp only [show ((s.tell [.phaseStarted .stage]).move d₁).disk = d₁ from rfl]
    rcases (m.generate d name (withDeploy p spec) spec.options folder).on d₁ with
      ⟨e | _ | ⟨file, files⟩, d₂⟩
    · exact on_failDiscarding _ _ _ _
    · exact on_failDiscarding _ _ _ _
    · rfl

theorem on_rename (source target : Path) :
    (rename m source target).on s =
      (.ok ((m.rename (s.renames + 1) source target).on s.disk).1,
        ({ s with renames := s.renames + 1 } : Progress).move
          ((m.rename (s.renames + 1) source target).on s.disk).2) := rfl

theorem on_retire (staging : Path) (old : Option Path) :
    (retire m staging old).on s =
      match old with
      | none => (.ok none, s.tell [.phaseSkipped .removeOld "nothing to remove"])
      | some folder =>
        let s₁ := s.tell [.phaseStarted .removeOld]
        match (m.makeFolder (Document.rootOf m.document) m.retiredName).on s.disk with
        | (.error e, d₁) => (.error (.phase .removeOld e.message),
            (s₁.move (d₁.discarded staging)).tellFailure (.phase .removeOld e.message))
        | (.ok holder, d₁) =>
          let s₂ := { s₁ with renames := s.renames + 1 }
          match (m.rename (s.renames + 1) folder (holder.child previousName)).on d₁ with
          | (.error e, d₂) => (.error (.phase .removeOld e.message),
              (s₂.move ((d₂.discarded holder).discarded staging)).tellFailure
                (.phase .removeOld e.message))
          | (.ok _, d₂) => (.ok (some holder), (s₂.move d₂).tell [.folderRemoved folder]) := by
  cases old with
  | none => rfl
  | some folder =>
    rw [retire, on_bind, on_startPhase]
    simp only
    rw [on_bind, on_attempt]
    simp only [show (s.tell [.phaseStarted .removeOld]).disk = s.disk from rfl]
    rcases (m.makeFolder (Document.rootOf m.document) m.retiredName).on s.disk with
      ⟨e | holder, d₁⟩
    · exact on_failDiscarding _ _ _ _
    · simp only
      rw [on_bind, on_rename]
      simp only [show ((s.tell [.phaseStarted .removeOld]).move d₁).disk = d₁ from rfl,
        show ((s.tell [.phaseStarted .removeOld]).move d₁).renames = s.renames from rfl]
      rcases (m.rename (s.renames + 1) folder (holder.child previousName)).on d₁ with ⟨e | _, d₂⟩
      · exact on_failDiscarding _ _ _ _
      · rfl

theorem on_promote (name : String) (plan : Plan) (staging : Path) (files : List Path)
    (retired : Option Path) :
    (promote m name plan staging files retired).on s =
      let s₁ := { s.tell [.phaseStarted .promote] with
        kept := some s.disk, renames := s.renames + 1 }
      match (m.rename (s.renames + 1) staging plan.newFolder).on s.disk with
      | (.error e, d₁) => (.error (.inconsistent name staging retired e.message),
          (s₁.move d₁).tellFailure (.inconsistent name staging retired e.message))
      | (.ok _, d₁) => (.ok (promoted staging plan.newFolder files),
          (s₁.move d₁).tell ((promoted staging plan.newFolder files).map .fileWritten)) := by
  rw [promote, on_bind, on_startPhase]
  simp only
  rw [on_bind, on_modify]
  simp only
  rw [on_bind, on_rename]
  simp only [Progress.tell]
  rcases (m.rename (s.renames + 1) staging plan.newFolder).on s.disk with ⟨e | _, d₁⟩
  · exact on_fail _ _
  · simp only
    rw [on_bind, forM_emit, on_emitAll]
    rfl

theorem on_record (name : String) (w : Workspace) (d : Deployer) (spec : Spec) (plan : Plan)
    (retired : Option Path) :
    (record m name w d spec plan retired).on s =
      let s₁ := s.tell [.phaseStarted .updateConfig]
      match switchedWorkspace w name d spec with
      | .error e => (.error (.workspace e), s₁)
      | .ok w' =>
        match (m.save w').on s.disk with
        | (.error e, d₁) =>
          let failure := .unrecorded name plan.newFolder plan.origin d retired e.message
          (.error failure, (s₁.move d₁).tellFailure failure)
        | (.ok _, d₁) => (.ok w', { s₁.move d₁ with saved := some d₁ }) := by
  rw [record, on_bind, on_startPhase]
  simp only
  cases switchedWorkspace w name d spec with
  | error e => rfl
  | ok w' =>
    simp only
    rw [on_bind, on_attempt]
    simp only [show (s.tell [.phaseStarted .updateConfig]).disk = s.disk from rfl]
    rcases (m.save w').on s.disk with ⟨e | _, d₁⟩
    · exact on_fail _ _
    · rfl

theorem on_dispose (retired : Option Path) :
    (dispose m retired).on s =
      match retired with
      | none => (.ok none, s)
      | some folder =>
        match (m.removeFolder folder).on s.disk with
        | (.ok _, d₁) => (.ok none, s.move d₁)
        | (.error _, d₁) => (.ok (some folder), s.move d₁) := by
  cases retired with
  | none => rfl
  | some folder =>
    rw [dispose, on_bind, on_attempt]
    simp only
    rcases (m.removeFolder folder).on s.disk with ⟨_ | _, d₁⟩ <;> rfl

theorem on_refresh (w : Workspace) :
    (refresh m w).on s =
      let s₁ := s.tell [.phaseStarted .updateWorkflows]
      match (m.regenerate w (Document.rootOf m.document)).on s.disk with
      | (.error e, d₁) => (.error (.phase .updateWorkflows e.message),
          (s₁.move d₁).tellFailure (.phase .updateWorkflows e.message))
      | (.ok paths, d₁) => (.ok paths, (s₁.move d₁).tell (paths.map .fileWritten)) := by
  rw [refresh, on_bind, on_startPhase]
  simp only
  rw [on_bind, on_need]
  simp only [show (s.tell [.phaseStarted .updateWorkflows]).disk = s.disk from rfl]
  rcases (m.regenerate w (Document.rootOf m.document)).on s.disk with ⟨e | paths, d₁⟩
  · rfl
  · simp only
    rw [on_bind, forM_emit, on_emitAll]
    rfl

end Rollout.Switch

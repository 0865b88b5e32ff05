import Mathlib.Tactic.Common
import Rollout.Switch.Standard
import Rollout.Proofs.Output.Steady
import Rollout.Proofs.Switch.Phases

/-!
# Switches on disks that hold the same

What a switch does is a matter of what is where and from which folder it is seen. On two disks
that hold the same it tells the same, asks the same and ends in the same way, and what it leaves
holds the same (`run_alike`), as long as that is true of each of its means (`Means.Steady`). It is
of those of the program that work as they should (`Means.Sound.steady`).
-/

namespace Rollout.Switch

open Disk DiskTask

/-- Each of the means ends in the same way on disks that hold the same. -/
structure Means.Steady (m : Means) (c : Location) : Prop where
  load : m.load.Steady Nowhere c
  save : ∀ w, (m.save w).Steady Nowhere c
  generate : ∀ d name p options dest, (m.generate d name p options dest).Steady Nowhere c
  regenerate : ∀ w root, (m.regenerate w root).Steady Nowhere c
  makeFolder : ∀ folder name, (m.makeFolder folder name).Steady Nowhere c
  rename : ∀ n source target, (m.rename n source target).Steady Nowhere c
  removeFolder : ∀ folder, (m.removeFolder folder).Steady Nowhere c

/-- The means are those of the program and work as they should. -/
structure Means.Sound (m : Means) : Prop where
  load : m.load = Document.load m.document
  save : m.save = Document.save .never m.document
  generate : m.generate = DeployFiles.generate .never
  regenerate : m.regenerate = Workflow.regenerate .never
  makeFolder : m.makeFolder = makeTemporary
  rename : m.rename = fun _ => Disk.rename
  removeFolder : m.removeFolder = Disk.removeFolder

theorem sound_standard (document : Path) (suffix : String) (approves : String → Path → Bool) :
    (Means.standard document suffix approves).Sound := ⟨rfl, rfl, rfl, rfl, rfl, rfl, rfl⟩

theorem Means.Sound.steady {m : Means} (h : m.Sound) (c : Location) : m.Steady c where
  load := h.load ▸ Document.steady_load fun k _ => not_nowhere k
  save w := h.save ▸ Document.steady_save w fun k _ => not_nowhere k
  generate d name p options _ := h.generate ▸
    DeployFiles.steady_generate d name p options fun _ _ k _ => not_nowhere k
  regenerate w _ := h.regenerate ▸ Workflow.steady_regenerate w fun k _ => not_nowhere k
  makeFolder := h.makeFolder ▸ steady_makeTemporary
  rename _ := h.rename ▸ steady_rename
  removeFolder := h.removeFolder ▸ steady_removeFolder

/-- Switches that have got as far, on disks that hold the same. -/
structure Progress.Alike (c : Location) (s s' : Progress) : Prop where
  disk : View.Alike Nowhere c s.disk.toView s'.disk.toView
  events : s'.events = s.events
  asked : s'.asked = s.asked
  renames : s'.renames = s.renames

/-- A part of a switch that ends in the same way wherever the switch has got as far. -/
def SwitchM.Steady {α : Type} (c : Location) (part : SwitchM α) : Prop :=
  ∀ ⦃s s' : Progress⦄, s.Alike c s' →
    (part.on s').1 = (part.on s).1 ∧ (part.on s).2.Alike c (part.on s').2

variable {c : Location}

namespace Progress.Alike

variable {s s' : Progress} (h : s.Alike c s')
include h

theorem tell (es : List Event) : (s.tell es).Alike c (s'.tell es) :=
  ⟨h.disk, congrArg (· ++ es) h.events, h.asked, h.renames⟩

theorem tellFailure (f : Failure) : (s.tellFailure f).Alike c (s'.tellFailure f) := by
  unfold Progress.tellFailure
  cases f.phase? with
  | none => exact h
  | some phase => exact h.tell _

theorem move {d d' : Disk} (hd : View.Alike Nowhere c d.toView d'.toView) :
    (s.move d).Alike c (s'.move d') :=
  ⟨hd, h.events, h.asked, h.renames⟩

end Progress.Alike

/-! ### Parts put together -/

namespace SwitchM

variable {α β ε : Type}

theorem steady_pure (a : α) : Steady c (pure a : SwitchM α) := fun _ _ h => ⟨rfl, h⟩

theorem Steady.bind {x : SwitchM α} {f : α → SwitchM β} (hx : Steady c x)
    (hf : ∀ a, Steady c (f a)) : Steady c (x >>= f) := by
  intro s s' h
  obtain ⟨hresult, halike⟩ := hx h
  rw [on_bind, on_bind]
  generalize x.on s = end_, x.on s' = end' at hresult halike
  obtain ⟨result, t⟩ := end_
  obtain ⟨result', t'⟩ := end'
  obtain rfl : result' = result := hresult
  cases result' with
  | error failure => exact ⟨rfl, halike⟩
  | ok a => exact hf a halike

/-- A part that goes by what is seen only. -/
theorem steady_view {f : View → SwitchM α}
    (hf : ∀ v v' : View, View.Alike Nowhere c v v' → f v' = f v) (hs : ∀ v, Steady c (f v)) :
    Steady c (view >>= f) := by
  intro s s' h
  rw [on_bind, on_bind]
  change ((f s'.disk.toView).on s').1 = ((f s.disk.toView).on s).1 ∧
    ((f s.disk.toView).on s).2.Alike c ((f s'.disk.toView).on s').2
  rw [hf _ _ h.disk]
  exact hs _ h

theorem steady_emit (e : Event) : Steady c (emit e) := fun _ _ h => ⟨rfl, h.tell [e]⟩

theorem steady_emitAll {γ : Type} (f : γ → Event) (xs : List γ) :
    Steady c (xs.forM fun x => emit (f x)) := by
  intro s s' h
  rw [forM_emit, on_emitAll, on_emitAll]
  exact ⟨rfl, h.tell _⟩

theorem steady_fail (f : Failure) : Steady c (fail f : SwitchM α) := by
  intro s s' h
  rw [on_fail, on_fail]
  exact ⟨rfl, h.tellFailure f⟩

theorem steady_attempt {task : DiskTask ε α} (htask : task.Steady Nowhere c) :
    Steady c (attempt task) := by
  intro s s' h
  obtain ⟨hresult, halike⟩ := htask h.disk
  rw [on_attempt, on_attempt, hresult]
  exact ⟨rfl, h.move halike⟩

theorem steady_need {phase : Phase} {message : ε → String} {task : DiskTask ε α}
    (htask : task.Steady Nowhere c) : Steady c (need phase message task) := by
  refine (steady_attempt htask).bind fun result => ?_
  cases result with
  | error e => exact steady_fail _
  | ok a => exact steady_pure a

theorem steady_failDiscarding (folders : List Path) (phase : Phase) (message : String) :
    Steady c (failDiscarding folders phase message : SwitchM α) := by
  have discards (d d' : Disk) (h : View.Alike Nowhere c d.toView d'.toView) :
      View.Alike Nowhere c (folders.foldl Disk.discarded d).toView
        (folders.foldl Disk.discarded d').toView := by
    induction folders generalizing d d' with
    | nil => exact h
    | cons folder folders ih => exact ih _ _ (steady_removeFolder folder h).2
  intro s s' h
  rw [on_failDiscarding, on_failDiscarding]
  exact ⟨rfl, (h.move (discards _ _ h.disk)).tellFailure (.phase phase message)⟩

end SwitchM

open SwitchM

/-! ### The phases -/

section Phases

variable {m : Means} (hm : m.Steady c)
include hm

theorem steady_rename_by (source target : Path) : SwitchM.Steady c (rename m source target) := by
  intro s s' h
  obtain ⟨hresult, halike⟩ := hm.rename (s.renames + 1) source target h.disk
  rw [on_rename, on_rename, h.renames, hresult]
  exact ⟨rfl, halike, h.events, h.asked, rfl⟩

theorem steady_detect (r : Request) : SwitchM.Steady c (detect m r) := by
  refine (steady_emit _).bind fun _ => (steady_need hm.load).bind fun w => ?_
  cases w.project r.project with
  | error e => exact steady_fail _
  | ok p => exact steady_pure _

omit hm in
theorem steady_makePlan (p : Project) (r : Request) (d : Deployer) :
    SwitchM.Steady c (makePlan m p r d) := by
  refine steady_view (fun v v' h => ?_) fun v => ?_
  · have hblocked (plan : Plan) : plan.isBlocked v' = plan.isBlocked v := by
      rw [Plan.isBlocked, Plan.isBlocked, h.exists?_eq fun k _ => not_nowhere k]
    simp only [hblocked]
  · split
    · exact (steady_fail _).bind fun _ => (steady_emit _).bind fun _ => steady_pure _
    · exact (steady_emit _).bind fun _ => steady_pure _

omit hm in
theorem steady_confirm (r : Request) (name : String) (old : Option Path) :
    SwitchM.Steady c (confirm m r name old) := by
  cases old with
  | none => exact (steady_emit _).bind fun _ => steady_pure _
  | some folder =>
    refine (steady_emit _).bind fun _ => ?_
    split
    · exact steady_pure _
    · intro s s' h
      exact ⟨rfl, h.disk, h.events, congrArg (· ++ [(name, folder)]) h.asked, h.renames⟩

theorem steady_stage (d : Deployer) (name : String) (p : Project) (spec : Spec) :
    SwitchM.Steady c (stage m d name p spec) := by
  refine (steady_emit _).bind fun _ => (steady_need (hm.makeFolder _ _)).bind fun folder =>
    (steady_attempt (hm.generate _ _ _ _ _)).bind fun result => ?_
  rcases result with e | _ | ⟨file, files⟩
  · exact steady_failDiscarding _ _ _
  · exact steady_failDiscarding _ _ _
  · exact steady_pure _

theorem steady_retire (staging : Path) (old : Option Path) :
    SwitchM.Steady c (retire m staging old) := by
  cases old with
  | none => exact (steady_emit _).bind fun _ => steady_pure _
  | some folder =>
    refine (steady_emit _).bind fun _ =>
      (steady_attempt (hm.makeFolder _ _)).bind fun result => ?_
    rcases result with e | holder
    · exact steady_failDiscarding _ _ _
    refine (steady_rename_by hm _ _).bind fun result => ?_
    rcases result with e | _
    · exact steady_failDiscarding _ _ _
    · exact (steady_emit _).bind fun _ => steady_pure _

theorem steady_promote (name : String) (plan : Plan) (staging : Path) (files : List Path)
    (retired : Option Path) : SwitchM.Steady c (promote m name plan staging files retired) := by
  have hkeep : SwitchM.Steady c (modify fun s => { s with kept := some s.disk }) :=
    fun s s' h => ⟨rfl, h.disk, h.events, h.asked, h.renames⟩
  refine (steady_emit _).bind fun _ => hkeep.bind fun _ =>
    (steady_rename_by hm _ _).bind fun result => ?_
  rcases result with e | _
  · exact steady_fail _
  · exact (steady_emitAll _ _).bind fun _ => steady_pure _

theorem steady_record (name : String) (w : Workspace) (d : Deployer) (spec : Spec) (plan : Plan)
    (retired : Option Path) : SwitchM.Steady c (record m name w d spec plan retired) := by
  have hsaved : SwitchM.Steady c (modify fun s => { s with saved := some s.disk }) :=
    fun s s' h => ⟨rfl, h.disk, h.events, h.asked, h.renames⟩
  refine (steady_emit _).bind fun _ => ?_
  cases switchedWorkspace w name d spec with
  | error e => exact steady_fail _
  | ok w' =>
    refine (steady_attempt (hm.save w')).bind fun result => ?_
    rcases result with e | _
    · exact steady_fail _
    · exact hsaved.bind fun _ => steady_pure _

theorem steady_dispose (retired : Option Path) : SwitchM.Steady c (dispose m retired) := by
  cases retired with
  | none => exact steady_pure _
  | some folder =>
    refine (steady_attempt (hm.removeFolder folder)).bind fun result => ?_
    rcases result with e | _ <;> exact steady_pure _

theorem steady_refresh (w : Workspace) : SwitchM.Steady c (refresh m w) :=
  (steady_emit _).bind fun _ => (steady_need (hm.regenerate w _)).bind fun _ =>
    (steady_emitAll _ _).bind fun _ => steady_pure _

theorem steady_replace (r : Request) (w : Workspace) (p : Project) (d : Deployer) (plan : Plan)
    (old : Option Path) : SwitchM.Steady c (replace m r w p d plan old) :=
  (steady_stage hm _ _ _ _).bind fun _ => (steady_retire hm _ _).bind fun _ =>
    (steady_promote hm _ _ _ _ _).bind fun _ => (steady_record hm _ _ _ _ _ _).bind fun _ =>
      (steady_dispose hm _).bind fun _ => (steady_refresh hm _).bind fun _ =>
        (steady_emit _).bind fun _ => steady_pure _

theorem steady_execute (r : Request) : SwitchM.Steady c (execute m r) := by
  unfold execute
  cases Deployer.read r.deployer with
  | error id => exact steady_fail _
  | ok d =>
    refine (steady_detect hm r).bind fun ⟨w, p⟩ => ?_
    simp only
    split
    · exact (steady_emit _).bind fun _ => steady_pure _
    · refine (steady_makePlan _ r d).bind fun plan => steady_view (fun v v' h => ?_) fun v => ?_
      · have hold : plan.existing? v' = plan.existing? v := by
          unfold Plan.existing?
          congr 1
          funext folder
          exact h.exists?_eq fun k _ => not_nowhere k
        simp only [hold]
      · refine (steady_confirm r _ _).bind fun allowed => ?_
        split
        · exact (steady_replace hm r _ _ d plan _).bind fun _ => steady_pure _
        · exact steady_pure _

/-- On disks that hold the same a switch tells the same, asks the same and ends in the same way,
and the disks that it leaves hold the same. -/
theorem run_alike (r : Request) {d d' : Disk} (h : View.Alike Nowhere c d.toView d'.toView) :
    (run m r d').1 = (run m r d).1 ∧ (run m r d).2.Alike c (run m r d').2 := by
  have hstart : Progress.Alike c { disk := d } { disk := d' } := ⟨h, rfl, rfl, rfl⟩
  exact steady_execute hm r hstart

end Phases

end Rollout.Switch

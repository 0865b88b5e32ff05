import Mathlib.Tactic.Common
import Rollout.Proofs.Switch.Generator
import Rollout.Proofs.Workspace.Named

/-!
# Ends without effect

A switch that ends before its new files are moved to their place leaves every file as it was,
and nothing is done at all before the deletion of an old folder is allowed
(`early_end_is_atomic`).
-/

namespace Rollout.Switch

open Disk

variable {m : Means} {r : Request} {disk : Disk}

/-- Loading gives workspaces in which projects are named by their keys. -/
def Means.LoadsNamed (m : Means) : Prop := ∀ d w d', m.load.on d = (.ok w, d') → w.Named

/-- Loading gives workspaces as they are read from documents. -/
def Means.LoadsNormal (m : Means) : Prop := ∀ d w d', m.load.on d = (.ok w, d') → w.Normal

theorem Means.LoadsNormal.loadsNamed (h : m.LoadsNormal) : m.LoadsNamed :=
  fun d w d' hload => (h d w d' hload).named

/-- The ends of a switch that are to leave everything as it was. -/
def IsEarly : Except Failure Outcome → Prop
  | .ok (.alreadyActive _ _) => True
  | .ok (.cancelled _) => True
  | .ok (.switched _) => False
  | .error (.workspace _) => True
  | .error (.phase phase _) => phase = .detectOld ∨ phase = .stage ∨ phase = .removeOld
  | .error (.inconsistent ..) => False
  | .error (.unrecorded ..) => False

/-- The deletion of the old folder is declined. -/
def Opening.Declined (o : Opening m r disk) : Prop :=
  ∃ folder, o.old = some folder ∧ r.force = false ∧ m.approves o.project.name folder = false

theorem Opening.declined_iff (o : Opening m r disk) : o.Declined ↔ ¬ o.Allowed := by
  unfold Declined Allowed
  cases o.old with
  | none => simp
  | some folder => simp

/-- A project that is named by its key is found again by its name. -/
theorem switchedWorkspace_eq_ok {w : Workspace} {key : String} {p : Project} (hn : w.Named)
    (h : w.project key = .ok p) (d : Deployer) (spec : Spec) :
    p.name = key ∧ switchedWorkspace w p.name d spec =
      .ok { w with projects := w.projects.insert key (switchedProject p d spec) } := by
  obtain rfl : p.name = key := hn key p (Workspace.project_eq_ok.1 h)
  exact ⟨rfl, Workspace.update_eq_ok h⟩

/-- A switch that does not come to keep staged files only adds to the tree while it works, and
leaves it as it was. -/
theorem Course.restored (hm : m.Lawful) (hc : m.Confined r disk)
    {result : Except Failure Outcome} {s : Progress} (h : Course m r disk result s)
    (hkept : s.kept = none) :
    Through (Tree.Extends disk.tree) disk s.disk ∧
      ∀ k, s.disk.tree.get? k = disk.tree.get? k := by
  have unchanged {d : Disk} (heq : d = disk) :
      Through (Tree.Extends disk.tree) disk d ∧ ∀ k, d.tree.get? k = disk.tree.get? k := by
    rw [heq]
    exact ⟨.rest (.refl _), fun k => rfl⟩
  have loaded {found : Except StoreError Workspace} {base : Disk}
      (heq : m.load.on disk = (found, base)) : base = disk :=
    (congrArg Prod.snd heq).symm.trans (hm.load disk)
  have discarded {d : Disk} (hs : Staged m disk d) :
      Through (Tree.Extends disk.tree) disk (d.discarded (m.stagingPath disk.toView)) ∧
        ∀ k, (d.discarded (m.stagingPath disk.toView)).tree.get? k = disk.tree.get? k :=
    ⟨hs.through_discarded, hs.get?_discarded⟩
  cases h with
  | unread id h => exact unchanged rfl
  | unloaded d e base h hload =>
    rw [Progress.tellFailure_disk]
    exact unchanged (loaded hload)
  | unknown d w base e h hload hfind => exact unchanged (loaded hload)
  | active d w base p h hload hfind hactive => exact unchanged (loaded hload)
  | blocked d w base p h hload hfind hactive plan hplan hblocked =>
    rw [Progress.tellFailure_disk]
    exact unchanged (loaded hload)
  | declined o h => exact unchanged (o.base_eq hm)
  | unstaged o h e d hmake =>
    rw [Progress.tellFailure_disk, Progress.move_disk]
    exact unchanged ((hm.makeFolder_error hm.isName_stagingName hmake).trans (o.base_eq hm))
  | ungenerated o h folder made d message hmake hgenerate hnone =>
    obtain ⟨rfl, hs⟩ := staged_of_generate hm hc o hmake
    rw [Progress.tellFailure_disk, Progress.move_disk, ← hgenerate]
    exact discarded hs
  | unheld o h st old e d hold hmake =>
    obtain ⟨hfolder, hs⟩ := st.staged hm hc
    rw [Progress.tellFailure_disk, Progress.move_disk,
      hm.makeFolder_error hm.isName_retiredName hmake, hfolder]
    exact discarded hs
  | unmoved o h st old holder e made d hold hmake hmove =>
    obtain ⟨hfolder, hs⟩ := st.staged hm hc
    obtain ⟨rfl, hheld, rfl⟩ := held_of_makeFolder hm hs hmake
    have hd : d = withHolder m disk st.disk := by
      rcases hheld.rename_cases hm 1 old with ⟨e', heq⟩ | ⟨heq, -⟩
      · exact congrArg Prod.snd (hmove.symm.trans heq)
      · cases heq.symm.trans hmove
    rw [Progress.tellFailure_disk, Progress.move_disk, hd, hfolder]
    exact discarded hheld.staged_discarded
  | unpromoted o h st rt e d hmove => simp at hkept
  | lost o h st rt pr e hswitch => simp at hkept
  | unrecorded o h st rt pr w e d hswitch hsave => simp at hkept
  | unrefreshed o h st rt pr rc dp e d hregenerate => simp at hkept
  | done o h st rt pr rc dp workflows d hregenerate => simp at hkept

/-- A switch that ends early does not come to keep staged files. -/
theorem Course.kept_of_early {result : Except Failure Outcome} {s : Progress}
    (h : Course m r disk result s) (hearly : IsEarly result)
    (hnamed : m.LoadsNamed ∨ ∀ e, result ≠ .error (.workspace e)) : s.kept = none := by
  cases h with
  | unread id h | unknown d w base e h hload hfind | active d w base p h hload hfind hactive => rfl
  | unloaded d e base h hload | blocked d w base p h hload hfind hactive plan hplan hblocked =>
    simp
  | declined o h => rfl
  | unstaged o h | ungenerated o h | unheld o h | unmoved o h => simp
  | unpromoted o h | unrecorded o h | done o h => exact absurd hearly id
  | unrefreshed o h => simp [IsEarly] at hearly
  | lost o h st rt pr e hswitch =>
    rcases hnamed with hnamed | hnot
    · have hw := hnamed disk o.workspace o.base o.loading
      rw [(switchedWorkspace_eq_ok hw o.found o.deployer o.spec).2] at hswitch
      cases hswitch
    · exact absurd rfl (hnot e)

/-- Where a switch opens, it ends in no way that lies before that, and it is declined or goes on
as allowed. -/
theorem Course.opened {result : Except Failure Outcome} {s : Progress}
    (h : Course m r disk result s) (o : Opening m r disk) :
    (∃ name, result = .ok (.cancelled name)) ∧ s.disk = o.base ∧ ¬ o.Allowed ∨
      (∀ name, result ≠ .ok (.cancelled name)) ∧ s.asked = o.asked ∧ o.Allowed := by
  cases h with
  | unread id h => cases h.symm.trans o.read
  | unloaded d e base h hload => cases hload.symm.trans o.loading
  | unknown d w base e h hload hfind =>
    obtain ⟨rfl, rfl⟩ : w = o.workspace ∧ base = o.base := by simpa using hload.symm.trans o.loading
    cases hfind.symm.trans o.found
  | active d w base p h hload hfind hactive =>
    obtain ⟨rfl, rfl, rfl, rfl⟩ := o.found_eq h hload hfind
    rw [o.inactive] at hactive
    cases hactive
  | blocked d w base p h hload hfind hactive plan hplan hblocked =>
    obtain ⟨rfl, rfl, rfl, rfl⟩ := o.found_eq h hload hfind
    rw [hplan, o.free] at hblocked
    cases hblocked
  | declined o' h =>
    obtain rfl : o' = o := Subsingleton.elim _ _
    exact .inl ⟨⟨_, rfl⟩, rfl, h⟩
  | unstaged o' h | ungenerated o' h | unheld o' h | unmoved o' h | unpromoted o' h
  | lost o' h | unrecorded o' h | unrefreshed o' h | done o' h =>
    obtain rfl : o' = o := Subsingleton.elim _ _
    exact .inr ⟨by simp, by simp, h⟩

/-- A switch is cancelled only where it opens. -/
theorem Course.opening_of_cancelled {name : String} {s : Progress}
    (h : Course m r disk (.ok (.cancelled name)) s) : ∃ o : Opening m r disk, o.Declined := by
  cases h with
  | declined o h => exact ⟨o, o.declined_iff.2 h⟩

/-- An error about the workspace comes before anything is done. -/
theorem Course.disk_of_workspace_error (hm : m.Lawful) (hnamed : m.LoadsNamed) {e : WorkspaceError}
    {s : Progress} (h : Course m r disk (.error (.workspace e)) s) : s.disk = disk := by
  cases h with
  | unread id h => rfl
  | unknown d w base e h hload hfind => rw [← hm.load disk, hload]
  | lost o h st rt pr e hswitch =>
    have hw := hnamed disk o.workspace o.base o.loading
    rw [(switchedWorkspace_eq_ok hw o.found o.deployer o.spec).2] at hswitch
    cases hswitch

/-- What holds of the end of a switch, as far as it is an early one. -/
structure Atomic (m : Means) (r : Request) (disk : Disk) (result : Except Failure Outcome)
    (s : Progress) : Prop where
  /-- An early end leaves every file and folder as it was. -/
  unchanged : IsEarly result → (m.LoadsNamed ∨ ∀ e, result ≠ .error (.workspace e)) →
    ∀ l, s.disk.tree.get? l = disk.tree.get? l
  /-- An error about the workspace comes before anything is done. -/
  untouched : m.LoadsNamed → ∀ e, result = .error (.workspace e) → s.disk = disk
  cancelled : (∃ name, result = .ok (.cancelled name)) ↔ ∃ o : Opening m r disk, o.Declined
  /-- Nothing is done while there is an old folder whose deletion is not allowed. -/
  allowed : s.disk.journal ≠ disk.journal → ∀ (o : Opening m r disk) (folder : Path),
    o.old = some folder → r.force ∨
      m.approves o.project.name folder ∧ (o.project.name, folder) ∈ s.asked

/-- Every early end of a switch is atomic. -/
theorem early_end_is_atomic (hm : m.Lawful) (hc : m.Confined r disk) :
    Atomic m r disk (run m r disk).1 (run m r disk).2 := by
  have h := course m r disk
  generalize (run m r disk).1 = result at h ⊢
  generalize (run m r disk).2 = s at h ⊢
  refine ⟨fun hearly hnamed => (h.restored hm hc (h.kept_of_early hearly hnamed)).2,
    fun hnamed e he => ?_, ⟨?_, ?_⟩, fun hdone o folder hold => ?_⟩
  · subst he
    exact h.disk_of_workspace_error hm hnamed
  · rintro ⟨name, rfl⟩
    exact h.opening_of_cancelled
  · rintro ⟨o, hdeclined⟩
    rcases h.opened o with ⟨hcancelled, -⟩ | ⟨-, -, hallowed⟩
    · exact hcancelled
    · exact absurd hallowed (o.declined_iff.1 hdeclined)
  · rcases h.opened o with ⟨-, hdisk, -⟩ | ⟨-, hasked, hallowed⟩
    · rw [hdisk, o.base_eq hm] at hdone
      exact absurd rfl hdone
    · rw [hasked]
      rcases hallowed folder hold with hforce | happroves
      · exact .inl hforce
      · by_cases hforce : r.force
        · exact .inl hforce
        · exact .inr ⟨happroves, by simp [Opening.asked, hforce, hold]⟩

/-- The means of the program load workspaces as they are read from documents. -/
theorem loadsNormal_standard (f : Faults) (document : Path) (suffix : String)
    (approves : String → Path → Bool) :
    (f.applyTo (Means.standard document suffix approves)).LoadsNormal := by
  intro d w d' h
  rcases on_load document d with ⟨e, heq⟩ | ⟨text, w', heq, hread, -⟩
  · cases heq.symm.trans h
  · obtain rfl : w' = w := Except.ok.inj (congrArg Prod.fst (heq.symm.trans h))
    exact Document.normal_of_read hread

/-- The end of a switch in the phase that moves the old folder aside. -/
def isRetirementFailure : Except Failure Outcome → Bool
  | .error (.phase .removeOld _) => true
  | _ => false

theorem isEarly_of_isRetirementFailure {result : Except Failure Outcome}
    (h : isRetirementFailure result) : IsEarly result := by
  unfold isRetirementFailure at h
  split at h
  · exact .inr (.inr rfl)
  · cases h

/-- A switch whose move of the old folder is refused leaves everything as it was. -/
theorem refused_move_is_atomic :
    isRetirementFailure (run (Small.means (Small.refusing 1)) Small.request Small.start).1 ∧
      ∀ l, (run (Small.means (Small.refusing 1)) Small.request Small.start).2.disk.tree.get? l =
        Small.start.tree.get? l := by
  have hend : isRetirementFailure
      (run (Small.means (Small.refusing 1)) Small.request Small.start).1 := by
    decide +kernel
  have h := early_end_is_atomic (Small.lawful (Small.refusing 1))
    (Small.confined (Small.refusing 1))
  generalize run (Small.means (Small.refusing 1)) Small.request Small.start = result at h hend ⊢
  exact ⟨hend, h.unchanged (isEarly_of_isRetirementFailure hend)
    (.inl (loadsNormal_standard _ _ _ _).loadsNamed)⟩

end Rollout.Switch

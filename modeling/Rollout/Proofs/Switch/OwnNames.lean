import Mathlib.Tactic.Common
import Rollout.Proofs.FileTree.Alike
import Rollout.Proofs.Switch.FinalTree
import Rollout.Proofs.Switch.Reload

/-!
# Names for the folders of a switch

A switch makes folders of its own in the folder of the workspace, under names that nothing has and
that none of its paths goes through (`Opening.IsNew`). What is beside the rest of the workspace
under such names (`Means.Beside`) is not where the switch looks for the document, the workflow or
the new folder.
-/

namespace Rollout.Switch

open Location DiskTask Disk

variable {m : Means} {r : Request} {disk : Disk} {o : Opening m r disk}

/-- A name that a switch may give to a folder of its own: nothing has it yet. -/
structure Opening.IsNew (o : Opening m r disk) (name : String) : Prop where
  own : ∃ rest, name = ".keel-" ++ rest
  absent : disk.tree.get? (m.rootSpot disk ++ [name]) = none
  unforeseen : name ∉ disk.current ∧ name ∉ o.plan.newFolder.segments

/-- The places in the folder of the workspace that have one of these names, or are below it. -/
def Means.Beside (m : Means) (disk : Disk) (names : List String) (k : Location) : Prop :=
  ∃ name ∈ names, m.rootSpot disk ++ [name] <+: k

theorem Opening.IsNew.ne {name : String} (h : o.IsNew name) :
    name ≠ "" ∧ name ≠ ".github" ∧ ∀ n, name ≠ temporaryName n := by
  obtain ⟨rest, rfl⟩ := h.own
  refine ⟨fun heq => ?_, fun heq => ?_, fun n heq => ?_⟩
  · simpa using congrArg String.toList heq
  · simpa using congrArg String.toList heq
  · obtain ⟨digits, htmp⟩ : ∃ digits, temporaryName n = ".tmp" ++ digits := ⟨_, rfl⟩
    rw [htmp] at heq
    simpa using congrArg String.toList heq

section Beside

variable {names : List String} {k : Location}

theorem not_beside_entry {name : String} (hout : name ∉ names) (k : Location) :
    ¬ m.Beside disk names (m.rootSpot disk ++ [name] ++ k) := by
  rintro ⟨other, hother, hbelow⟩
  rw [List.append_assoc, List.prefix_append_right_inj] at hbelow
  obtain ⟨rest, hrest⟩ := hbelow
  obtain rfl : other = name := by simpa using congrArg List.head? hrest
  exact hout hother

theorem not_beside_name {name : String} (hout : name ∉ names) :
    ¬ m.Beside disk names (m.rootSpot disk ++ [name]) := by
  simpa using not_beside_entry (m := m) hout []

variable (hnew : ∀ name ∈ names, o.IsNew name)
include hnew

theorem not_beside_of_there (h : disk.tree.get? k ≠ none) : ¬ m.Beside disk names k := by
  rintro ⟨name, hname, hbelow⟩
  exact h (Tree.get?_under (hnew name hname).absent hbelow)

theorem not_beside_of_within (h : Within disk.current o.plan.newFolder k) :
    ¬ m.Beside disk names k := by
  rintro ⟨name, hname, hbelow⟩
  have hmem : name ∈ k := hbelow.subset (by simp)
  rcases h name hmem with hcurrent | hsegment | hempty
  · exact (hnew name hname).unforeseen.1 hcurrent
  · exact (hnew name hname).unforeseen.2 hsegment
  · exact (hnew name hname).ne.1 hempty

omit hnew in
theorem Opening.IsNew.not_within {name : String} (h : o.IsNew name) :
    ¬ Within disk.current o.plan.newFolder (m.rootSpot disk ++ [name]) := fun hwithin => by
  have hnew : ∀ other ∈ [name], o.IsNew other := by simpa using h
  exact not_beside_of_within hnew hwithin ⟨name, by simp, List.prefix_rfl⟩

theorem not_beside_visits (h : Visits disk.current o.plan.newFolder k) :
    ¬ m.Beside disk names k := not_beside_of_within hnew (h.within fun _ hn => .inl hn)

theorem not_beside_new (hout : ¬ o.newSpot <+: m.rootSpot disk) (k : Location) :
    ¬ m.Beside disk names (o.newSpot ++ k) := by
  rintro ⟨name, hname, hbelow⟩
  refine (entry_apart (fun hentry => ?_) hout k).1 hbelow
  exact not_beside_of_within hnew (within_newSpot o) ⟨name, hname, hentry⟩

variable (hp : disk.toView.Proper)
include hp

theorem not_beside_root (hm : m.Lawful) (hc : m.Confined r disk) (st : Staging o)
    (h : m.OnRootPath disk k) : ¬ m.Beside disk names k := by
  have hfolder := (st.staged hm hc).2.vacant.trail k ((mem_trail_staging hm hp).2 h)
  exact not_beside_of_there hnew (by rw [Tree.get?_of_isFolder hfolder]; simp)

theorem not_beside_document (hm : m.Lawful) (hc : m.Confined r disk) (hd : m.LoadsDocument)
    (st : Staging o) (h : Consulted disk.current m.document k) : ¬ m.Beside disk names k := by
  rcases h with h | h | ⟨n, rfl⟩
  · exact not_beside_root hnew hp hm hc st (onRootPath_of_visits hp h)
  · obtain ⟨content, hlocate, hfile⟩ := View.isFile_eq_true.1 (o.read_document hd).1
    refine not_beside_of_there hnew ?_
    rcases h with h | rfl
    · rw [Tree.get?_of_isFolder ((View.locate_eq_ok hlocate).1 k h)]
      simp
    · exact (View.locate_eq_ok hlocate).2
  · exact not_beside_name fun hmem => (hnew _ hmem).ne.2.2 n rfl

theorem not_beside_workflow (hm : m.Lawful) (hc : m.Confined r disk) (st : Staging o)
    (h : Consulted disk.current (Workflow.fileIn (Document.rootOf m.document)) k) :
    ¬ m.Beside disk names k := by
  have hout : ".github" ∉ names := fun hmem => (hnew _ hmem).ne.2.1 rfl
  have hway {k : Location} (h : k ∈ trail ((Document.rootOf m.document).origin disk.current)
      (Document.rootOf m.document).segments ∨ k <+: m.workflowSpot disk) :
      ¬ m.Beside disk names k := by
    rcases h with h | h
    · exact not_beside_root hnew hp hm hc st (onRootPath_of_mem_trail hp h)
    · rintro ⟨name, hname, hbelow⟩
      have hentry := hbelow.trans h
      rw [m.workflowSpot_eq, List.prefix_append_right_inj] at hentry
      obtain rfl : name = ".github" := by simpa [Workflow.location] using hentry
      exact hout hname
  rcases h with h | (h | h) | ⟨n, h⟩
  · exact hway (Workflow.visits_fileIn h)
  · exact hway (Workflow.trail_fileIn h)
  · have hspot : k = m.workflowSpot disk := h
    exact hway (.inr (hspot ▸ List.prefix_rfl))
  · rw [(Workflow.folder_fileIn _ _).1] at h
    have hentry : ¬ m.Beside disk names (m.rootSpot disk ++ [".github"] ++
      ["workflows", temporaryName n]) := not_beside_entry hout _
    rw [List.append_assoc] at h hentry
    exact fun hk => hentry (h ▸ hk)

end Beside

end Rollout.Switch

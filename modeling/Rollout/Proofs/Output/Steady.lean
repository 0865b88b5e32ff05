import Mathlib.Tactic.Common
import Rollout.Proofs.FileTree.Alike
import Rollout.Proofs.FileTree.Inner
import Rollout.Proofs.Output.Files

/-!
# Output on disks that are alike

The document, the workflow and lists of files are written in the same way on disks that hold the
same where their writes look (`steady_writeFiles`). For a file that is seen from a folder by an
inward path that is on the way to the folder and inside it (`Path.IsInward.consulted`).
-/

namespace Rollout

open Location DiskTask Disk

variable {A : Location → Prop} {c : Location}

theorem steady_writeFiles (n : Nat) (files : List (Path × String))
    (hA : ∀ file ∈ files, ∀ k, Consulted c file.1 k → ¬ A k) :
    Steady A c (writeFiles .never n files) := by
  induction files generalizing n with
  | nil => exact steady_pure _
  | cons file files ih =>
    obtain ⟨p, content⟩ := file
    have hfirst : Steady A c (WriteFaults.never.write n p content) :=
      steady_write (hA (p, content) (by simp))
    have hrest := ih (n + 1) fun file hfile => hA file (by simp [hfile])
    exact (hfirst.adapt _).bind fun _ => hrest.bind fun _ => steady_pure _

/-- A write at an inward path of a folder looks only at the way to the folder and into it. -/
theorem Path.IsInward.consulted {rel : Path} (h : rel.IsInward) {dest : Path} {k : Location}
    (hk : Consulted c (dest.join rel) k) :
    k ∈ trail (dest.origin c) dest.segments ∨ dest.spot c <+: k := by
  obtain ⟨⟨r, hfolder⟩, htrail⟩ := h.folder_join dest c
  have inside {r : Location} (hr : k = dest.spot c ++ r) : dest.spot c <+: k :=
    hr ▸ List.prefix_append _ _
  rcases hk with (hk | hk) | (hk | hk) | ⟨n, hk⟩
  · exact (htrail k hk).imp_right fun ⟨r, hr⟩ => inside hr
  · exact .inr (inside (hk.trans hfolder))
  · refine ((mem_trail_join dest h.relative c k).1 hk).imp_right fun hk => ?_
    rw [trail_of_staysBelow h.below] at hk
    obtain ⟨r, -, hr⟩ := List.mem_map.1 hk
    exact inside hr.symm
  · exact .inr (inside (hk.trans (h.spot_join dest c)))
  · rw [hfolder, List.append_assoc] at hk
    exact .inr (inside hk)

namespace Document

theorem steady_load {document : Path} (hA : ∀ k, Visits c document k → ¬ A k) :
    Steady A c (load document) := by
  refine ((steady_read hA).adapt _).bind fun content => ?_
  cases (read document content).mapError StoreError.invalid with
  | error e => exact steady_throw e
  | ok w => exact steady_pure w

theorem steady_save {document : Path} (w : Workspace)
    (hA : ∀ k, Consulted c document k → ¬ A k) : Steady A c (save .never document w) :=
  (steady_write hA).adapt _

end Document

theorem Workflow.steady_regenerate (w : Workspace) {root : Path}
    (hA : ∀ k, Consulted c (fileIn root) k → ¬ A k) : Steady A c (regenerate .never w root) := by
  refine steady_writeFiles 1 _ fun file hfile => ?_
  unfold files at hfile
  cases hjobs : jobs w with
  | nil => simp [hjobs] at hfile
  | cons job rest =>
    obtain rfl : file = (root.join path, header ++ (toYaml (job :: rest)).write) := by
      simpa [hjobs] using hfile
    exact hA

theorem DeployFiles.steady_generate (d : Deployer) (name : String) (p : Project)
    (options : OptionMap) {dest : Path}
    (hA : ∀ file ∈ files d name p options, ∀ k, Consulted c (dest.join file.1) k → ¬ A k) :
    Steady A c (generate .never d name p options dest) := by
  unfold generate
  refine steady_writeFiles 1 _ fun file hfile => ?_
  obtain ⟨inner, hmem, heq⟩ := List.mem_map.1 hfile
  rw [← heq]
  exact hA inner hmem

end Rollout

import Mathlib.Tactic.Common
import Rollout.Proofs.FileTree.Inner
import Rollout.Proofs.Output.Files

/-!
# Files written into two folders

A list of files that is written into two folders which hold the same leaves them holding the same
(`sameBelow_writeFiles`), wherever the folders are: a write that works puts its file at the end of
the way to it, folders on the way, and nothing else (`get?_write`).
-/

namespace Rollout

open Location DiskTask Disk

/-- What is below one location of a tree is below another location of another tree. -/
def Tree.SameBelow (t : Tree) (a : Location) (t' : Tree) (b : Location) : Prop :=
  ∀ k, t'.get? (b ++ k) = t.get? (a ++ k)

namespace Disk

variable {d e : Disk} {p : Path} {content : String}

/-- After a write the folders on the way to the file are there, and nothing else is new. -/
theorem get?_write (hp : p.text ≠ "") {names : List String} {last : String}
    (hsegs : p.segments = names ++ [last]) (hlast : Path.isIdle last = false)
    (h : (write p content).on d = (.ok (), e)) {k : Location} (hk : k ≠ p.spot d.current) :
    e.tree.get? k =
      if k ∈ trail (p.origin d.current) p.segments then some .folder else d.tree.get? k := by
  rcases write_cases p content d with ⟨_, _, heq, -⟩ | ⟨_, heq, hthrough, hwritten⟩
  · cases heq.symm.trans h
  · obtain rfl : _ = e := congrArg Prod.snd (heq.symm.trans h)
    obtain ⟨-, hlocate, -⟩ := read_eq_ok.1 (read_of_write h)
    have hway := (View.locate_eq_ok hlocate).1
    rw [hthrough.current] at hway
    obtain ⟨hspot, htrail⟩ := Path.spot_folder hp hsegs hlast d.current
    split_ifs with hk'
    · exact Tree.get?_of_isFolder (hway k hk')
    · rcases hwritten.others k hk with hsame | ⟨hvisits | rfl, -, -⟩
      · exact hsame
      · exact absurd (htrail k hvisits) hk'
      · refine absurd ?_ hk'
        rw [hsegs, trail_append, show walk _ _ = _ from hspot]
        simp [trail]

end Disk

namespace Path.IsInward

variable {rel : Path} (h : rel.IsInward) {dest : Path} {c : Location}
include h

/-- Below a folder the way to one of its files is the way from it. -/
theorem mem_trail_join_below (hout : ∀ s ∈ trail (dest.origin c) dest.segments,
    ¬ dest.spot c <+: s) (k : Location) :
    dest.spot c ++ k ∈ trail ((dest.join rel).origin c) (dest.join rel).segments ↔
      k ∈ trail [] rel.segments := by
  have hjoin := mem_trail_join dest h.relative c (dest.spot c ++ k)
  have hinside : dest.spot c ++ k ∈ trail (dest.spot c) rel.segments ↔
      k ∈ trail [] rel.segments := by
    rw [trail_of_staysBelow h.below]
    simp
  rw [← hinside]
  constructor
  · intro hk
    rcases hjoin.1 hk with hway | hway
    · exact absurd (List.prefix_append _ k) (hout _ hway)
    · exact hway
  · exact hjoin.2.2

/-- What a write of a file into a folder leaves there depends only on what was there. -/
theorem get?_write_join (hout : ∀ s ∈ trail (dest.origin c) dest.segments, ¬ dest.spot c <+: s)
    {content : String} {d e : Disk} (hc : d.current = c)
    (hwrite : (write (dest.join rel) content).on d = (.ok (), e)) (k : Location) :
    e.tree.get? (dest.spot c ++ k) =
      if k = walk [] rel.segments then some (.file (.text content))
      else if k ∈ trail [] rel.segments then some .folder
      else d.tree.get? (dest.spot c ++ k) := by
  subst hc
  have hspot := h.spot_join dest d.current
  split_ifs with hk hway
  · rcases write_cases (dest.join rel) content d with ⟨_, _, heq, -⟩ | ⟨_, heq, -, hwritten⟩
    · cases heq.symm.trans hwrite
    · obtain rfl : _ = e := congrArg Prod.snd (heq.symm.trans hwrite)
      rw [hk, ← hspot]
      exact hwritten.file
  all_goals
    obtain ⟨names, last, hsegs, hlast, -⟩ := h.ends
    obtain ⟨xs, -, -, -, hjoin⟩ := segments_join dest h.relative
    rw [hsegs, ← List.append_assoc] at hjoin
    rw [Disk.get?_write (h.text_join dest) hjoin hlast hwrite
      fun heq => hk (List.append_cancel_left (heq.trans hspot))]
  · exact if_pos ((h.mem_trail_join_below hout k).2 hway)
  · exact if_neg fun hmem => hway ((h.mem_trail_join_below hout k).1 hmem)

end Path.IsInward

section Folders

variable {files : List (Path × String)} {dest dest' : Path} {c c' : Location}
  (hinward : ∀ file ∈ files, file.1.IsInward)
  (hout : ∀ s ∈ trail (dest.origin c) dest.segments, ¬ dest.spot c <+: s)
  (hout' : ∀ s ∈ trail (dest'.origin c') dest'.segments, ¬ dest'.spot c' <+: s)
include hinward hout hout'

/-- The same files, written into folders that hold the same, leave them holding the same. -/
theorem sameBelow_writeFiles {faults faults' : WriteFaults} {n n' : Nat} {d d' e e' : Disk}
    {paths paths' : List Path} (hc : d.current = c) (hc' : d'.current = c')
    (hsame : Tree.SameBelow d.tree (dest.spot c) d'.tree (dest'.spot c'))
    (h : (writeFiles faults n (files.map fun file => (dest.join file.1, file.2))).on d =
      (.ok paths, e))
    (h' : (writeFiles faults' n' (files.map fun file => (dest'.join file.1, file.2))).on d' =
      (.ok paths', e')) :
    Tree.SameBelow e.tree (dest.spot c) e'.tree (dest'.spot c') := by
  induction files generalizing n n' d d' paths paths' with
  | nil =>
    obtain rfl : d = e := congrArg Prod.snd h
    obtain rfl : d' = e' := congrArg Prod.snd h'
    exact hsame
  | cons file files ih =>
    obtain ⟨d₁, rest, hwrite, hcurrent, -, hrest, -⟩ := writeFiles_cons_ok h
    obtain ⟨d₁', rest', hwrite', hcurrent', -, hrest', -⟩ := writeFiles_cons_ok h'
    have hfile := hinward file (by simp)
    refine ih (fun file hfile => hinward file (by simp [hfile])) (hcurrent.trans hc)
      (hcurrent'.trans hc') (fun k => ?_) hrest hrest'
    rw [hfile.get?_write_join hout hc hwrite, hfile.get?_write_join hout' hc' hwrite', hsame k]

end Folders

end Rollout

import Mathlib.Tactic.Common
import Rollout.Proofs.FileTree.Above
import Rollout.Proofs.FileTree.Write
import Rollout.Workspace.Store

/-!
# Whole files

Wherever a write is refused, the files are those that were there; where it is not, the new file is
there whole beside the others (`WholeOrNot`). Nothing else is new but folders that were missing on
the way. A file that can be in a folder that is there can be written.
-/

namespace Rollout

open Location DiskTask

namespace Disk

/-! ### What is kept -/

/-- The files are those that were there, some locations aside, and nothing else is new but folders
that were missing on the way to a folder. -/
structure Preserved (but : Location → Prop) (folder : Path) (d d' : Disk) : Prop where
  files : ∀ k, ¬ but k → ∀ content,
    d'.tree.get? k = some (.file content) ↔ d.tree.get? k = some (.file content)
  folders : ∀ k, d.tree.isFolder k → d'.tree.isFolder k
  made : ∀ k, d'.tree.isFolder k →
    d.tree.isFolder k ∨ d.tree.get? k = none ∧ Visits d.current folder k
  current : d'.current = d.current

section

variable {but : Location → Prop} {p folder : Path} {content : String} {d d' : Disk}

/-- It is enough to know the entries elsewhere, if no folder is or was at those locations. -/
theorem preserved_of_others
    (hothers : ∀ k, ¬ but k → d'.tree.get? k = d.tree.get? k ∨
      Visits d.current folder k ∧ d.tree.get? k = none ∧ d'.tree.get? k = some .folder)
    (hbut : ∀ k, but k → d.tree.isFolder k = false ∧ d'.tree.isFolder k = false)
    (hc : d'.current = d.current) : Preserved but folder d d' where
  files k hk content := by
    rcases hothers k hk with h | ⟨-, hnone, hfolder⟩
    · rw [h]
    · simp [hnone, hfolder]
  folders k hfolder := by
    by_cases hk : but k
    · rw [(hbut k hk).1] at hfolder
      cases hfolder
    · rcases hothers k hk with h | ⟨-, -, hmade⟩
      · rwa [Tree.isFolder, h]
      · exact decide_eq_true hmade
  made k hfolder := by
    by_cases hk : but k
    · rw [(hbut k hk).2] at hfolder
      cases hfolder
    · rcases hothers k hk with h | ⟨hvisits, hnone, -⟩
      · rw [Tree.isFolder, h] at hfolder
        exact .inl hfolder
      · exact .inr ⟨hnone, hvisits⟩
  current := hc

theorem preserved_of_grows (h : Tree.Grows (Visits d.current folder) d.tree d'.tree)
    (hc : d'.current = d.current) : Preserved (fun _ => False) folder d d' :=
  preserved_of_others (fun k _ => h k) (fun _ hk => hk.elim) hc

theorem preserved_of_written (h : Written d p content d'.tree) (hc : d'.current = d.current) :
    Preserved (· = p.spot d.current) p.folder d d' := by
  refine preserved_of_others h.others (fun k hk => ?_) hc
  subst hk
  exact ⟨h.replaced, by simp [Tree.isFolder, h.file]⟩

end

/-- How a write may end: with the file there whole and the other files kept, or with all files
kept. -/
inductive WholeOrNot {ε : Type} (p : Path) (content : String) (d : Disk) :
    Except ε Unit × Disk → Prop
  | whole {d' : Disk} (file : (read p).on d' = (.ok content, d'))
      (others : Preserved (· = p.spot d.current) p.folder d d') :
      WholeOrNot p content d (.ok (), d')
  | not {e : ε} {d' : Disk} (files : Preserved (fun _ => False) p.folder d d') :
      WholeOrNot p content d (.error e, d')

theorem wholeOrNot_write (p : Path) (content : String) (d : Disk) :
    WholeOrNot p content d ((write p content).on d) := by
  rcases write_cases p content d with ⟨e, d', h, hthrough, hgrows⟩ | ⟨d', h, hthrough, hwritten⟩
  · rw [h]
    exact .not (preserved_of_grows hgrows hthrough.current)
  · rw [h]
    exact .whole (read_of_write h) (preserved_of_written hwritten hthrough.current)

theorem WholeOrNot.mapError {ε ε' : Type} {p : Path} {content : String} {d : Disk}
    {result : Except ε Unit × Disk} (h : WholeOrNot p content d result) (f : ε → ε') :
    WholeOrNot p content d (result.1.mapError f, result.2) := by
  cases h with
  | whole file others => exact .whole file others
  | not files => exact .not files

/-- A document is saved whole or not at all, also where its write is refused. -/
theorem wholeOrNot_save (faults : WriteFaults) (p : Path) (w : Workspace) (d : Disk) :
    WholeOrNot p (Document.write w) d ((Document.save faults p w).on d) := by
  have hwrite : WholeOrNot p (Document.write w) d
      ((faults.write 1 p (Document.write w)).on d) := by
    unfold WriteFaults.write
    split
    · exact .not (preserved_of_grows (.refl _ _) rfl)
    · exact wholeOrNot_write p _ d
  rw [Document.save, on_adapt]
  exact hwrite.mapError _

/-! ### What can be written -/

/-- No name that may be tried for a temporary file in a folder makes a path that is unusable. -/
def TemporaryFits (d : Disk) (folder : Path) : Prop :=
  ∀ n ≤ (d.tree.entriesOf (folder.spot d.current)).length,
    View.isUnusable ((fromTop d.toView folder).child (temporaryName n)) = false

instance (d : Disk) (folder : Path) : Decidable (TemporaryFits d folder) :=
  inferInstanceAs (Decidable (∀ n ≤ _, _))

section

variable {v : View} {p : Path} {content : String} {d : Disk} {l : Location}

theorem isUnusable_folder {names : List String} {last : String} (htext : p.text ≠ "")
    (hsegs : p.segments = names ++ [last]) (hlast : Path.isIdle last = false)
    (husable : View.isUnusable p = false) : View.isUnusable p.folder = false := by
  have hne : last ≠ "" := by
    rintro rfl
    cases hlast
  obtain ⟨q, hq, habove⟩ := exists_above htext (Path.last?_eq hsegs (by simp) hne).1 hlast
  rw [Path.folder, hq]
  simp only
  split_ifs with hempty
  · decide +kernel
  · rcases habove with ⟨hnone, -⟩ | ⟨-, habove⟩
    · exact absurd hnone hempty
    · exact habove.usable husable

/-- Where a file can be, the folder is there. -/
theorem locate_folder (h : fileLocation? v p = .ok l) :
    v.locate p.folder = .ok (p.folder.spot v.current) ∧
      v.tree.isFolder (p.folder.spot v.current) := by
  obtain ⟨names, last, folder, hsegs, hlast, hfollow, hfolder, htext, husable, -⟩ :=
    lead_of_fileLocation? h
  have hspot : p.folder.spot v.current = folder := by
    rw [(Path.spot_folder htext hsegs hlast v.current).1, (Tree.follow_eq_ok hfollow).1]
  have hunusable := isUnusable_folder htext hsegs hlast husable
  refine hspot ▸ ⟨?_, hfolder⟩
  rw [View.locate, if_neg (folder_text_ne p), if_neg (by simp [hunusable])]
  exact Path.follow_folder htext hsegs hlast hfollow hfolder

/-- A file can still be where it can be, when there is another file that was not there. -/
theorem fileLocation?_put {k : Location} {c : Content} (h : fileLocation? v p = .ok l)
    (hnone : v.tree.get? k = none) (hf : v.tree.isFolder k.dropLast) :
    fileLocation? { v with tree := v.tree.put k (.file c) } p = .ok l := by
  obtain ⟨pl, hpl, hl, hslashed, hfree⟩ := fileLocation?_eq_ok h
  obtain ⟨last, hn⟩ := View.name_of_location? hl
  have hplace : View.place { v with tree := v.tree.put k (.file c) } p = .ok pl :=
    View.place_mono hpl hn rfl fun s _ hs => (Tree.extends_put hnone hf).isFolder hs
  have hfree' : (v.tree.put k (.file c)).isFolder l = false := by
    rw [Tree.isFolder, Tree.get?_put_absent hnone hf]
    split_ifs
    · rfl
    · exact hfree
  simp only [fileLocation?, hplace, hl, hslashed, hfree', bind, Except.bind]
  rfl

theorem addTemporary_ok (content : String) {folder : Path} (h : d.locate folder = .ok l)
    (hfits : TemporaryFits d folder) :
    ∃ name, d.tree.get? (l ++ [name]) = none ∧ (addTemporary folder content).on d =
      (.ok (l ++ [name]), d.after (.put (l ++ [name]) (.file (.text content)))) := by
  obtain rfl := View.locate_eq_spot h
  let entries := d.tree.entriesOf (folder.spot d.current)
  obtain ⟨n, -, hn, hname, -⟩ := unusedName_spec entries entries.length 0
  have husable := hfits n (by rwa [Nat.zero_add] at hn)
  refine ⟨unusedName entries entries.length 0, get?_of_has (has_unusedName entries), ?_⟩
  rw [on_addTemporary, h]
  simp only
  rw [hname, if_neg (by simp [husable])]

/-- A file can be written where one can be, in a folder that is there. -/
theorem write_ok (h : fileLocation? d.toView p = .ok l) (hfits : TemporaryFits d p.folder) :
    ((write p content).on d).1 = .ok () := by
  obtain ⟨hlocate, hfolder⟩ := locate_folder h
  obtain ⟨name, hnone, hadd⟩ := addTemporary_ok content hlocate hfits
  have hthere : fileLocation?
      (d.after (.put (p.folder.spot d.current ++ [name]) (.file (.text content)))).toView p =
        .ok l :=
    fileLocation?_put h hnone (by simpa using hfolder)
  rw [on_write, makeFolders_of_locate hlocate hfolder]
  simp only [hadd, hthere]

end

/-- A write ends with the file there whole or with all files as they were, and so does the saving
of a document. It ends with the file there where one can be in a folder that is there, if there is
a name for the temporary file. -/
theorem files_whole :
    (∀ p content d, WholeOrNot p content d ((write p content).on d)) ∧
    (∀ faults p w d, WholeOrNot p (Document.write w) d ((Document.save faults p w).on d)) ∧
    ∀ (p : Path) (content : String) (d : Disk) (l : Location),
      fileLocation? d.toView p = .ok l → TemporaryFits d p.folder →
        ((write p content).on d).1 = .ok () :=
  ⟨wholeOrNot_write, wholeOrNot_save, fun _ _ _ _ => write_ok⟩

/-- A folder with a file in it and another that an earlier write has left behind. -/
def leftBehind : Disk :=
  .ofTree ⟨[("w", .folder [(".tmp000000", .file (.text "ne")), ("a.txt", .file (.text "old"))])]⟩
    ["w"]

/-- A file beside what an earlier write has left is replaced. -/
theorem replaced_beside_left :
    ∃ d', (write ⟨"a.txt"⟩ "new").on leftBehind = (.ok (), d') ∧
      (read ⟨"a.txt"⟩).on d' = (.ok "new", d') ∧
      d'.tree.get? ["w", ".tmp000000"] = some (.file (.text "ne")) := by
  have hok := files_whole.2.2 ⟨"a.txt"⟩ "new" leftBehind ["w", "a.txt"] (by decide +kernel)
    (by decide +kernel)
  cases hend : (write ⟨"a.txt"⟩ "new").on leftBehind with
  | mk result d' =>
    have hwhole := files_whole.1 ⟨"a.txt"⟩ "new" leftBehind
    rw [hend] at hok hwhole
    cases hwhole with
    | not files => cases hok
    | whole file others =>
      exact ⟨d', rfl, file, (others.files _ (by decide +kernel) _).2 (by decide +kernel)⟩

end Disk
end Rollout

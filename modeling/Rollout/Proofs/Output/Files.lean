import Mathlib.Tactic.Common
import Rollout.Output.DeployFiles
import Rollout.Output.Workflow
import Rollout.Proofs.FileTree.Write

/-!
# Written files

How the document, the workflow and lists of files are written. The document and the workflow are
one write each; a list of files changes only what one of its writes touches
(`through_writeFiles`).
-/

namespace Rollout

open Location DiskTask Disk

/-- A write of a component ends as a write does, refused or not. -/
theorem WriteFaults.write_cases (faults : WriteFaults) (n : Nat) (p : Path) (content : String)
    (d : Disk) :
    (∃ e d', (faults.write n p content).on d = (.error e, d') ∧ Through (WritingInVain d p) d d' ∧
      Tree.Grows (Visits d.current p.folder) d.tree d'.tree) ∨
    ∃ d', (faults.write n p content).on d = (.ok (), d') ∧ Through (Writing d p) d d' ∧
      Written d p content d'.tree := by
  unfold WriteFaults.write
  split
  · rename_i e _
    have hgrows : Tree.Grows (Visits d.current p.folder) d.tree d.tree := .refl _ _
    exact .inl ⟨e, d, rfl, .rest (writingInVain_of_grows hgrows), hgrows⟩
  · exact Disk.write_cases p content d

theorem Document.save_cases (faults : WriteFaults) (document : Path) (w : Workspace) (d : Disk) :
    (∃ e d', (save faults document w).on d = (.error e, d') ∧
      Through (WritingInVain d document) d d' ∧
      Tree.Grows (Visits d.current document.folder) d.tree d'.tree) ∨
    ∃ d', (save faults document w).on d = (.ok (), d') ∧ Through (Writing d document) d d' ∧
      Written d document (write w) d'.tree := by
  rw [save, on_adapt]
  rcases faults.write_cases 1 document (write w) d with ⟨e, d', h, hend⟩ | ⟨d', h, hend⟩
  · exact .inl ⟨_, d', by rw [h]; rfl, hend⟩
  · exact .inr ⟨d', by rw [h]; rfl, hend⟩

namespace Workflow

/-- The file of the workflow of a workspace. -/
def fileIn (root : Path) : Path := root.join path

/-- Where the workflow is, from the folder of the workspace. -/
def location : Location := [".github", "workflows", "keel-deploy.yml"]

theorem spot_fileIn (root : Path) (c : Location) :
    (fileIn root).spot c = root.spot c ++ location := by
  rw [fileIn, Path.spot_join root (by decide)]
  exact Path.walk_names (by decide)

/-- The folder of the workflow, and the way to it. -/
theorem folder_fileIn (root : Path) (c : Location) :
    (fileIn root).folder.spot c = root.spot c ++ [".github", "workflows"] ∧
      ∀ s ∈ trail ((fileIn root).folder.origin c) (fileIn root).folder.segments,
        s ∈ trail ((fileIn root).origin c) (fileIn root).segments := by
  obtain ⟨xs, -, -, -, hsegs⟩ := Path.segments_join root
    (by decide : path.isAbsolute = false)
  have hsplit : (fileIn root).segments =
      (xs ++ [".github", "workflows"]) ++ ["keel-deploy.yml"] := by
    rw [fileIn, hsegs, List.append_assoc]
    rfl
  have htext : (fileIn root).text ≠ "" := Path.text_join_ne root (by decide)
  obtain ⟨hfolder, htrail⟩ := Path.spot_folder htext hsplit (by decide) c
  refine ⟨?_, htrail⟩
  have hspot : (fileIn root).folder.spot c ++ ["keel-deploy.yml"] =
      root.spot c ++ [".github", "workflows"] ++ ["keel-deploy.yml"] := by
    rw [hfolder, List.append_assoc]
    have hend := spot_fileIn root c
    rw [Path.spot, hsplit, walk_append _ _ ["keel-deploy.yml"]] at hend
    exact hend
  exact List.append_cancel_right hspot

theorem trail_fileIn {root : Path} {c k : Location}
    (h : k ∈ trail ((fileIn root).origin c) (fileIn root).segments) :
    k ∈ trail (root.origin c) root.segments ∨ k <+: (fileIn root).spot c := by
  rcases (Path.mem_trail_join root (by decide) c k).1 h with h | h
  · exact .inl h
  · right
    have hk : k = root.spot c ∨ k = root.spot c ++ [".github"] ∨
        k = root.spot c ++ [".github"] ++ ["workflows"] := by
      simpa [show path.segments = location from rfl, location, trail, Location.step,
        Path.isIdle] using h
    rw [spot_fileIn]
    rcases hk with rfl | rfl | rfl <;> simp [location, List.prefix_append_right_inj]

/-- Folders are made for the workflow in the folder of the workspace only. -/
theorem visits_fileIn {root : Path} {c k : Location} (h : Visits c (fileIn root).folder k) :
    k ∈ trail (root.origin c) root.segments ∨ k <+: (fileIn root).spot c := by
  obtain ⟨hfolder, htrail⟩ := folder_fileIn root c
  rcases h with h | h
  · exact trail_fileIn (htrail k h)
  · right
    rw [show k = _ from h, ← Path.spot, hfolder, spot_fileIn, List.prefix_append_right_inj]
    exact ⟨["keel-deploy.yml"], rfl⟩

/-- The text of the workflow. -/
def text (w : Workspace) : String := header ++ (toYaml (jobs w)).write

/-- The workflow is one file, and where it cannot be written the workflow is not regenerated. -/
theorem on_regenerate (faults : WriteFaults) (w : Workspace) (root : Path) (d : Disk)
    (h : jobs w ≠ []) :
    (regenerate faults w root).on d =
      match (faults.write 1 (fileIn root) (text w)).on d with
      | (.ok _, d') => (.ok [fileIn root], d')
      | (.error e, d') => (.error (.write (fileIn root) e.message), d') := by
  obtain ⟨job, rest, hjobs⟩ := List.exists_cons_of_ne_nil h
  have htext : header ++ (toYaml (job :: rest)).write = text w := by rw [text, hjobs]
  unfold regenerate files
  simp only [hjobs, List.map_cons, List.map_nil, writeFiles]
  rw [← fileIn, htext, on_bind, on_adapt]
  rcases (faults.write 1 (fileIn root) (text w)).on d with ⟨_ | _, d'⟩ <;> rfl

theorem regenerate_cases (faults : WriteFaults) (w : Workspace) (root : Path) (d : Disk) :
    jobs w = [] ∧ (regenerate faults w root).on d = (.ok [], d) ∨
    jobs w ≠ [] ∧
      ((∃ e d', (regenerate faults w root).on d = (.error e, d') ∧
        Through (WritingInVain d (fileIn root)) d d' ∧
        Tree.Grows (Visits d.current (fileIn root).folder) d.tree d'.tree) ∨
      ∃ d', (regenerate faults w root).on d = (.ok [fileIn root], d') ∧
        Through (Writing d (fileIn root)) d d' ∧ Written d (fileIn root) (text w) d'.tree) := by
  by_cases hjobs : jobs w = []
  · refine .inl ⟨hjobs, ?_⟩
    unfold regenerate files
    rw [hjobs]
    rfl
  · refine .inr ⟨hjobs, ?_⟩
    rw [on_regenerate faults w root d hjobs]
    rcases faults.write_cases 1 (fileIn root) (text w) d with ⟨e, d', h, hend⟩ | ⟨d', h, hend⟩
    · exact .inl ⟨_, d', by rw [h], hend⟩
    · exact .inr ⟨d', by rw [h], hend⟩

/-- A refused write of the workflow changes nothing. -/
theorem regenerate_eq_never (faults : WriteFaults) (w : Workspace) (root : Path) (d : Disk) :
    (regenerate faults w root).on d = (regenerate .never w root).on d ∨
      ∃ e, (regenerate faults w root).on d = (.error e, d) := by
  unfold regenerate files
  cases jobs w with
  | nil => exact .inl rfl
  | cons job jobs =>
    simp only [List.map_cons, List.map_nil, writeFiles, WriteFaults.write]
    cases faults 1 (root.join path) with
    | none => exact .inl rfl
    | some e => exact .inr ⟨_, rfl⟩

end Workflow

/-! ### Lists of files -/

/-- Writing files changes only what each of the writes touches. -/
theorem through_writeFiles {A : Location → Prop} (faults : WriteFaults) (n : Nat)
    (files : List (Path × String)) (d : Disk)
    (hA : ∀ file ∈ files, ∀ d' : Disk, d'.current = d.current → Tree.SameOff A d.tree d'.tree →
      ∀ k, Touched d' file.1 k → A k) :
    Through (Tree.SameOff A d.tree) d ((writeFiles faults n files).on d).2 := by
  induction files generalizing n d with
  | nil => exact .rest (.refl _ _)
  | cons file files ih =>
    obtain ⟨p, content⟩ := file
    have hsame := hA (p, content) (by simp) d rfl (.refl _ _)
    rw [writeFiles, on_bind, on_adapt]
    rcases faults.write_cases n p content d with ⟨e, d', h, hthrough, -⟩ | ⟨d', h, hthrough, -⟩
    · rw [h]
      exact hthrough.mono fun t ht => ht.same.mono hsame
    · rw [h]
      simp only [Except.mapError]
      rw [on_bind]
      have hfirst : Through (Tree.SameOff A d.tree) d d' :=
        hthrough.mono fun t ht => ht.same.mono hsame
      have hrest := ih (n + 1) d' fun file hfile d'' hc hd'' =>
        hA file (by simp [hfile]) d'' (hc.trans hthrough.current) (hfirst.last.trans hd'')
      have hall := hfirst.trans (hrest.mono fun t ht => hfirst.last.trans ht)
      generalize (writeFiles faults (n + 1) files).on d' = rest at hall
      obtain ⟨_ | _, d''⟩ := rest <;> exact hall

/-- Away from the places of the files, writing them makes new folders at most. -/
theorem get?_writeFiles_of_ne (faults : WriteFaults) (n : Nat) (files : List (Path × String))
    (d : Disk) {k : Location} (hk : ∀ file ∈ files, k ≠ file.1.spot d.current) :
    ((writeFiles faults n files).on d).2.tree.get? k = d.tree.get? k ∨
      d.tree.get? k = none ∧ ((writeFiles faults n files).on d).2.tree.get? k = some .folder := by
  induction files generalizing n d with
  | nil => exact .inl rfl
  | cons file files ih =>
    obtain ⟨p, content⟩ := file
    rw [writeFiles, on_bind, on_adapt]
    rcases faults.write_cases n p content d with ⟨e, d', h, -, hgrows⟩ | ⟨d', h, hthrough, hwritten⟩
    · rw [h]
      exact (hgrows k).imp_right fun ⟨_, hnone, hfolder⟩ => ⟨hnone, hfolder⟩
    · rw [h]
      simp only [Except.mapError]
      rw [on_bind]
      have hfirst := hwritten.others k (hk (p, content) (by simp))
      have hrest := ih (n + 1) d' fun file hfile => by
        rw [hthrough.current]
        exact hk file (by simp [hfile])
      generalize (writeFiles faults (n + 1) files).on d' = rest at hrest
      have hend : rest.2.tree.get? k = d.tree.get? k ∨
          d.tree.get? k = none ∧ rest.2.tree.get? k = some .folder := by
        rcases hfirst with hfirst | ⟨-, hnone, hfolder⟩
        · rwa [hfirst] at hrest
        · rcases hrest with hrest | ⟨hnone', -⟩
          · exact .inr ⟨hnone, hrest.trans hfolder⟩
          · rw [hfolder] at hnone'
            cases hnone'
      obtain ⟨_ | _, d''⟩ := rest <;> exact hend

theorem WriteFaults.write_ok {faults : WriteFaults} {n : Nat} {p : Path} {content : String}
    {d d' : Disk} (h : (faults.write n p content).on d = (.ok (), d')) :
    (Disk.write p content).on d = (.ok (), d') := by
  unfold WriteFaults.write at h
  split at h
  · cases h
  · exact h

/-- Where files are written, the first of them is written and then the others are. -/
theorem writeFiles_cons_ok {faults : WriteFaults} {n : Nat} {file : Path × String}
    {files : List (Path × String)} {d d' : Disk} {paths : List Path}
    (h : (writeFiles faults n (file :: files)).on d = (.ok paths, d')) :
    ∃ d₁ rest, (Disk.write file.1 file.2).on d = (.ok (), d₁) ∧ d₁.current = d.current ∧
      Written d file.1 file.2 d₁.tree ∧ (writeFiles faults (n + 1) files).on d₁ = (.ok rest, d') ∧
      paths = file.1 :: rest := by
  rw [writeFiles, on_bind, on_adapt] at h
  rcases faults.write_cases n file.1 file.2 d with ⟨e, d₁, heq, -⟩ | ⟨d₁, heq, hthrough, hwritten⟩
  · rw [heq] at h
    cases h
  · rw [heq] at h
    simp only [Except.mapError] at h
    rw [on_bind] at h
    rcases hrest : (writeFiles faults (n + 1) files).on d₁ with ⟨e | rest, d₂⟩
    · rw [hrest] at h
      cases h
    · rw [hrest] at h
      obtain rfl : d₂ = d' := congrArg Prod.snd h
      obtain rfl : file.1 :: rest = paths := Except.ok.inj (congrArg Prod.fst h)
      exact ⟨d₁, rest, WriteFaults.write_ok heq, hthrough.current, hwritten, hrest, rfl⟩

/-- When all files are written, each is there at its path, and so are those that were there. -/
theorem isFile_of_writeFiles {faults : WriteFaults} {n : Nat} {files : List (Path × String)}
    {d d' : Disk} {paths : List Path} (h : (writeFiles faults n files).on d = (.ok paths, d')) :
    d'.current = d.current ∧ (∀ p, d.isFile p → d'.isFile p) ∧
      ∀ file ∈ files, d'.isFile file.1 := by
  induction files generalizing n d d' paths with
  | nil =>
    cases h
    exact ⟨rfl, fun _ hp => hp, by simp⟩
  | cons file files ih =>
    obtain ⟨d₁, rest, hwrite, hc, hwritten, hrest, -⟩ := writeFiles_cons_ok h
    have hfirst : d₁.isFile file.1 := Disk.isFile_of_read (Disk.read_of_write hwrite)
    obtain ⟨hcurrent, hstay, hall⟩ := ih hrest
    refine ⟨hcurrent.trans hc, fun q hq => hstay q (hwritten.isFile hc hq), ?_⟩
    intro other hother
    rcases List.mem_cons.1 hother with rfl | hother
    · exact hstay _ hfirst
    · exact hall other hother

/-- The paths of all files are returned, in order. -/
theorem paths_of_writeFiles {faults : WriteFaults} {n : Nat} {files : List (Path × String)}
    {d d' : Disk} {paths : List Path}
    (h : (writeFiles faults n files).on d = (.ok paths, d')) : paths = files.map (·.1) := by
  induction files generalizing n d d' paths with
  | nil =>
    cases h
    rfl
  | cons file files ih =>
    obtain ⟨d₁, rest, -, -, -, hrest, rfl⟩ := writeFiles_cons_ok h
    rw [ih hrest, List.map_cons]

/-- Where files are written, the last of them are written after the others. -/
theorem writeFiles_append_ok {faults : WriteFaults} {n : Nat} {before after : List (Path × String)}
    {d d' : Disk} {paths : List Path}
    (h : (writeFiles faults n (before ++ after)).on d = (.ok paths, d')) :
    ∃ d₁ rest, d₁.current = d.current ∧
      (writeFiles faults (n + before.length) after).on d₁ = (.ok rest, d') := by
  induction before generalizing n d paths with
  | nil => exact ⟨d, paths, rfl, h⟩
  | cons file before ih =>
    obtain ⟨d₁, rest, -, hc, -, hrest, -⟩ := writeFiles_cons_ok h
    obtain ⟨d₂, rest', hc', hafter⟩ := ih hrest
    refine ⟨d₂, rest', hc'.trans hc, ?_⟩
    rwa [List.length_cons, Nat.add_comm before.length, ← Nat.add_assoc]

/-- What is read at a path is read there again, where the files that are written in its place have
the same content. -/
theorem read_writeFiles_of_same {faults : WriteFaults} {n : Nat} {files : List (Path × String)}
    {d d' : Disk} {paths : List Path} (h : (writeFiles faults n files).on d = (.ok paths, d'))
    {p : Path} {content : String} (hread : (Disk.read p).on d = (.ok content, d))
    (hsame : ∀ file ∈ files, file.1.spot d.current = p.spot d.current → file.2 = content) :
    (Disk.read p).on d' = (.ok content, d') := by
  induction files generalizing n d d' paths with
  | nil =>
    cases h
    exact hread
  | cons file files ih =>
    obtain ⟨d₁, rest, -, hc, hwritten, hrest, -⟩ := writeFiles_cons_ok h
    refine ih hrest ?_ fun file hfile => hc ▸ hsame file (List.mem_cons_of_mem _ hfile)
    refine Disk.read_mono hread hc (fun s _ hs => hwritten.writing.keeps.isFolder hs) ?_
    have hthere := (Disk.read_eq_ok.1 hread).2.2
    by_cases hspot : file.1.spot d.current = p.spot d.current
    · rw [hthere, ← hspot, hwritten.file, hsame file List.mem_cons_self hspot]
    · rcases hwritten.others _ (Ne.symm hspot) with hkept | ⟨-, hnone, -⟩
      · exact hkept
      · rw [hthere] at hnone
        cases hnone

/-- Each file is read at its path, where all that are written in one place have one content. -/
theorem read_writeFiles {faults : WriteFaults} {n : Nat} {files : List (Path × String)}
    {d d' : Disk} {paths : List Path} (h : (writeFiles faults n files).on d = (.ok paths, d'))
    {p : Path} {content : String} (hfile : (p, content) ∈ files)
    (hsame : ∀ file ∈ files, file.1.spot d.current = p.spot d.current → file.2 = content) :
    (Disk.read p).on d' = (.ok content, d') := by
  induction files generalizing n d paths with
  | nil => cases hfile
  | cons first files ih =>
    obtain ⟨d₁, rest, hwrite, hc, -, hrest, -⟩ := writeFiles_cons_ok h
    have hsame' : ∀ file ∈ files, file.1.spot d₁.current = p.spot d₁.current →
        file.2 = content := fun file hfile => hc ▸ hsame file (List.mem_cons_of_mem _ hfile)
    rcases List.mem_cons.1 hfile with rfl | hfile
    · exact read_writeFiles_of_same hrest (Disk.read_of_write hwrite) hsame'
    · exact ih hrest hfile hsame'

/-- A file that was not there before was written by one of the writes. -/
theorem get?_writeFiles (faults : WriteFaults) (n : Nat) (files : List (Path × String)) (d : Disk)
    {k : Location} {content : Content}
    (h : ((writeFiles faults n files).on d).2.tree.get? k = some (.file content)) :
    d.tree.get? k = some (.file content) ∨
      ∃ file ∈ files, k.getLast? = file.1.segments.getLast? := by
  induction files generalizing n d with
  | nil => exact .inl h
  | cons file files ih =>
    obtain ⟨p, text⟩ := file
    rw [writeFiles, on_bind, on_adapt] at h
    rcases faults.write_cases n p text d with ⟨e, d', heq, -, hgrows⟩ | ⟨d', heq, -, hwritten⟩
    · rw [heq] at h
      rcases hgrows k with hk | ⟨-, -, hk⟩
      · exact .inl (hk.symm.trans h)
      · cases hk.symm.trans h
    · have hrest : d'.tree.get? k = some (.file content) ∨
          ∃ file ∈ files, k.getLast? = file.1.segments.getLast? := by
        refine ih (n + 1) d' ?_
        rw [heq] at h
        simp only [Except.mapError] at h
        rw [on_bind] at h
        generalize (writeFiles faults (n + 1) files).on d' = rest at h ⊢
        obtain ⟨_ | _, d''⟩ := rest <;> exact h
      rcases hrest with hk | ⟨file, hfile, hk⟩
      · obtain ⟨last, hlast, hspot⟩ := hwritten.named
        by_cases hkp : k = p.spot d.current
        · exact .inr ⟨(p, text), by simp, by rw [hkp, hspot, hlast, List.getLast?_concat]⟩
        · rcases hwritten.others k hkp with hk' | ⟨-, -, hk'⟩
          · exact .inl (hk'.symm.trans hk)
          · cases hk'.symm.trans hk
      · exact .inr ⟨file, by simp [hfile], hk⟩

end Rollout

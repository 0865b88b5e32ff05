import Mathlib.Algebra.Order.BigOperators.Group.List
import Mathlib.Algebra.Order.Group.Nat
import Mathlib.Tactic.Common
import Rollout.Proofs.FileTree.Inner
import Rollout.Proofs.Output.Files

/-!
# Where deployment files go

The files of a deployer are seen from the folder that they are generated into. Where no key of a
configuration leads above that folder everything that is generated is inside it
(`through_generate`), and for other keys there are folders out of which they lead
(`stays_iff`). A file has one of a few names in any case (`get?_generate`).
-/

namespace Rollout

open Location DiskTask Disk

namespace DeployFiles

variable {d : Deployer} {name : String} {p : Project} {options : OptionMap}

/-- The names of the files for a deployer. -/
def fileNames : List String :=
  ["Chart.yaml", "values.yaml", "firebase.json", ".firebaserc", "service.yaml", "config.yaml"]

theorem isName_of_mem_fileNames : ∀ name ∈ fileNames, Path.IsName name := by decide

/-- The configurations that get a file of their own. -/
def overlayKeys (d : Deployer) (p : Project) : List String :=
  match d with
  | .helm | .cloudRun => (configurations p).keys
  | .firebase => []

theorem overlayKeys_subset : overlayKeys d p ⊆ (configurations p).keys := by
  cases d <;> simp [overlayKeys]

/-- The path of the overlay of a configuration. -/
def overlayPath (fileName key : String) : Path := ((Path.mk "envs").child key).child fileName

/-- A key leads from the folder of the overlays nowhere above the folder that it is in. -/
def KeyStays (key : String) : Prop :=
  (Path.mk key).isAbsolute = false ∧ staysBelow 1 (Path.mk key).segments

instance (key : String) : Decidable (KeyStays key) := inferInstanceAs (Decidable (_ ∧ _))

theorem keyStays_of_isName {key : String} (h : Path.IsName key) : KeyStays key :=
  ⟨Path.isAbsolute_name h, staysBelow_names (by simpa [Path.segments_name h] using h)⟩

theorem mem_overlayFiles {fileName : String} {file : Path × String} :
    file ∈ overlayFiles fileName p → ∃ key ∈ (configurations p).keys,
      file.1 = overlayPath fileName key := by
  intro h
  obtain ⟨⟨key, overlay⟩, hmem, rfl⟩ := List.mem_map.1 h
  exact ⟨key, List.mem_map_of_mem hmem, rfl⟩

/-- A file for a deployer is a base file or the overlay of a configuration. -/
theorem mem_files {file : Path × String} (h : file ∈ files d name p options) :
    ∃ fileName ∈ fileNames, file.1 = ⟨fileName⟩ ∨
      ∃ key ∈ overlayKeys d p, file.1 = overlayPath fileName key := by
  cases d with
  | helm =>
    rcases List.mem_append.1 h with h | h
    · have h : file.1 = ⟨"Chart.yaml"⟩ ∨ file.1 = ⟨"values.yaml"⟩ := by
        simp only [helmBase, List.mem_cons, List.not_mem_nil, or_false] at h
        exact h.imp (congrArg Prod.fst) (congrArg Prod.fst)
      rcases h with h | h
      · exact ⟨_, by decide, .inl h⟩
      · exact ⟨_, by decide, .inl h⟩
    · exact ⟨"values.yaml", by decide, .inr (mem_overlayFiles h)⟩
  | firebase =>
    have h : file.1 = ⟨"firebase.json"⟩ ∨ file.1 = ⟨".firebaserc"⟩ := by
      simp only [files, firebaseFiles, List.mem_cons, List.not_mem_nil, or_false] at h
      exact h.imp (congrArg Prod.fst) (congrArg Prod.fst)
    rcases h with h | h
    · exact ⟨_, by decide, .inl h⟩
    · exact ⟨_, by decide, .inl h⟩
  | cloudRun =>
    rcases List.mem_append.1 h with h | h
    · have h : file.1 = ⟨"service.yaml"⟩ := congrArg Prod.fst (List.mem_singleton.1 h)
      exact ⟨_, by decide, .inl h⟩
    · exact ⟨"config.yaml", by decide, .inr (mem_overlayFiles h)⟩

/-- Each configuration that gets a file has one among the files. -/
theorem exists_overlay {key : String} (h : key ∈ overlayKeys d p) :
    ∃ fileName ∈ fileNames, ∃ file ∈ files d name p options,
      file.1 = overlayPath fileName key := by
  have overlay (fileName : String) (hkey : key ∈ (configurations p).keys) :
      ∃ file ∈ overlayFiles fileName p, file.1 = overlayPath fileName key := by
    obtain ⟨⟨key', overlay⟩, hmem, rfl⟩ := List.mem_map.1 hkey
    exact ⟨_, List.mem_map_of_mem hmem, rfl⟩
  cases d with
  | helm =>
    obtain ⟨file, hfile, hpath⟩ := overlay "values.yaml" h
    exact ⟨"values.yaml", by decide, file, List.mem_append_right _ hfile, hpath⟩
  | firebase => cases h
  | cloudRun =>
    obtain ⟨file, hfile, hpath⟩ := overlay "config.yaml" h
    exact ⟨"config.yaml", by decide, file, List.mem_append_right _ hfile, hpath⟩

theorem isInner_of_mem_files (hkeys : ∀ key ∈ (configurations p).keys, Path.IsName key)
    {file : Path × String} (h : file ∈ files d name p options) : file.1.IsInner := by
  obtain ⟨fileName, hname, hfile⟩ := mem_files h
  have hname := isName_of_mem_fileNames fileName hname
  rcases hfile with hfile | ⟨key, hkey, hfile⟩
  · exact hfile ▸ .ofName hname
  · have henvs : (Path.mk "envs").IsInner := .ofName (by decide)
    exact hfile ▸ (henvs.child (hkeys key (overlayKeys_subset hkey))).child hname

/-! ### Keys that stay and keys that leave -/

theorem isInward_overlayPath {fileName key : String} (hname : Path.IsName fileName)
    (h : KeyStays key) : (overlayPath fileName key).IsInward := by
  obtain ⟨hrelative, hbelow⟩ := h
  obtain ⟨xs, ys, hsplit, hys, hjoin⟩ := Path.segments_join ⟨"envs"⟩ hrelative
  rw [show (Path.mk "envs").segments = ["envs"] from rfl] at hsplit
  have hsegs : ((Path.mk "envs").child key).segments = "envs" :: (Path.mk key).segments := by
    cases xs with
    | nil =>
      have hidle := hys "envs" (by rw [List.nil_append] at hsplit; simp [← hsplit])
      cases hidle
    | cons x xs =>
      obtain ⟨rfl, hrest⟩ := List.cons.inj hsplit
      rw [Path.child, hjoin, (List.append_eq_nil_iff.1 hrest.symm).1]
      rfl
  refine Path.isInward_child (Path.isAbsolute_join _ hrelative) ?_ hsegs rfl hname
  rw [hsegs]
  exact hbelow

theorem isInward_of_mem_files (hkeys : ∀ key ∈ overlayKeys d p, KeyStays key)
    {file : Path × String} (h : file ∈ files d name p options) : file.1.IsInward := by
  obtain ⟨fileName, hname, hfile⟩ := mem_files h
  have hname := isName_of_mem_fileNames fileName hname
  rcases hfile with hfile | ⟨key, hkey, hfile⟩
  · exact hfile ▸ (Path.IsInner.ofName hname).isInward
  · exact hfile ▸ isInward_overlayPath hname (hkeys key hkey)

/-- Whatever the keys are, some file stays inside. -/
theorem exists_inward : ∃ file ∈ files d name p options, file.1.IsInward := by
  have base {fileName content : String} (hname : fileName ∈ fileNames)
      (hmem : (⟨fileName⟩, content) ∈ files d name p options) :
      ∃ file ∈ files d name p options, file.1.IsInward :=
    ⟨_, hmem, (Path.IsInner.ofName (isName_of_mem_fileNames _ hname)).isInward⟩
  cases d with
  | helm => exact base (by decide) (List.mem_append_left _ List.mem_cons_self)
  | firebase => exact base (by decide) List.mem_cons_self
  | cloudRun => exact base (by decide) (List.mem_append_left _ List.mem_cons_self)

/-- There are more names than any list has. -/
theorem exists_name_notMem (names : List String) : ∃ n, Path.IsName n ∧ n ∉ names := by
  have htoList : (String.ofList (List.replicate ((names.map String.length).sum + 1) 'x')).toList =
      'x' :: List.replicate (names.map String.length).sum 'x' := by
    rw [String.toList_ofList, List.replicate_succ]
  generalize String.ofList (List.replicate ((names.map String.length).sum + 1) 'x') = n at htoList
  refine ⟨n, ⟨?_, ?_, ?_, ?_⟩, fun hmem => ?_⟩
  · rintro rfl
    cases htoList
  · rintro rfl
    simp at htoList
  · rintro rfl
    simp at htoList
  · simp [htoList, List.mem_replicate]
  · have hle := List.le_sum_of_mem (List.mem_map_of_mem (f := String.length) hmem)
    have hlength : n.length = (names.map String.length).sum + 1 := by
      rw [← String.length_toList, htoList]
      simp
    omega

/-- An overlay is the entry of its name where the key leads, seen from any folder. -/
theorem spot_overlayPath {fileName key : String} (hname : Path.IsName fileName) (dest : Path)
    (c : Location) : (dest.join (overlayPath fileName key)).spot c =
      (dest.join ((Path.mk "envs").child key)).spot c ++ [fileName] := by
  unfold overlayPath
  generalize (Path.mk "envs").child key = p
  cases habsolute : p.isAbsolute with
  | true =>
    have hchild : (p.child fileName).isAbsolute := by
      rw [Path.child, Path.isAbsolute_join p (Path.isAbsolute_name hname), habsolute]
    rw [show dest.join p = p from if_pos (.inl habsolute),
      show dest.join (p.child fileName) = p.child fileName from if_pos (.inl hchild),
      Path.spot_child hname]
  | false =>
    have hchild : (p.child fileName).isAbsolute = false := by
      rw [Path.child, Path.isAbsolute_join p (Path.isAbsolute_name hname), habsolute]
    obtain ⟨xs, ys, hsplit, hys, hsegs⟩ := Path.segments_join p (Path.isAbsolute_name hname)
    rw [Path.spot_join dest habsolute, Path.spot_join dest hchild, Path.child, hsegs, hsplit,
      Path.segments_name hname, walk_append, walk_append, walk_idle hys, walk_cons, hname.step,
      walk_nil]

/-- For a key that does not stay there is a folder out of which it leads. -/
theorem exists_left {fileName key : String} (hname : Path.IsName fileName) (h : ¬ KeyStays key) :
    ∃ dest : Path, ∀ c, ¬ dest.spot c <+: (dest.join (overlayPath fileName key)).spot c := by
  obtain ⟨n, hn, hfresh⟩ := exists_name_notMem (fileName :: (Path.mk key).segments)
  rw [List.mem_cons, not_or] at hfresh
  obtain ⟨hsegs, habsolute⟩ : (Path.ofSegments true [n]).segments = [n] ∧
      (Path.ofSegments true [n]).isAbsolute = true :=
    Path.segments_ofSegments (by simp) (by simpa using hn.2.2.2) (by simp)
  have hspot (c : Location) : (Path.ofSegments true [n]).spot c = [n] := by
    rw [Path.spot, Path.origin, if_pos habsolute, hsegs, Path.walk_names (by simpa using hn)]
    rfl
  refine ⟨Path.ofSegments true [n], fun c => ?_⟩
  rw [spot_overlayPath hname, hspot]
  have hleft : ¬ [n] <+: ((Path.ofSegments true [n]).join ((Path.mk "envs").child key)).spot c := by
    cases hkey : (Path.mk key).isAbsolute with
    | true =>
      have hchild : (Path.mk "envs").child key = ⟨key⟩ := if_pos (.inl hkey)
      have hjoin : (Path.ofSegments true [n]).join ⟨key⟩ = ⟨key⟩ := if_pos (.inl hkey)
      rw [hchild, hjoin, Path.spot, Path.origin, if_pos hkey]
      exact not_prefix_walk hfresh.2 (by simp)
    | false =>
      have hbelow : staysBelow 1 (Path.mk key).segments = false := by simpa [KeyStays, hkey] using h
      have hrelative : ((Path.mk "envs").child key).isAbsolute = false :=
        Path.isAbsolute_join ⟨"envs"⟩ hkey
      have hwalk : walk [n] ((Path.mk "envs").child key).segments =
          walk (n :: ["envs"]) (Path.mk key).segments := by
        have hchild := Path.spot_join ⟨"envs"⟩ hkey [n]
        rwa [Path.spot, ← Path.child, Path.origin, hrelative] at hchild
      rw [Path.spot_join _ hrelative, hspot, hwalk]
      exact leaves hfresh.2 hbelow
  have hlast : ¬ [n] <+: walk (((Path.ofSegments true [n]).join
      ((Path.mk "envs").child key)).spot c) [fileName] :=
    not_prefix_walk (by simpa using hfresh.1) hleft
  rwa [walk_cons, hname.step] at hlast

/-- The files of a project stay inside every folder exactly if all its keys stay. -/
theorem stays_iff : (∀ key ∈ overlayKeys d p, KeyStays key) ↔
    ∀ (dest : Path) (c : Location), ∀ file ∈ files d name p options,
      dest.spot c <+: (dest.join file.1).spot c := by
  constructor
  · intro hkeys dest c file hfile
    rw [(isInward_of_mem_files hkeys hfile).spot_join]
    exact List.prefix_append _ _
  · intro hstay key hkey
    by_contra hnot
    obtain ⟨fileName, hname, file, hfile, hpath⟩ : ∃ fileName ∈ fileNames,
        ∃ file ∈ files d name p options, file.1 = overlayPath fileName key := exists_overlay hkey
    obtain ⟨dest, hdest⟩ := exists_left (isName_of_mem_fileNames fileName hname) hnot
    refine hdest [] ?_
    rw [← hpath]
    exact hstay dest [] file hfile

/-- Files are generated inside the folder that they are generated into, where all keys stay. -/
theorem through_generate (faults : WriteFaults) {dest : Path} {disk : Disk}
    (hkeys : ∀ key ∈ overlayKeys d p, KeyStays key)
    (hdest : disk.tree.isFolder (dest.spot disk.current))
    (htrail : ∀ s ∈ trail (dest.origin disk.current) dest.segments,
      disk.tree.isFolder s ∧ ¬ dest.spot disk.current <+: s) :
    Through (Tree.SameOff
        (fun k => dest.spot disk.current <+: k ∧ k ≠ dest.spot disk.current) disk.tree) disk
      ((generate faults d name p options dest).on disk).2 := by
  refine through_writeFiles faults 1 _ disk fun file hfile disk' hc hsame k hk => ?_
  obtain ⟨⟨rel, content⟩, hmem, rfl⟩ := List.mem_map.1 hfile
  have hinward : rel.IsInward := isInward_of_mem_files hkeys hmem
  have hdest' : disk'.tree.isFolder (dest.spot disk'.current) := by
    rw [hc, hsame.isFolder fun h => h.2 rfl, hdest]
  have htrail' : ∀ s ∈ trail (dest.origin disk'.current) dest.segments,
      disk'.tree.isFolder s := by
    rw [hc]
    intro s hs
    rw [hsame.isFolder fun h => (htrail s hs).2 h.1, (htrail s hs).1]
  have htouched := hinward.touched hdest' htrail' hk
  rwa [hc] at htouched

/-- Where none of the files goes there are new folders at most. -/
theorem get?_generate_of_ne (faults : WriteFaults) {dest : Path} {disk : Disk} {k : Location}
    (hk : ∀ file ∈ files d name p options, k ≠ (dest.join file.1).spot disk.current) :
    ((generate faults d name p options dest).on disk).2.tree.get? k = disk.tree.get? k ∨
      disk.tree.get? k = none ∧
        ((generate faults d name p options dest).on disk).2.tree.get? k = some .folder := by
  refine get?_writeFiles_of_ne faults 1 _ disk fun file hfile => ?_
  obtain ⟨⟨rel, content⟩, hmem, rfl⟩ := List.mem_map.1 hfile
  exact hk (rel, content) hmem

/-- The paths that are returned are those of the files, seen from the folder. -/
theorem paths_of_generate {faults : WriteFaults} {dest : Path} {disk disk' : Disk}
    {paths : List Path}
    (h : (generate faults d name p options dest).on disk = (.ok paths, disk')) :
    paths = ((files d name p options).map (·.1)).map dest.join := by
  rw [paths_of_writeFiles h, List.map_map, List.map_map]
  rfl

/-- Each of them leads to a file. -/
theorem isFile_of_generate {faults : WriteFaults} {dest : Path} {disk disk' : Disk}
    {paths : List Path}
    (h : (generate faults d name p options dest).on disk = (.ok paths, disk')) :
    ∀ p ∈ paths, disk'.isFile p := by
  intro path hpath
  rw [paths_of_writeFiles h] at hpath
  obtain ⟨file, hfile, rfl⟩ := List.mem_map.1 hpath
  exact (isFile_of_writeFiles h).2.2 file hfile

theorem getLast?_join {p q : Path} : (p.join q).segments.getLast? = q.segments.getLast? := by
  by_cases hq : q.isAbsolute
  · rw [Path.join, if_pos (.inl hq)]
  · obtain ⟨xs, ys, -, -, hsegs⟩ := Path.segments_join p (by simpa using hq)
    rw [hsegs, List.getLast?_append, List.getLast?_eq_some_getLast q.segments_ne_nil]
    rfl

/-- Whatever the configurations are called, a file that was generated has one of the names of
the files for a deployer. -/
theorem get?_generate (faults : WriteFaults) {dest : Path} {disk : Disk} {k : Location}
    {content : Content}
    (h : ((generate faults d name p options dest).on disk).2.tree.get? k = some (.file content)) :
    disk.tree.get? k = some (.file content) ∨
      ∃ fileName ∈ fileNames, k.getLast? = some fileName := by
  refine (get?_writeFiles faults 1 _ disk h).imp_right ?_
  rintro ⟨file, hfile, hlast⟩
  obtain ⟨⟨rel, content⟩, hmem, rfl⟩ := List.mem_map.1 hfile
  obtain ⟨fileName, hname, hrel⟩ := mem_files hmem
  have hsegs : (Path.mk fileName).segments = [fileName] :=
    Path.segments_name (isName_of_mem_fileNames fileName hname)
  refine ⟨fileName, hname, ?_⟩
  rcases hrel with rfl | ⟨key, -, rfl⟩
  · rw [hlast, getLast?_join, hsegs]
    rfl
  · rw [hlast, getLast?_join, overlayPath, Path.child, getLast?_join, hsegs]
    rfl

end DeployFiles

end Rollout

import Mathlib.Tactic.Common
import Rollout.Proofs.FileTree.Move

/-!
# Writing files

A write puts its file in place whole: at every moment the old file or the new one is there, and
all else stays as it was but for folders on the way and a temporary file, which is gone at the
end (`write_cases`).
-/

namespace Rollout

open Location DiskTask

namespace Disk

/-! ### Names for temporary files -/

theorem temporaryName_injective {m n : Nat} (h : temporaryName m = temporaryName n) : m = n := by
  have hlist := congrArg String.toList h
  simp only [temporaryName, String.toList_append, String.toList_ofList,
    List.append_cancel_left_eq] at hlist
  have hvalue := congrArg (Nat.ofDigitChars 10 · 0) hlist
  simpa [Nat.ofDigitChars_append, Nat.ofDigitChars_replicate_zero,
    Nat.ofDigitChars_ten_toDigits] using hvalue

/-- The search passes only names that are taken. -/
theorem unusedName_spec (entries : Dict Node) (tries n : Nat) :
    ∃ k, n ≤ k ∧ k ≤ n + tries ∧ unusedName entries tries n = temporaryName k ∧
      (∀ j, n ≤ j → j < k → entries.has (temporaryName j)) ∧
      (k < n + tries → entries.has (temporaryName k) = false) := by
  induction tries generalizing n with
  | zero => exact ⟨n, by omega, by omega, rfl, fun j _ _ => by omega, fun _ => by omega⟩
  | succ tries ih =>
    rw [unusedName]
    split
    · rename_i htaken
      obtain ⟨k, hnk, hk, heq, hbefore, hfree⟩ := ih (n + 1)
      refine ⟨k, by omega, by omega, heq, fun j hj hjk => ?_, fun hlt => hfree (by omega)⟩
      by_cases hjn : j = n
      · exact hjn ▸ htaken
      · exact hbefore j (by omega) hjk
    · rename_i hfree
      exact ⟨n, by omega, by omega, rfl, fun j _ _ => by omega, fun _ => by simpa using hfree⟩

theorem mem_keys_of_has {α : Type} {key : String} {d : Dict α} (h : d.has key) : key ∈ d.keys := by
  induction d with
  | nil => simp [Dict.has, Dict.get?] at h
  | cons e rest ih =>
    obtain ⟨k, v⟩ := e
    by_cases hk : k = key
    · simp [Dict.keys, hk]
    · have := ih (by simpa [Dict.has, Dict.get?, hk] using h)
      exact List.mem_cons_of_mem k this

/-- There are more names to try than entries, so the name that is found is not among them. -/
theorem has_unusedName (entries : Dict Node) :
    entries.has (unusedName entries entries.length 0) = false := by
  obtain ⟨k, -, hk, heq, hbefore, hfree⟩ := unusedName_spec entries entries.length 0
  rw [heq]
  by_cases hlast : k < 0 + entries.length
  · exact hfree hlast
  · by_contra htaken
    have hall : (List.range (entries.length + 1)).map temporaryName ⊆ entries.keys := by
      intro name hname
      obtain ⟨j, hj, rfl⟩ := List.mem_map.1 hname
      have hj := List.mem_range.1 hj
      by_cases hjk : j = k
      · exact mem_keys_of_has (by simpa [hjk] using htaken)
      · exact mem_keys_of_has (hbefore j (by omega) (by omega))
    have hnodup : ((List.range (entries.length + 1)).map temporaryName).Nodup :=
      List.pairwise_map.2 (List.nodup_range.imp fun hne h => hne (temporaryName_injective h))
    have hlength := hnodup.length_le_of_subset hall
    rw [List.length_map, List.length_range, Dict.keys, List.length_map] at hlength
    omega

theorem get?_of_has {t : Tree} {l : Location} {name : String}
    (h : (t.entriesOf l).has name = false) : t.get? (l ++ [name]) = none := by
  unfold Tree.get? Tree.entriesOf at *
  rw [Tree.node?, Node.find?_append, ← Tree.node?, Node.find?_cons]
  cases hn : t.node? l with
  | none => rfl
  | some n =>
    have : Dict.get? name n.entries = none := by simpa [hn, Dict.has] using h
    simp [this, Node.find?_none]

/-! ### Writing -/

theorem on_addTemporary (folder : Path) (content : String) (d : Disk) :
    (addTemporary folder content).on d =
      match d.locate folder with
      | .error t => (.error (.ofTrouble folder t), d)
      | .ok l =>
        let name := unusedName (d.tree.entriesOf l) (d.tree.entriesOf l).length 0
        if View.isUnusable ((fromTop d.toView folder).child name) then (.error .io, d)
        else (.ok (l ++ [name]), d.after (.put (l ++ [name]) (.file (.text content)))) := by
  rw [addTemporary, on_bind, on_get]
  simp only
  rw [on_bind, on_orFail]
  cases d.locate folder with
  | error t => rfl
  | ok l =>
    simp only [Except.mapError]
    split <;> rfl

theorem addTemporary_cases (folder : Path) (content : String) (d : Disk) :
    (∃ e, (addTemporary folder content).on d = (.error e, d)) ∨
      ∃ l name, d.locate folder = .ok l ∧ d.tree.get? (l ++ [name]) = none ∧
        (addTemporary folder content).on d =
          (.ok (l ++ [name]), d.after (.put (l ++ [name]) (.file (.text content)))) := by
  rw [on_addTemporary]
  cases d.locate folder with
  | error t => exact .inl ⟨_, rfl⟩
  | ok l =>
    simp only
    split
    · exact .inl ⟨_, rfl⟩
    · exact .inr ⟨l, _, rfl, get?_of_has (has_unusedName _), rfl⟩

theorem fileLocation?_eq_ok {v : View} {p : Path} {l : Location} (h : fileLocation? v p = .ok l) :
    ∃ pl, v.place p = .ok pl ∧ pl.location? = .ok l ∧ pl.slashed = false ∧
      v.tree.isFolder l = false := by
  unfold fileLocation? at h
  simp only [bind, Except.bind, throw, throwThe, MonadExceptOf.throw] at h
  cases hpl : v.place p with
  | error e => simp [hpl] at h
  | ok pl =>
    cases hl : pl.location? with
    | error e => simp [hpl, hl] at h
    | ok l' =>
      simp only [hpl, hl] at h
      split at h
      · cases h
      · rename_i hfile
        cases h
        exact ⟨pl, rfl, hl, by simpa using hfile⟩

theorem on_write (p : Path) (content : String) (d : Disk) :
    (write p content).on d =
      match (makeFolders p.folder).on d with
      | (.error e, d₁) => (.error e, d₁)
      | (.ok _, d₁) =>
        match (addTemporary p.folder content).on d₁ with
        | (.error e, d₂) => (.error e, d₂)
        | (.ok temporary, d₂) =>
          match fileLocation? d₂.toView p with
          | .ok l => (.ok (), d₂.after (.move temporary l))
          | .error t => (.error (.ofTrouble p t), d₂.after (.remove temporary)) := by
  rw [write, on_bind]
  rcases (makeFolders p.folder).on d with ⟨_ | _, d₁⟩
  · rfl
  · simp only
    rw [on_bind]
    rcases (addTemporary p.folder content).on d₁ with ⟨_ | temporary, d₂⟩
    · rfl
    · simp only [on_bind, on_get]
      cases fileLocation? d₂.toView p <;> rfl

/-- Where a write can change something: at folders that are missing, and among the entries of
the folder of its path. -/
def Touched (d : Disk) (p : Path) (k : Location) : Prop :=
  Visits d.current p.folder k ∧ d.tree.get? k = none ∨ ∃ name, k = p.folder.spot d.current ++ [name]

/-- A file that is put beside a location and moved there, or taken away again. -/
theorem get?_remove_put {t : Tree} {k : Location} {e : Entry} (h : t.get? k = none)
    (hf : t.isFolder k.dropLast) (l : Location) : ((t.put k e).remove k).get? l = t.get? l := by
  rw [Tree.get?_remove _ l (Tree.ne_nil_of_none h)]
  split_ifs with hk
  · exact (Tree.get?_under h hk).symm
  · rw [Tree.get?_put_absent h hf, if_neg]
    rintro rfl
    exact hk List.prefix_rfl

theorem get?_move_put {t : Tree} {a b : Location} {c : Content} (h : t.get? a = none)
    (hf : t.isFolder a.dropLast) (hb : b ≠ []) (hparent : (t.put a (.file c)).isFolder b.dropLast)
    (hfree : (t.put a (.file c)).isFolder b = false) (k : Location) :
    ((t.put a (.file c)).move a b).get? k = if k = b then some (.file c) else t.get? k := by
  have ha := Tree.ne_nil_of_none h
  have hput := Tree.get?_put_absent (e := .file c) h hf
  have hkeep : ((t.put a (.file c)).remove a).isFolder b.dropLast := by
    rw [Tree.isFolder, Tree.get?_remove _ _ ha, if_neg, ← Tree.isFolder, hparent]
    intro hp
    have hfolder := Tree.get?_of_isFolder hparent
    rw [hput] at hfolder
    split_ifs at hfolder
    · cases hfolder
    · rw [Tree.get?_under h hp] at hfolder
      cases hfolder
  rw [Tree.get?_move _ k ha hb hkeep]
  by_cases hbk : b <+: k
  · obtain ⟨r, rfl⟩ := hbk
    rw [if_pos (List.prefix_append b r), List.drop_left, hput]
    by_cases hr : r = []
    · simp [hr]
    · rw [if_neg (by simpa using hr), if_neg (by simpa using hr), Tree.get?_append_of_none h]
      by_contra hne
      have hbf : t.isFolder b := Tree.isFolder_of_append (Ne.symm hne) hr
      have hba : b ≠ a := by
        rintro rfl
        rw [Tree.isFolder, h] at hbf
        cases hbf
      rw [Tree.isFolder, hput, if_neg hba, ← Tree.isFolder, hbf] at hfree
      cases hfree
  · have hkb : k ≠ b := by
      rintro rfl
      exact hbk List.prefix_rfl
    rw [if_neg hbk, if_neg hkb]
    split_ifs with hak
    · exact (Tree.get?_under h hak).symm
    · rw [hput, if_neg]
      rintro rfl
      exact hak List.prefix_rfl

theorem folder_text_ne (p : Path) : p.folder.text ≠ "" := by
  unfold Path.folder
  split
  · split
    · simp
    · assumption
  · simp

/-- What is true of every tree that a write goes through. -/
structure Writing (d : Disk) (p : Path) (t : Tree) : Prop where
  keeps : Tree.ExtendsBut (p.spot d.current) d.tree t
  same : Tree.SameOff (Touched d p) d.tree t

/-- What is true of every tree that a failing write goes through. -/
structure WritingInVain (d : Disk) (p : Path) (t : Tree) : Prop where
  keeps : Tree.Extends d.tree t
  same : Tree.SameOff (Touched d p) d.tree t

theorem WritingInVain.writing {d : Disk} {p : Path} {t : Tree} (h : WritingInVain d p t) :
    Writing d p t := ⟨h.keeps.but, h.same⟩

/-- What a write has done: the file is there, and otherwise there are new folders at most. -/
structure Written (d : Disk) (p : Path) (content : String) (t : Tree) : Prop where
  file : t.get? (p.spot d.current) = some (.file (.text content))
  replaced : d.tree.isFolder (p.spot d.current) = false
  others : ∀ k, k ≠ p.spot d.current → t.get? k = d.tree.get? k ∨
    Visits d.current p.folder k ∧ d.tree.get? k = none ∧ t.get? k = some .folder
  named : ∃ name, p.segments.getLast? = some name ∧
    p.spot d.current = p.folder.spot d.current ++ [name]

theorem writingInVain_of_grows {d : Disk} {p : Path} {t : Tree}
    (h : Tree.Grows (Visits d.current p.folder) d.tree t) : WritingInVain d p t := by
  refine ⟨h.extends, fun k hk => ?_⟩
  rcases h k with h | ⟨hv, hnone, -⟩
  · exact h
  · exact absurd (.inl ⟨hv, hnone⟩) hk

/-- A path for a file ends in the name of the file, in a folder that the names before it lead
to. -/
theorem lead_of_fileLocation? {v : View} {p : Path} {l : Location}
    (h : fileLocation? v p = .ok l) :
    ∃ names last folder, p.segments = names ++ [last] ∧ Path.isIdle last = false ∧
      v.tree.follow (p.origin v.current) names = .ok folder ∧ v.tree.isFolder folder ∧
      p.text ≠ "" ∧ View.isUnusable p = false ∧ l = folder ++ [last] := by
  obtain ⟨pl, hpl, hl, hslashed, -⟩ := fileLocation?_eq_ok h
  obtain ⟨last, hn⟩ := View.name_of_location? hl
  have hp := View.placed hpl hn
  obtain ⟨before, after, hsegs, hafter, hfollow⟩ := hp.segments
  have hnil : after = [] := by
    rcases List.eq_nil_or_concat after with h | ⟨zs, s, rfl⟩
    · exact h
    · have hs : s = "" := hafter s (by simp)
      rw [hp.slashed, hsegs] at hslashed
      simp [hs] at hslashed
  obtain ⟨h₁, h₂, -⟩ := hp.named
  refine ⟨before, last, pl.folder, by rw [hsegs, hnil], by simp [Path.isIdle, h₁, h₂], hfollow,
    hp.folder, hp.text, hp.usable, ?_⟩
  rw [(View.location_eq_spot hpl hl).1, hp.spot]

theorem spot_of_fileLocation? {v : View} {p : Path} {l : Location}
    (h : fileLocation? v p = .ok l) :
    l = p.spot v.current ∧ l ≠ [] ∧ v.tree.isFolder l.dropLast ∧ v.tree.isFolder l = false ∧
      ∃ name, p.segments.getLast? = some name ∧
        p.spot v.current = p.folder.spot v.current ++ [name] := by
  obtain ⟨names, last, folder, hsegs, hlast, hfollow, -, htext, -, hend⟩ := lead_of_fileLocation? h
  obtain ⟨pl, hpl, hl, -, hfolder⟩ := fileLocation?_eq_ok h
  obtain ⟨hspot, hne, hparent, -⟩ := View.location_eq_spot hpl hl
  refine ⟨hspot, hne, hparent, hfolder, last, by simp [hsegs], ?_⟩
  rw [(Path.spot_folder htext hsegs hlast v.current).1, ← hspot, hend,
    (Tree.follow_eq_ok hfollow).1]

section

variable {d : Disk} {p : Path} {content : String} {t : Tree} {l b : Location} {name : String}

theorem writingInVain_put (h : Tree.Grows (Visits d.current p.folder) d.tree t)
    (hl : l = p.folder.spot d.current) (hnone : t.get? (l ++ [name]) = none) (hf : t.isFolder l) :
    WritingInVain d p (t.put (l ++ [name]) (.file (.text content))) := by
  have hparent : t.isFolder (l ++ [name]).dropLast := by simpa using hf
  refine ⟨h.extends.trans (Tree.extends_put hnone hparent), fun k hk => ?_⟩
  rw [Tree.get?_put_absent hnone hparent, if_neg fun h => hk (.inr ⟨name, hl ▸ h⟩)]
  exact (writingInVain_of_grows h).same k hk

theorem grows_remove_put (h : Tree.Grows (Visits d.current p.folder) d.tree t)
    (hnone : t.get? (l ++ [name]) = none) (hf : t.isFolder l) :
    Tree.Grows (Visits d.current p.folder) d.tree
      ((t.put (l ++ [name]) (.file (.text content))).remove (l ++ [name])) := by
  intro k
  rw [get?_remove_put hnone (by simpa using hf)]
  exact h k

theorem written_move (h : Tree.Grows (Visits d.current p.folder) d.tree t)
    (hnone : t.get? (l ++ [name]) = none) (hf : t.isFolder l)
    (hb : fileLocation? ⟨t.put (l ++ [name]) (.file (.text content)), d.current⟩ p = .ok b) :
    Written d p content ((t.put (l ++ [name]) (.file (.text content))).move (l ++ [name]) b) := by
  obtain ⟨hspot, hne, hparent, hfree, hnamed⟩ := spot_of_fileLocation? hb
  have hlf : t.isFolder (l ++ [name]).dropLast := by simpa using hf
  have hmove := get?_move_put hnone hlf hne hparent hfree
  have hspot : p.spot d.current = b := hspot.symm
  refine ⟨by rw [hmove, if_pos hspot], ?_, fun k hk => ?_, hnamed⟩
  · by_contra hfolder
    rw [Bool.not_eq_false, hspot] at hfolder
    have hfolder := h.extends.isFolder hfolder
    have hne : b ≠ l ++ [name] := by
      rintro rfl
      rw [Tree.isFolder, hnone] at hfolder
      cases hfolder
    rw [Tree.isFolder, Tree.get?_put_absent hnone hlf, if_neg hne, ← Tree.isFolder,
      hfolder] at hfree
    cases hfree
  · rw [hmove, if_neg (hspot ▸ hk)]
    exact h k

theorem Written.writing (h : Written d p content t) : Writing d p t := by
  refine ⟨fun k e hk => ?_, fun k hk => ?_⟩
  · by_cases hkp : k = p.spot d.current
    · refine .inr ⟨hkp, ?_⟩
      rintro rfl
      have := h.replaced
      rw [← hkp, Tree.isFolder, hk] at this
      cases this
    · rcases h.others k hkp with h | ⟨-, hnone, -⟩
      · exact .inl (h.trans hk)
      · rw [hnone] at hk
        cases hk
  · obtain ⟨last, -, hspot⟩ := h.named
    rcases h.others k fun hkp => hk (.inr ⟨last, hkp.trans hspot⟩) with h | ⟨hv, hnone, -⟩
    · exact h
    · exact absurd (.inl ⟨hv, hnone⟩) hk

end

/-- How a write ends. -/
theorem write_cases (p : Path) (content : String) (d : Disk) :
    (∃ e d', (write p content).on d = (.error e, d') ∧ Through (WritingInVain d p) d d' ∧
      Tree.Grows (Visits d.current p.folder) d.tree d'.tree) ∨
    ∃ d', (write p content).on d = (.ok (), d') ∧ Through (Writing d p) d d' ∧
      Written d p content d'.tree := by
  have hfolders := through_makeFolders p.folder d
  have hfolder (h : ((makeFolders p.folder).on d).1 = .ok ()) :
      ((makeFolders p.folder).on d).2.tree.isFolder (p.folder.spot d.current) :=
    isFolder_of_makeFolders (folder_text_ne p) h (.inr rfl)
  rw [on_write]
  generalize (makeFolders p.folder).on d = made at hfolders hfolder
  obtain ⟨result, d₁⟩ := made
  have hgrows : Tree.Grows (Visits d.current p.folder) d.tree d₁.tree := hfolders.last
  have hc : d₁.current = d.current := hfolders.current
  have hvain : Through (WritingInVain d p) d d₁ :=
    hfolders.mono fun t => writingInVain_of_grows
  cases result with
  | error e => exact .inl ⟨e, d₁, rfl, hvain, hgrows⟩
  | ok _ =>
  simp only
  rcases addTemporary_cases p.folder content d₁ with ⟨e, hadd⟩ | ⟨l, name, hl, hnone, hadd⟩
  · rw [hadd]
    exact .inl ⟨e, d₁, rfl, hvain, hgrows⟩
  · have hl : l = p.folder.spot d.current := hc ▸ View.locate_eq_spot hl
    have hf : d₁.tree.isFolder l := hl ▸ hfolder rfl
    have hadded := hvain.step (.put (l ++ [name]) (.file (.text content)))
      (writingInVain_put hgrows hl hnone hf)
    rw [hadd]
    simp only
    cases hb : fileLocation? (d₁.after (.put (l ++ [name]) (.file (.text content)))).toView p with
    | error t =>
      have hback : Tree.Grows (Visits d.current p.folder) d.tree
          ((d₁.tree.put (l ++ [name]) (.file (.text content))).remove (l ++ [name])) :=
        grows_remove_put hgrows hnone hf
      exact .inl ⟨_, _, rfl, hadded.step _ (writingInVain_of_grows hback), hback⟩
    | ok b =>
      have hwritten : Written d p content
          ((d₁.tree.put (l ++ [name]) (.file (.text content))).move (l ++ [name]) b) :=
        written_move hgrows hnone hf (hc ▸ hb)
      have hwriting := hadded.mono fun t => WritingInVain.writing
      exact .inr ⟨_, rfl, hwriting.step _ hwritten.writing, hwritten⟩

theorem read_eq_ok {p : Path} {content : String} {d d' : Disk} :
    (read p).on d = (.ok content, d') ↔ d' = d ∧ d.locate p = .ok (p.spot d.current) ∧
      d.tree.get? (p.spot d.current) = some (.file (.text content)) := by
  rw [read, on_bind, on_get]
  simp only
  rw [on_bind, on_orFail]
  cases hl : d.locate p with
  | error t => simp [Except.mapError]
  | ok l =>
    obtain rfl := View.locate_eq_spot hl
    simp only [Except.mapError]
    rcases d.tree.get? (p.spot d.current) with _ | _ | s | bytes <;>
      simp [on_pure, on_throw, eq_comm, and_comm]

/-- A file that was put beside a path and moved there is read at that path. -/
theorem read_of_move_put {t : Tree} {a b : Location} {p : Path} {content : String} {d : Disk}
    (hnone : t.get? a = none) (hf : t.isFolder a.dropLast)
    (hb : fileLocation? ⟨t.put a (.file (.text content)), d.current⟩ p = .ok b)
    (hd : d.tree = (t.put a (.file (.text content))).move a b) :
    (read p).on d = (.ok content, d) := by
  obtain ⟨pl, hpl, hloc, hslashed, hfree⟩ := fileLocation?_eq_ok hb
  obtain ⟨-, hne, hparent, -⟩ := spot_of_fileLocation? hb
  have hput := Tree.get?_put_absent (e := .file (.text content)) hnone hf
  have hmove : ∀ k, d.tree.get? k = if k = b then some (.file (.text content)) else t.get? k :=
    fun k => hd ▸ get?_move_put hnone hf hne hparent hfree k
  have hkeep : ∀ k, (t.put a (.file (.text content))).isFolder k → d.tree.isFolder k := by
    intro k hk
    have hkb : k ≠ b := by
      rintro rfl
      rw [hk] at hfree
      cases hfree
    have hget := Tree.get?_of_isFolder hk
    rw [hput] at hget
    split at hget
    · cases hget
    · rw [Tree.isFolder, hmove, if_neg hkb, hget]
      rfl
  obtain ⟨last, hname⟩ := View.name_of_location? hloc
  have hplace : d.place p = .ok pl := View.place_mono hpl hname rfl fun k _ => hkeep k
  have hfile : d.tree.get? b = some (.file (.text content)) := by rw [hmove, if_pos rfl]
  have hlocate : d.locate p = .ok b :=
    View.locate_of_there hplace hloc (by simp [hfile]) (.inr hslashed)
  obtain rfl := View.locate_eq_spot hlocate
  exact read_eq_ok.2 ⟨rfl, hlocate, hfile⟩

/-- What was written is read. -/
theorem read_of_write {p : Path} {content : String} {d d' : Disk}
    (h : (write p content).on d = (.ok (), d')) : (read p).on d' = (.ok content, d') := by
  have hfolders := through_makeFolders p.folder d
  have hfolder (h : ((makeFolders p.folder).on d).1 = .ok ()) :
      ((makeFolders p.folder).on d).2.tree.isFolder (p.folder.spot d.current) :=
    isFolder_of_makeFolders (folder_text_ne p) h (.inr rfl)
  rw [on_write] at h
  generalize (makeFolders p.folder).on d = made at hfolders hfolder h
  obtain ⟨result, d₁⟩ := made
  have hc : d₁.current = d.current := hfolders.current
  cases result with
  | error e => cases h
  | ok _ =>
  simp only at h
  rcases addTemporary_cases p.folder content d₁ with ⟨e, hadd⟩ | ⟨l, name, hl, hnone, hadd⟩
  · rw [hadd] at h
    cases h
  · rw [hadd] at h
    simp only at h
    have hf : d₁.tree.isFolder (l ++ [name]).dropLast := by
      have hl : l = p.folder.spot d.current := hc ▸ View.locate_eq_spot hl
      simpa [hl] using hfolder rfl
    cases hb : fileLocation? (d₁.after (.put (l ++ [name]) (.file (.text content)))).toView p with
    | error t =>
      rw [hb] at h
      cases h
    | ok b =>
      rw [hb] at h
      obtain ⟨-, rfl⟩ := Prod.mk.inj h
      exact read_of_move_put hnone hf hb rfl

theorem isFile_of_read {p : Path} {content : String} {d : Disk}
    (h : (read p).on d = (.ok content, d)) : d.isFile p :=
  View.isFile_eq_true.2 ⟨_, (read_eq_ok.1 h).2⟩

/-- A file is read again if the folders on its way are still there and it is as it was. -/
theorem read_mono {p : Path} {content : String} {d d' : Disk}
    (h : (read p).on d = (.ok content, d)) (hc : d'.current = d.current)
    (htrail : ∀ s ∈ trail (p.origin d.current) p.segments, d.tree.isFolder s → d'.tree.isFolder s)
    (hfile : d'.tree.get? (p.spot d.current) = d.tree.get? (p.spot d.current)) :
    (read p).on d' = (.ok content, d') := by
  obtain ⟨-, hlocate, hthere⟩ := read_eq_ok.1 h
  have hthere' := hfile.trans hthere
  have hlocate' : d'.locate p = .ok (p.spot d.current) :=
    View.locate_mono hlocate hc htrail (by simp [hthere'])
  exact read_eq_ok.2 ⟨rfl, hc ▸ hlocate', hc ▸ hthere'⟩

/-- A path leads to a file if the folders on its way are still there and a file at its end. -/
theorem isFile_mono {d d' : Disk} {p : Path} (h : d.isFile p) (hc : d'.current = d.current)
    (htrail : ∀ s, d.tree.isFolder s → d'.tree.isFolder s)
    (hfile : ∃ content, d'.tree.get? (p.spot d.current) = some (.file content)) :
    d'.isFile p := by
  obtain ⟨-, hlocate, -⟩ := View.isFile_eq_true.1 h
  obtain ⟨content, hfile⟩ := hfile
  have hlocate' : d'.locate p = .ok (p.spot d.current) :=
    View.locate_mono hlocate hc (fun s _ => htrail s) (by simp [hfile])
  exact View.isFile_eq_true.2 ⟨content, hc ▸ hlocate', hc ▸ hfile⟩

/-- Writing a file leaves the other files at their paths. -/
theorem Written.isFile {d d' : Disk} {p q : Path} {content : String}
    (h : Written d q content d'.tree) (hc : d'.current = d.current) (hp : d.isFile p) :
    d'.isFile p := by
  refine isFile_mono hp hc (fun s hs => h.writing.keeps.isFolder hs) ?_
  obtain ⟨content, -, hfile⟩ := View.isFile_eq_true.1 hp
  rcases h.writing.keeps _ _ hfile with hkept | ⟨heq, -⟩
  · exact ⟨content, hkept⟩
  · exact ⟨_, heq ▸ h.file⟩

end Disk
end Rollout

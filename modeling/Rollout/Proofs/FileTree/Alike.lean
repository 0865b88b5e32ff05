import Mathlib.Tactic.Common
import Rollout.Proofs.FileTree.Above
import Rollout.Proofs.FileTree.Write

/-!
# Disks that are alike

A task looks at a few locations of a disk only. On two disks that hold the same at these it ends
in the same way, and what it leaves is as alike as what it found (`DiskTask.Steady`). A write
looks at the way to its file, at the file itself and at the names for temporary files beside it
(`Disk.Consulted`, `steady_write`).
-/

namespace Rollout

open Location

/-- Two views from one current folder that hold the same, some locations aside. -/
structure View.Alike (A : Location → Prop) (c : Location) (v v' : View) : Prop where
  left : v.current = c
  right : v'.current = c
  same : Tree.SameOff A v.tree v'.tree

/-- A task that ends in the same way on disks that are alike, and leaves them alike. -/
def DiskTask.Steady {ε α : Type} (A : Location → Prop) (c : Location) (task : DiskTask ε α) :
    Prop :=
  ∀ ⦃d d' : Disk⦄, View.Alike A c d.toView d'.toView →
    (task.on d').1 = (task.on d).1 ∧ View.Alike A c (task.on d).2.toView (task.on d').2.toView

variable {A : Location → Prop} {c : Location}

/-! ### Looking -/

namespace Tree

variable {t t' : Tree}

theorem follow_congr (h : SameOff A t t') {l : Location} {names : List String}
    (hA : ∀ k, Disk.Visited l names k → ¬ A k) : t'.follow l names = t.follow l names := by
  induction names generalizing l with
  | nil => rfl
  | cons name rest ih =>
    have hnext : ∀ k, Disk.Visited (step l name) rest k → ¬ A k := fun k hk => hA k hk.step
    rw [follow, follow, h.isFolder (hA l (Disk.visited_self _ _))]
    by_cases hidle : Path.isIdle name
    · rw [step_idle l hidle] at hnext
      simp only [hidle, if_true, ih hnext]
    by_cases hup : name = ".."
    · subst hup
      rw [step_up] at hnext
      simp only [hidle, Bool.false_eq_true, if_false, if_true, ih hnext]
    rw [step_into l hidle hup] at hnext
    simp only [hidle, hup, Bool.false_eq_true, if_false,
      h _ (hnext _ (Disk.visited_self _ _)), ih hnext]

theorem has_entriesOf (t : Tree) (l : Location) (name : String) :
    (t.entriesOf l).has name = (t.get? (l ++ [name])).isSome := by
  rw [get?, node?, Node.find?_append, ← node?, Node.find?_cons, entriesOf]
  cases t.node? l with
  | none => rfl
  | some n =>
    simp only [Option.map_some, Option.getD_some, Option.bind_some, Node.find?_nil,
      Option.isSome_map]
    rfl

end Tree

namespace View.Alike

variable {v v' : View} (h : Alike A c v v') {p : Path}
include h

theorem start_eq (p : Path) : v.start p = p.origin c ∧ v'.start p = p.origin c := by
  rw [start, start, h.left, h.right]
  exact ⟨rfl, rfl⟩

theorem fromTop_eq (p : Path) : Disk.fromTop v' p = Disk.fromTop v p := by
  rw [Disk.fromTop, Disk.fromTop, h.left, h.right]

variable (hA : ∀ k, Disk.Visits c p k → ¬ A k)
include hA

theorem locate_eq : v'.locate p = v.locate p := by
  rw [locate, locate, (h.start_eq p).1, (h.start_eq p).2, Tree.follow_congr h.same hA]

theorem exists?_eq : v'.exists? p = v.exists? p := by rw [exists?, exists?, h.locate_eq hA]

theorem place_eq : v'.place p = v.place p := by
  rw [View.place_eq, View.place_eq, (h.start_eq p).1, (h.start_eq p).2]
  cases hending : p.ending with
  | nil => rfl
  | cons last before =>
    have hlast : p.last? = some last := by simp [Path.last?, hending]
    have hlead : p.lead = before.reverse := by simp [Path.lead, hending]
    obtain ⟨slashes, hsegs, -⟩ := Path.segments_lead hlast
    have hfolder : ∀ k, Disk.Visited (p.origin c) before.reverse k → ¬ A k := by
      intro k hk
      refine hA k ?_
      rw [Disk.Visits, hsegs, hlead, Disk.visited_append]
      rcases hk with hk | rfl
      · exact .inl hk
      · exact .inr (Disk.visited_self _ _)
    simp only [placeOf, Tree.follow_congr h.same hfolder]
    cases hfollow : v.tree.follow (p.origin c) before.reverse with
    | error e => rfl
    | ok folder =>
      simp only [Except.bind, h.same.isFolder (hfolder folder (.inr (Tree.follow_eq_ok hfollow).1))]

theorem fileLocation?_eq : Disk.fileLocation? v' p = Disk.fileLocation? v p := by
  unfold Disk.fileLocation?
  rw [h.place_eq hA]
  cases hpl : v.place p with
  | error e => rfl
  | ok pl =>
    cases hl : pl.location? with
    | error e => simp [bind, Except.bind, hl]
    | ok l =>
      have hspot := (location_eq_spot hpl hl).1
      rw [h.left] at hspot
      simp only [bind, Except.bind, hl, h.same.isFolder (hA l (.inr hspot))]

end View.Alike

/-! ### Tasks put together -/

namespace DiskTask

variable {ε ε' α β : Type}

theorem steady_pure (a : α) : Steady A c (pure a : DiskTask ε α) := fun _ _ h => ⟨rfl, h⟩

theorem steady_throw (e : ε) : Steady A c (throw e : DiskTask ε α) := fun _ _ h => ⟨rfl, h⟩

theorem Steady.bind {x : DiskTask ε α} {f : α → DiskTask ε β} (hx : Steady A c x)
    (hf : ∀ a, Steady A c (f a)) : Steady A c (x >>= f) := by
  intro d d' h
  obtain ⟨hresult, halike⟩ := hx h
  rw [on_bind, on_bind]
  generalize x.on d = end_, x.on d' = end' at hresult halike
  obtain ⟨result, e⟩ := end_
  obtain ⟨result', e'⟩ := end'
  obtain rfl : result' = result := hresult
  cases result' with
  | error error => exact ⟨rfl, halike⟩
  | ok a => exact hf a halike

theorem Steady.adapt {x : DiskTask ε α} (hx : Steady A c x) (f : ε → ε') :
    Steady A c (ExceptT.adapt f x : DiskTask ε' α) := by
  intro d d' h
  obtain ⟨hresult, halike⟩ := hx h
  rw [on_adapt, on_adapt, hresult]
  exact ⟨rfl, halike⟩

end DiskTask

open DiskTask

namespace Disk

variable {d d' : Disk}

/-! ### Changing -/

theorem alike_put (h : View.Alike A c d.toView d'.toView) {k : Location} {e : Entry}
    (hk : ¬ A k) (hparent : ¬ A k.dropLast) (hnone : d.tree.get? k = none)
    (hf : d.tree.isFolder k.dropLast) :
    View.Alike A c (d.after (.put k e)).toView (d'.after (.put k e)).toView := by
  refine ⟨h.left, h.right, fun l hl => ?_⟩
  have hnone' : d'.tree.get? k = none := (h.same k hk).trans hnone
  have hf' : d'.tree.isFolder k.dropLast := (h.same.isFolder hparent).trans hf
  change (d'.tree.put k e).get? l = (d.tree.put k e).get? l
  rw [Tree.get?_put_absent hnone hf, Tree.get?_put_absent hnone' hf', h.same l hl]

theorem steady_makeFoldersFrom {l : Location} {names : List String}
    (hA : ∀ k, Visited l names k → ¬ A k) : Steady A c (makeFoldersFrom l names) := by
  induction names generalizing l with
  | nil =>
    intro d d' h
    rw [on_makeFoldersFrom_nil, on_makeFoldersFrom_nil, h.same.isFolder (hA l (visited_self _ _))]
    split_ifs
    · exact ⟨rfl, h⟩
    · exact ⟨rfl, h⟩
  | cons name rest ih =>
    intro d d' h
    have hnext : ∀ k, Visited (step l name) rest k → ¬ A k := fun k hk => hA k hk.step
    have hhere := hA l (visited_self _ _)
    rw [on_makeFoldersFrom_cons, on_makeFoldersFrom_cons, h.same.isFolder hhere]
    by_cases hl : d.tree.isFolder l
    case neg =>
      simp only [hl, Bool.false_eq_true, if_false, true_and]
      exact h
    by_cases hidle : Path.isIdle name
    · rw [step_idle l hidle] at hnext
      simp only [hl, hidle, if_true]
      exact ih hnext h
    by_cases hup : name = ".."
    · subst hup
      rw [step_up] at hnext
      simp only [hl, hidle, Bool.false_eq_true, if_true, if_false]
      exact ih hnext h
    rw [step_into l hidle hup] at hnext
    have hinner := hnext _ (visited_self _ _)
    simp only [hl, hidle, hup, Bool.false_eq_true, if_true, if_false, h.same _ hinner]
    split_ifs with hlong hnone hdot
    · exact ⟨rfl, h⟩
    · exact ⟨rfl, h⟩
    · exact ih hnext (alike_put h hinner (by simpa using hhere) hnone (by simpa using hl))
    · exact ih hnext h

theorem steady_makeFolders {p : Path} (hA : ∀ k, Visits c p k → ¬ A k) :
    Steady A c (makeFolders p) := by
  intro d d' h
  rw [on_makeFolders, on_makeFolders, (h.start_eq p).1, (h.start_eq p).2]
  obtain ⟨hresult, halike⟩ := steady_makeFoldersFrom hA h
  split_ifs
  · exact ⟨rfl, h⟩
  · exact ⟨rfl, h⟩
  · exact ⟨by rw [hresult], halike⟩

/-! ### Writing -/

/-- The locations that a write looks at or changes. -/
def Consulted (c : Location) (p : Path) (k : Location) : Prop :=
  Visits c p.folder k ∨ Visits c p k ∨ ∃ n, k = p.folder.spot c ++ [temporaryName n]

/-- Which names for temporary files are taken settles which one is used. -/
theorem unusedName_congr {entries entries' : Dict Node}
    (h : ∀ n, entries'.has (temporaryName n) = entries.has (temporaryName n)) :
    unusedName entries' entries'.length 0 = unusedName entries entries.length 0 := by
  obtain ⟨k, -, -, heq, hbefore, -⟩ := unusedName_spec entries entries.length 0
  obtain ⟨k', -, -, heq', hbefore', -⟩ := unusedName_spec entries' entries'.length 0
  have hfree := has_unusedName entries
  have hfree' := has_unusedName entries'
  rw [heq, ← h] at hfree
  rw [heq', h] at hfree'
  rw [heq, heq']
  rcases Nat.lt_trichotomy k k' with hlt | rfl | hlt
  · rw [hbefore' k (Nat.zero_le _) hlt] at hfree
    cases hfree
  · rfl
  · rw [hbefore k' (Nat.zero_le _) hlt] at hfree'
    cases hfree'

/-- A temporary file gets the same name in folders with the same names for them. -/
theorem addTemporary_alike {folder : Path} (content : String)
    (h : View.Alike A c d.toView d'.toView) (hvisits : ∀ k, Visits c folder k → ¬ A k)
    (htemporary : ∀ n, ¬ A (folder.spot c ++ [temporaryName n])) :
    (∃ e, (addTemporary folder content).on d = (.error e, d) ∧
      (addTemporary folder content).on d' = (.error e, d')) ∨
    ∃ n, d.tree.get? (folder.spot c ++ [temporaryName n]) = none ∧
      (addTemporary folder content).on d = (.ok (folder.spot c ++ [temporaryName n]),
        d.after (.put (folder.spot c ++ [temporaryName n]) (.file (.text content)))) ∧
      (addTemporary folder content).on d' = (.ok (folder.spot c ++ [temporaryName n]),
        d'.after (.put (folder.spot c ++ [temporaryName n]) (.file (.text content)))) := by
  have hlocate := h.locate_eq hvisits
  simp only [addTemporary, on_bind, on_get, on_orFail, hlocate]
  cases hl : d.locate folder with
  | error t => exact .inl ⟨_, rfl, rfl⟩
  | ok l =>
    obtain rfl : l = folder.spot c := h.left ▸ View.locate_eq_spot hl
    have hname : unusedName (d'.tree.entriesOf (folder.spot c))
        (d'.tree.entriesOf (folder.spot c)).length 0 =
        unusedName (d.tree.entriesOf (folder.spot c))
          (d.tree.entriesOf (folder.spot c)).length 0 := by
      refine unusedName_congr fun n => ?_
      rw [Tree.has_entriesOf, Tree.has_entriesOf, h.same _ (htemporary n)]
    have hnone := get?_of_has (has_unusedName (d.tree.entriesOf (folder.spot c)))
    obtain ⟨n, -, -, heq, -⟩ := unusedName_spec (d.tree.entriesOf (folder.spot c))
      (d.tree.entriesOf (folder.spot c)).length 0
    simp only [Except.mapError, hname, h.fromTop_eq]
    rw [heq] at hnone ⊢
    split_ifs
    · exact .inl ⟨_, rfl, rfl⟩
    · exact .inr ⟨n, hnone, rfl, rfl⟩

/-- A write ends in the same way on disks that hold the same at all that it looks at. -/
theorem steady_write {p : Path} {content : String} (hA : ∀ k, Consulted c p k → ¬ A k) :
    Steady A c (write p content) := by
  intro d d' h
  have hfolder : ∀ k, Visits c p.folder k → ¬ A k := fun k hk => hA k (.inl hk)
  have hvisits : ∀ k, Visits c p k → ¬ A k := fun k hk => hA k (.inr (.inl hk))
  have htemporary (n : Nat) : ¬ A (p.folder.spot c ++ [temporaryName n]) :=
    hA _ (.inr (.inr ⟨n, rfl⟩))
  obtain ⟨hresult, halike⟩ := steady_makeFolders hfolder h
  have hmade (h : ((makeFolders p.folder).on d).1 = .ok ()) :
      ((makeFolders p.folder).on d).2.tree.isFolder (p.folder.spot d.current) :=
    isFolder_of_makeFolders (folder_text_ne p) h (.inr rfl)
  rw [h.left] at hmade
  rw [on_write, on_write]
  generalize (makeFolders p.folder).on d = end_, (makeFolders p.folder).on d' = end' at *
  obtain ⟨result, e⟩ := end_
  obtain ⟨result', e'⟩ := end'
  obtain rfl : result' = result := hresult
  cases result' with
  | error error => exact ⟨rfl, halike⟩
  | ok _ =>
  rcases addTemporary_alike content halike hfolder htemporary with
    ⟨error, hadd, hadd'⟩ | ⟨n, hnone, hadd, hadd'⟩
  · simp only [hadd, hadd', true_and]
    exact halike
  generalize htemp : p.folder.spot c ++ [temporaryName n] = temporary at *
  have hparent : temporary.dropLast = p.folder.spot c := by simp [← htemp]
  have hf : e.tree.isFolder temporary.dropLast := hparent ▸ hmade rfl
  have hput := alike_put (e := .file (.text content)) halike (htemp ▸ htemporary n)
    (hparent ▸ hfolder _ (.inr rfl)) hnone hf
  have hnone' : e'.tree.get? temporary = none :=
    (halike.same _ (htemp ▸ htemporary n)).trans hnone
  have hf' : e'.tree.isFolder temporary.dropLast :=
    (halike.same.isFolder (hparent ▸ hfolder _ (.inr rfl))).trans hf
  have hlocation := hput.fileLocation?_eq hvisits
  simp only [hadd, hadd', hlocation]
  cases hb : fileLocation? (e.after (.put temporary (.file (.text content)))).toView p with
  | error t =>
    refine ⟨rfl, halike.left, halike.right, fun k hk => ?_⟩
    exact (get?_remove_put hnone' hf' k).trans
      ((halike.same k hk).trans (get?_remove_put hnone hf k).symm)
  | ok b =>
    obtain ⟨-, hne, hbf, hfree, -⟩ := spot_of_fileLocation? hb
    obtain ⟨-, -, hbf', hfree', -⟩ := spot_of_fileLocation? (hlocation.trans hb)
    refine ⟨rfl, halike.left, halike.right, fun k hk => ?_⟩
    refine (get?_move_put hnone' hf' hne hbf' hfree' k).trans ?_
    rw [halike.same k hk]
    exact (get?_move_put hnone hf hne hbf hfree k).symm

theorem steady_read {p : Path} (hA : ∀ k, Visits c p k → ¬ A k) : Steady A c (read p) := by
  intro d d' h
  have hlocate := h.locate_eq hA
  simp only [read, on_bind, on_get, on_orFail, hlocate]
  cases hl : d.locate p with
  | error t => exact ⟨rfl, h⟩
  | ok l =>
    have hspot : l = p.spot c := h.left ▸ View.locate_eq_spot hl
    simp only [Except.mapError, h.same l (hA l (.inr hspot))]
    rcases d.tree.get? l with _ | _ | s | bytes <;> exact ⟨rfl, h⟩

/-! ### Disks that hold the same -/

/-- No location. -/
def Nowhere : Location → Prop := fun _ => False

theorem not_nowhere (k : Location) : ¬ Nowhere k := id

theorem steady_makeTemporary (folder : Path) (name : String) :
    Steady Nowhere c (makeTemporary folder name) := by
  intro d d' h
  simp only [makeTemporary, on_bind, on_get, h.fromTop_eq,
    h.place_eq fun k _ => not_nowhere k, h.same _ (not_nowhere _)]
  cases hpl : d.place ((fromTop d.toView folder).child name) with
  | error e => cases e <;> exact ⟨rfl, h⟩
  | ok pl =>
    simp only [bind, Except.bind]
    cases hl : pl.location? with
    | error e => cases e <;> exact ⟨rfl, h⟩
    | ok l =>
      by_cases hnone : d.tree.get? l = none
      · have hf := (View.location_eq_spot hpl hl).2.2.1
        simp only [if_pos hnone]
        exact ⟨rfl, alike_put h (not_nowhere _) (not_nowhere _) hnone hf⟩
      · simp only [if_neg hnone]
        exact ⟨rfl, h⟩

theorem steady_makeFoldersTo (p : Path) : Steady Nowhere c (makeFoldersTo p) := by
  unfold makeFoldersTo
  split
  · split
    · exact steady_pure _
    · exact steady_makeFolders fun k _ => not_nowhere k
  · exact steady_pure _

theorem isEmpty_entriesOf_congr {t t' : Tree} (h : Tree.SameOff Nowhere t t') (l : Location) :
    (t'.entriesOf l).isEmpty = (t.entriesOf l).isEmpty := by
  have names (es es' : Dict Node) (hes : ∀ name, es'.has name = es.has name)
      (hempty : es.isEmpty) : es'.isEmpty := by
    cases es' with
    | nil => rfl
    | cons e rest =>
      obtain rfl : es = [] := by simpa using hempty
      have := hes e.1
      simp [Dict.has, Dict.get?] at this
  have hhas (name : String) : (t'.entriesOf l).has name = (t.entriesOf l).has name := by
    rw [Tree.has_entriesOf, Tree.has_entriesOf, h _ (not_nowhere _)]
  rw [Bool.eq_iff_iff]
  exact ⟨names _ _ fun name => (hhas name).symm, names _ _ hhas⟩

theorem movement?_congr {v v' : View} (h : View.Alike Nowhere c v v') (source target : Path) :
    movement? v' source target = movement? v source target := by
  unfold movement?
  simp only [h.place_eq fun k _ => not_nowhere k, h.same _ (not_nowhere _),
    isEmpty_entriesOf_congr h.same]

theorem steady_rename (source target : Path) : Steady Nowhere c (rename source target) := by
  intro d d' h
  obtain ⟨hresult, halike⟩ := steady_makeFoldersTo target h
  rw [on_rename, on_rename]
  generalize (makeFoldersTo target).on d = end_, (makeFoldersTo target).on d' = end' at *
  obtain ⟨result, e⟩ := end_
  obtain ⟨result', e'⟩ := end'
  obtain rfl : result' = result := hresult
  cases result' with
  | error error => exact ⟨rfl, halike⟩
  | ok _ =>
  have hmovement := movement?_congr halike source target
  simp only [hmovement]
  cases hm : movement? e.toView source target with
  | error t => exact ⟨rfl, halike⟩
  | ok m =>
    obtain ⟨-, -, a, b, -, -, -, -, -, hend⟩ := movement?_eq_ok hm
    obtain ⟨-, -, a', b', -, -, -, -, -, hend'⟩ := movement?_eq_ok (hmovement.trans hm)
    rcases hend with ⟨rfl, -⟩ | ⟨rfl, hmove⟩
    · exact ⟨rfl, halike⟩
    · rcases hend' with ⟨hnone, -⟩ | ⟨hsome, hmove'⟩
      · cases hnone
      · obtain ⟨rfl, rfl⟩ : a = a' ∧ b = b' := by simpa using hsome
        refine ⟨rfl, halike.left, halike.right, fun k _ => ?_⟩
        change (e'.tree.move a b).get? k = (e.tree.move a b).get? k
        simp only [hmove.get?, hmove'.get?, halike.same _ (not_nowhere _)]

theorem get?_clear_congr {t t' : Tree} (h : Tree.SameOff Nowhere t t') {l : Location}
    (hl : t.isFolder l) : Tree.SameOff Nowhere (t.clear l) (t'.clear l) := by
  intro k _
  by_cases hnil : l = []
  · subst hnil
    rfl
  · have hthere : t.get? l ≠ none := by simp [Tree.get?_of_isFolder hl]
    have hthere' : t'.get? l ≠ none := by rwa [h l (not_nowhere l)]
    rw [Tree.get?_clear t k hnil (Tree.isFolder_dropLast hthere),
      Tree.get?_clear t' k hnil (Tree.isFolder_dropLast hthere'), h k (not_nowhere k)]

theorem get?_remove_congr {t t' : Tree} (h : Tree.SameOff Nowhere t t') (l : Location) :
    Tree.SameOff Nowhere (t.remove l) (t'.remove l) := by
  intro k _
  by_cases hnil : l = []
  · subst hnil
    rfl
  · rw [Tree.get?_remove t k hnil, Tree.get?_remove t' k hnil, h k (not_nowhere k)]

theorem steady_removeFolder (p : Path) : Steady Nowhere c (removeFolder p) := by
  intro d d' h
  simp only [on_removeFolder, h.locate_eq fun k _ => not_nowhere k]
  cases hl : d.locate p with
  | error t => exact ⟨rfl, h⟩
  | ok l =>
    simp only [h.same.isFolder (not_nowhere l)]
    by_cases hf : d.tree.isFolder l
    case neg =>
      simp only [if_neg hf, true_and]
      exact h
    have hcleared : View.Alike Nowhere c ⟨d.tree.clear l, d.current⟩
        ⟨d'.tree.clear l, d'.current⟩ :=
      ⟨h.left, h.right, get?_clear_congr h.same hf⟩
    have hremoved : View.Alike Nowhere c (d.after (.remove l)).toView
        (d'.after (.remove l)).toView := ⟨h.left, h.right, get?_remove_congr h.same l⟩
    simp only [if_pos hf, hcleared.place_eq fun k _ => not_nowhere k]
    rcases View.place ⟨d.tree.clear l, d.current⟩ p with (_ | _) | ⟨_, _ | _, _⟩
    · exact ⟨rfl, hcleared⟩
    · exact ⟨rfl, hcleared⟩
    · exact ⟨rfl, hcleared⟩
    · exact ⟨rfl, hremoved⟩

end Disk
end Rollout

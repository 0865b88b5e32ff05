import Mathlib.Tactic.Common
import Rollout.Proofs.FileTree.Change
import Rollout.Proofs.FileTree.Place

/-!
# Making folders

Making the folders of a path adds folders that were missing on its trail and changes nothing
else, however it ends (`through_makeFolders`). Where the path leads to a folder already it does
nothing at all (`makeFolders_of_locate`).
-/

namespace Rollout

open Location DiskTask

namespace Disk

theorem on_makeFoldersFrom_nil (l : Location) (d : Disk) :
    (makeFoldersFrom l []).on d =
      if d.tree.isFolder l then (.ok (), d) else (.error .unusable, d) := by
  rw [makeFoldersFrom, on_bind, on_get]
  simp only
  split
  · rfl
  · rw [on_throw]

theorem on_makeFoldersFrom_cons (l : Location) (name : String) (rest : List String) (d : Disk) :
    (makeFoldersFrom l (name :: rest)).on d =
      if d.tree.isFolder l then
        if Path.isIdle name then (makeFoldersFrom l rest).on d
        else if name = ".." then (makeFoldersFrom l.dropLast rest).on d
        else if isTooLong name then (.error .unusable, d)
        else if d.tree.get? (l ++ [name]) = none then
          if rest.all Path.isIdle && rest.contains "." then (.error .absent, d)
          else (makeFoldersFrom (l ++ [name]) rest).on (d.after (.put (l ++ [name]) .folder))
        else (makeFoldersFrom (l ++ [name]) rest).on d
      else (.error .unusable, d) := by
  rw [makeFoldersFrom, on_bind, on_get]
  simp only
  split_ifs <;> simp only [on_bind, on_get, on_throw, on_edit, *, if_true, if_false]

/-- A location that names lead through or to. -/
def Visited (l : Location) (names : List String) (k : Location) : Prop :=
  k ∈ trail l names ∨ k = walk l names

theorem visited_cons {l k : Location} {name : String} {rest : List String} :
    Visited l (name :: rest) k ↔ k = l ∨ Visited (Location.step l name) rest k := by
  rw [Visited, Visited, trail, List.mem_cons, walk_cons, or_assoc]

theorem Visited.step {l k : Location} {name : String} {rest : List String}
    (h : Visited (Location.step l name) rest k) : Visited l (name :: rest) k :=
  visited_cons.2 (.inr h)

theorem visited_self (l : Location) (names : List String) : Visited l names l := by
  cases names with
  | nil => exact .inr rfl
  | cons name rest => exact .inl (by simp [trail])

theorem through_makeFoldersFrom (l : Location) (names : List String) (d : Disk) :
    Through (Tree.Grows (Visited l names) d.tree) d ((makeFoldersFrom l names).on d).2 := by
  have hrest : Through (Tree.Grows (Visited l names) d.tree) d d := .rest (.refl _ _)
  induction names generalizing l d with
  | nil =>
    rw [on_makeFoldersFrom_nil]
    split <;> exact hrest
  | cons name rest ih =>
    have next {l' : Location} (hl : Location.step l name = l') (d : Disk) :
        Through (Tree.Grows (Visited l (name :: rest)) d.tree) d
          ((makeFoldersFrom l' rest).on d).2 :=
      (ih l' d (.rest (.refl _ _))).mono fun t h => h.mono fun k hk => (hl ▸ hk).step
    rw [on_makeFoldersFrom_cons]
    split_ifs with hf hidle hdots hlong hnone hdot
    · exact next (step_idle l hidle) d
    · exact next (hdots ▸ step_up l) d
    · exact hrest
    · exact hrest
    · have hstep : Location.step l name = l ++ [name] := step_into l hidle hdots
      have hvisit : Visited l (name :: rest) (l ++ [name]) :=
        Visited.step (hstep ▸ visited_self _ rest)
      have hput : Tree.Grows (Visited l (name :: rest)) d.tree (d.tree.put (l ++ [name]) .folder) :=
        Tree.grows_put hnone (by simpa using hf) hvisit
      have hedit : Through (Tree.Grows (Visited l (name :: rest)) d.tree) d
          (d.after (.put (l ++ [name]) .folder)) := .edit (.refl _ _) hput
      exact hedit.trans ((next hstep _).mono fun t h => hput.trans h)
    · exact next (step_into l hidle hdots) d
    · exact hrest

/-- Nothing is made where names lead to a folder. -/
theorem makeFoldersFrom_of_follow {l k : Location} {names : List String} {d : Disk}
    (h : d.tree.follow l names = .ok k) (hk : d.tree.isFolder k) :
    (makeFoldersFrom l names).on d = (.ok (), d) := by
  induction names generalizing l with
  | nil =>
    cases Except.ok.inj h
    rw [on_makeFoldersFrom_nil, if_pos hk]
  | cons name rest ih =>
    rw [Tree.follow] at h
    rw [on_makeFoldersFrom_cons]
    split_ifs at h ⊢
    · exact ih h
    · exact ih h
    · exact ih h

/-- Folders are made in a folder only. -/
theorem isFolder_start_of_makeFoldersFrom {l : Location} {names : List String} {d : Disk}
    (h : ((makeFoldersFrom l names).on d).1 = .ok ()) : d.tree.isFolder l := by
  by_contra hl
  cases names <;> simp [on_makeFoldersFrom_nil, on_makeFoldersFrom_cons, hl] at h

/-- When the folders are made, names lead over folders and to one. -/
theorem isFolder_of_makeFoldersFrom {l k : Location} {names : List String} {d : Disk}
    (h : ((makeFoldersFrom l names).on d).1 = .ok ()) (hk : Visited l names k) :
    ((makeFoldersFrom l names).on d).2.tree.isFolder k := by
  have hstart := (through_makeFoldersFrom l names d).last.extends.isFolder
    (isFolder_start_of_makeFoldersFrom h)
  induction names generalizing l d with
  | nil =>
    obtain rfl : k = l := by simpa [Visited, trail] using hk
    exact hstart
  | cons name rest ih =>
    rcases visited_cons.1 hk with rfl | hk
    · exact hstart
    have next {l' : Location} {d : Disk} (h : ((makeFoldersFrom l' rest).on d).1 = .ok ())
        (hl' : Location.step l name = l') : ((makeFoldersFrom l' rest).on d).2.tree.isFolder k :=
      ih h (hl' ▸ hk) ((through_makeFoldersFrom l' rest d).last.extends.isFolder
        (isFolder_start_of_makeFoldersFrom h))
    rw [on_makeFoldersFrom_cons] at h ⊢
    split_ifs at h ⊢ with hf hidle hdots hlong hnone hdot
    · exact next h (step_idle l hidle)
    · exact next h (hdots ▸ step_up l)
    · exact next h (step_into l hidle hdots)
    · exact next h (step_into l hidle hdots)

/-- A location that a path leads through or to. -/
def Visits (c : Location) (p : Path) : Location → Prop := Visited (p.origin c) p.segments

theorem on_makeFolders (p : Path) (d : Disk) :
    (makeFolders p).on d =
      if p.text = "" then (.ok (), d)
      else if View.isUnusable p then (.error (.ofTrouble p .unusable), d)
      else (((makeFoldersFrom (d.start p) p.segments).on d).1.mapError (.ofTrouble p),
        ((makeFoldersFrom (d.start p) p.segments).on d).2) := by
  rw [makeFolders, on_adapt]
  split_ifs <;> simp only [on_bind, on_get, on_pure, on_throw, *] <;> rfl

theorem through_makeFolders (p : Path) (d : Disk) :
    Through (Tree.Grows (Visits d.current p) d.tree) d ((makeFolders p).on d).2 := by
  rw [on_makeFolders]
  split_ifs
  · exact .rest (.refl _ _)
  · exact .rest (.refl _ _)
  · exact through_makeFoldersFrom _ _ d

theorem makeFolders_of_locate {p : Path} {d : Disk} {l : Location} (h : d.locate p = .ok l)
    (hl : d.tree.isFolder l) : (makeFolders p).on d = (.ok (), d) := by
  unfold View.locate at h
  rw [on_makeFolders]
  split_ifs at h ⊢
  rw [makeFoldersFrom_of_follow h hl]
  rfl

theorem makeFoldersFrom_of_makeFolders {p : Path} {d : Disk} (hp : p.text ≠ "")
    (h : ((makeFolders p).on d).1 = .ok ()) :
    ((makeFoldersFrom (p.origin d.current) p.segments).on d).1 = .ok () ∧
      ((makeFoldersFrom (p.origin d.current) p.segments).on d).2 = ((makeFolders p).on d).2 := by
  rw [on_makeFolders, if_neg hp] at h ⊢
  split_ifs at h ⊢
  refine ⟨?_, rfl⟩
  change ((makeFoldersFrom (d.start p) p.segments).on d).1 = _
  cases hr : ((makeFoldersFrom (d.start p) p.segments).on d).1 with
  | ok u => rfl
  | error e =>
    rw [hr] at h
    cases h

/-- When the folders of a path are made, it leads over folders and to one. -/
theorem isFolder_of_makeFolders {p : Path} {d : Disk} (hp : p.text ≠ "")
    (h : ((makeFolders p).on d).1 = .ok ()) {k : Location} (hk : Visits d.current p k) :
    ((makeFolders p).on d).2.tree.isFolder k := by
  obtain ⟨hok, heq⟩ := makeFoldersFrom_of_makeFolders hp h
  rw [← heq]
  exact isFolder_of_makeFoldersFrom hok hk

/-- A location has no other names than a path and the location from which it is seen. -/
def Within (c : Location) (p : Path) (k : Location) : Prop :=
  ∀ n ∈ k, n ∈ c ∨ n ∈ p.segments ∨ n = ""

theorem Visits.within {c k : Location} {p q : Path} (h : Visits c q k)
    (hq : ∀ n ∈ q.segments, n ∈ p.segments ∨ n = "") : Within c p k := by
  have horigin : ∀ n ∈ q.origin c, n ∈ c := by
    intro n hn
    unfold Path.origin at hn
    split at hn
    · cases hn
    · exact hn
  intro n hn
  have hmem : n ∈ q.origin c ∨ n ∈ q.segments := by
    rcases h with h | rfl
    · exact trail_subset _ _ k h n hn
    · exact walk_subset _ _ n hn
  exact hmem.imp (horigin n) (hq n)

theorem through_makeFoldersTo (p : Path) (d : Disk) :
    Through (Tree.Grows (Within d.current p) d.tree) d ((makeFoldersTo p).on d).2 := by
  unfold makeFoldersTo
  split
  · rename_i q hq
    split
    · exact .rest (.refl _ _)
    · exact (through_makeFolders q d).mono fun t h =>
        h.mono fun k hk => hk.within (Path.mem_segments_parent? hq)
  · exact .rest (.refl _ _)

end Disk
end Rollout

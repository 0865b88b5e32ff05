import Mathlib.Tactic.Common
import Rollout.Proofs.FileTree.Folders

/-!
# Folders of one's own

A temporary folder is made where nothing was (`makeTemporary_cases`). Discarding it later leaves
the tree as it was, if nothing outside the folder has changed (`Vacant.get?_discarded`).
-/

namespace Rollout

open Location DiskTask

namespace Disk

theorem on_orFail {α : Type} (p : Path) (r : Except Trouble α) (d : Disk) :
    (orFail p r).on d = (r.mapError (.ofTrouble p), d) := by
  cases r <;> rfl

/-- A path to a location where nothing is, in a folder to which the rest of the path leads. -/
structure Vacant (v : View) (p : Path) (l : Location) : Prop where
  place : ∃ pl, v.place p = .ok pl ∧ pl.location? = .ok l
  absent : v.tree.get? l = none
  trail : ∀ s ∈ trail (p.origin v.current) p.segments, v.tree.isFolder s

/-- The path of a folder that is made in another. -/
def temporaryPath (v : View) (folder : Path) (name : String) : Path :=
  (fromTop v folder).child name

theorem makeTemporary_cases (folder : Path) {name : String} (hname : Path.IsName name) (d : Disk) :
    (∃ e, (makeTemporary folder name).on d = (.error e, d)) ∨
      ∃ l, Vacant d.toView (temporaryPath d.toView folder name) l ∧
        (makeTemporary folder name).on d =
          (.ok (temporaryPath d.toView folder name), d.after (.put l .folder)) := by
  rw [makeTemporary, on_bind, on_get]
  simp only
  rw [← temporaryPath]
  cases hpl : d.place (temporaryPath d.toView folder name) with
  | error e => exact .inl (by cases e <;> exact ⟨_, rfl⟩)
  | ok pl =>
    simp only [bind, Except.bind]
    cases hl : pl.location? with
    | error e => exact .inl (by cases e <;> exact ⟨_, rfl⟩)
    | ok l =>
      by_cases hnone : d.tree.get? l = none
      · refine .inr ⟨l, ⟨⟨pl, hpl, hl⟩, hnone, ?_⟩, ?_⟩
        · exact View.isFolder_of_place_child hname hpl hl
        · simp only [if_pos hnone]
          rfl
      · simp only [if_neg hnone]
        exact .inl ⟨_, rfl⟩

/-- In a vacant place a folder can be made. -/
theorem makeTemporary_of_vacant {folder : Path} {name : String} {d : Disk} {l : Location}
    (h : Vacant d.toView (temporaryPath d.toView folder name) l) :
    (makeTemporary folder name).on d =
      (.ok (temporaryPath d.toView folder name), d.after (.put l .folder)) := by
  obtain ⟨pl, hplace, hl⟩ := h.place
  rw [makeTemporary, on_bind, on_get]
  simp only
  rw [← temporaryPath, hplace]
  simp only [bind, Except.bind, hl, if_pos h.absent]
  rfl

/-- A place stays vacant while nothing comes there and the way to it stays. -/
theorem Vacant.congr {v v' : View} {p : Path} {l : Location} (h : Vacant v p l)
    (hc : v'.current = v.current) (habsent : v'.tree.get? l = none)
    (htrail : ∀ s ∈ Location.trail (p.origin v.current) p.segments, v'.tree.isFolder s) :
    Vacant v' p l := by
  obtain ⟨pl, hplace, hl⟩ := h.place
  obtain ⟨last, hname⟩ := View.name_of_location? hl
  exact ⟨⟨pl, View.place_mono hplace hname hc fun s hs _ => htrail s hs, hl⟩, habsent, hc ▸ htrail⟩

theorem on_removeFolder (p : Path) (d : Disk) :
    (removeFolder p).on d =
      match d.locate p with
      | .error t => (.error (.ofTrouble p t), d)
      | .ok l =>
        if d.tree.isFolder l then
          match View.place ⟨d.tree.clear l, d.current⟩ p with
          | .ok ⟨_, some _, _⟩ => (.ok (), d.after (.remove l))
          | .ok ⟨_, none, _⟩ => (.error .io, d.after (.clear l))
          | .error .unusable => (.error .io, d.after (.clear l))
          | .error .absent => (.ok (), d.after (.clear l))
        else (.error .io, d) := by
  rw [removeFolder, on_bind, on_get]
  simp only
  rw [on_bind, on_orFail]
  cases d.locate p with
  | error t => rfl
  | ok l =>
    simp only [Except.mapError]
    by_cases hf : d.tree.isFolder l
    · rw [if_pos hf, if_pos hf]
      rcases View.place ⟨d.tree.clear l, d.current⟩ p with (_ | _) | ⟨_, _ | _, _⟩ <;> rfl
    · rw [if_neg hf, if_neg hf]
      rfl

/-- Removing a folder touches nothing outside it, however it ends. -/
theorem through_removeFolder (p : Path) (d : Disk) :
    Through (Tree.SameOff (p.spot d.current <+: ·) d.tree) d ((removeFolder p).on d).2 := by
  have hrest : Through (Tree.SameOff (p.spot d.current <+: ·) d.tree) d d := .rest (.refl _ _)
  rw [on_removeFolder]
  cases hl : d.locate p with
  | error t => exact hrest
  | ok l =>
    have hspot := View.locate_eq_spot hl
    have hremove : Through (Tree.SameOff (p.spot d.current <+: ·) d.tree) d (d.after (.remove l)) :=
      .edit (.refl _ _) fun k hk => Tree.get?_alter_of_not_prefix _ _ (hspot ▸ hk)
    have hclear : Through (Tree.SameOff (p.spot d.current <+: ·) d.tree) d (d.after (.clear l)) :=
      .edit (.refl _ _) fun k hk => Tree.get?_alter_of_not_prefix _ _ (hspot ▸ hk)
    simp only
    split
    · split <;> assumption
    · exact hrest

/-- The disk without a folder, if that could be removed. -/
def discarded (d : Disk) (p : Path) : Disk := ((discard p).run d).2

theorem discarded_eq (p : Path) (d : Disk) : d.discarded p = ((removeFolder p).on d).2 := rfl

namespace Vacant

variable {v : View} {p : Path} {l : Location} (h : Vacant v p l)
include h

theorem spot : p.spot v.current = l := by
  obtain ⟨pl, hpl, hl⟩ := h.place
  exact (View.location_eq_spot hpl hl).1.symm

theorem ne_nil : l ≠ [] := Tree.ne_nil_of_none h.absent

theorem isFolder_dropLast : v.tree.isFolder l.dropLast := by
  obtain ⟨pl, hpl, hl⟩ := h.place
  exact (View.location_eq_spot hpl hl).2.2.1

/-- The trail does not lead through the location itself. -/
theorem not_prefix : ∀ s ∈ Location.trail (p.origin v.current) p.segments, ¬ l <+: s := by
  intro s hs hp
  have hf := Tree.get?_of_isFolder (h.trail s hs)
  rw [Tree.get?_under h.absent hp] at hf
  cases hf

/-- The path leads to the folder that is made there, as long as its trail is there. -/
theorem locate {d : Disk} (hc : d.current = v.current)
    (htrail : ∀ s ∈ Location.trail (p.origin v.current) p.segments, d.tree.isFolder s)
    (hl : d.tree.isFolder l) : d.locate p = .ok l := by
  obtain ⟨pl, hpl, hloc⟩ := h.place
  obtain ⟨last, hlast⟩ := View.name_of_location? hloc
  exact View.locate_of_place (View.place_mono hpl hlast hc fun s hs _ => htrail s hs) hloc hl

/-- The folder is removed whole, as long as the path leads to it. -/
theorem on_removeFolder {d : Disk} (hc : d.current = v.current)
    (htrail : ∀ s ∈ Location.trail (p.origin v.current) p.segments, d.tree.isFolder s)
    (hl : d.tree.isFolder l) : (removeFolder p).on d = (.ok (), d.after (.remove l)) := by
  obtain ⟨pl, hpl, hloc⟩ := h.place
  obtain ⟨last, hlast⟩ := View.name_of_location? hloc
  have hparent : d.tree.isFolder l.dropLast :=
    Tree.isFolder_dropLast (by simp [Tree.get?_of_isFolder hl])
  have hcleared : View.place ⟨d.tree.clear l, d.current⟩ p = .ok pl := by
    refine View.place_mono (v := v) hpl hlast hc fun s hs _ => ?_
    have hs' := htrail s hs
    rw [Tree.isFolder, Tree.get?_clear d.tree s h.ne_nil hparent,
      if_neg fun hp => h.not_prefix s hs hp.1, ← Tree.isFolder, hs']
  rw [Disk.on_removeFolder, h.locate hc htrail hl]
  simp only [if_pos hl, hcleared]
  obtain ⟨folder, name, slashed⟩ := pl
  cases hlast
  rfl

/-- Discarding the folder brings back the tree before it, if nothing else has changed. -/
theorem get?_discarded {d : Disk} (hc : d.current = v.current)
    (hsame : Tree.SameOff (l <+: ·) v.tree d.tree) (hl : d.tree.isFolder l) (k : Location) :
    (d.discarded p).tree.get? k = v.tree.get? k := by
  have htrail : ∀ s ∈ Location.trail (p.origin v.current) p.segments, d.tree.isFolder s := by
    intro s hs
    rw [hsame.isFolder (h.not_prefix s hs), h.trail s hs]
  rw [discarded_eq, h.on_removeFolder hc htrail hl]
  change (d.tree.remove l).get? k = _
  rw [Tree.get?_remove d.tree k h.ne_nil]
  split_ifs with hk
  · exact (Tree.get?_under h.absent hk).symm
  · exact hsame k hk

/-- Nothing needs to be made for an entry of the folder. -/
theorem on_makeFoldersTo {q : Path} {name inner : String} (hp : p = q.child name)
    (hname : Path.IsName name) (hinner : Path.IsName inner) {d : Disk}
    (hc : d.current = v.current)
    (htrail : ∀ s ∈ Location.trail (p.origin v.current) p.segments, d.tree.isFolder s)
    (hl : d.tree.isFolder l) : (makeFoldersTo (p.child inner)).on d = (.ok (), d) := by
  have hparent : (p.child inner).parent? = some p := by
    rw [hp]
    exact Path.parent?_child_child hname hinner q
  unfold makeFoldersTo
  rw [hparent]
  simp only
  split
  · rfl
  · exact makeFolders_of_locate (h.locate hc htrail hl) hl

theorem extends_put (e : Entry) : Tree.Extends v.tree (v.tree.put l e) :=
  Tree.extends_put h.absent h.isFolder_dropLast

theorem get?_put (e : Entry) (k : Location) :
    (v.tree.put l e).get? k = if k = l then some e else v.tree.get? k :=
  Tree.get?_put_absent h.absent h.isFolder_dropLast k

end Vacant
end Disk
end Rollout

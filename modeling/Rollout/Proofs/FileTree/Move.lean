import Mathlib.Tactic.Common
import Rollout.Proofs.FileTree.OwnFolder

/-!
# Moves

A move that fails has made some folders at most; one that succeeds takes its source, with all
that is in it, to a target that held nothing but an entry of the same kind (`rename_cases`).
-/

namespace Rollout

open Location DiskTask

namespace Tree

/-- An empty folder holds nothing. -/
theorem get?_of_entriesOf_nil {t : Tree} {l r : Location} (h : t.entriesOf l = []) (hr : r ≠ []) :
    t.get? (l ++ r) = none := by
  obtain ⟨name, r, rfl⟩ := List.exists_cons_of_ne_nil hr
  unfold get? entriesOf at *
  rw [node?, Node.find?_append, ← node?, Node.find?_cons]
  cases hn : t.node? l with
  | none => rfl
  | some n =>
    have hes : n.entries = [] := by simpa [hn] using h
    simp [hes, Dict.get?, Node.find?_none]

/-- A file or an empty folder is all that there is at and below its location. -/
theorem eq_of_get?_append {t : Tree} {l r : Location} {e e' : Entry} (h : t.get? l = some e)
    (hempty : e = .folder → t.entriesOf l = []) (hr : t.get? (l ++ r) = some e') :
    r = [] ∧ e' = e := by
  by_cases hnil : r = []
  · subst hnil
    rw [List.append_nil, h] at hr
    exact ⟨rfl, (Option.some.inj hr).symm⟩
  · exfalso
    have hsome : t.get? (l ++ r) ≠ none := by simp [hr]
    have hf := get?_of_isFolder (isFolder_of_append hsome hnil)
    rw [h] at hf
    rw [get?_of_entriesOf_nil (hempty (Option.some.inj hf)) hnil] at hr
    cases hr

end Tree

namespace Disk

variable {v : View} {source target : Path}

theorem movement?_eq_ok {m : Option (Location × Location)} (h : movement? v source target = .ok m) :
    ∃ pa pb a b, v.place source = .ok pa ∧ pa.location? = .ok a ∧
      v.place target = .ok pb ∧ pb.location? = .ok b ∧ v.tree.get? a ≠ none ∧
      (m = none ∧ a = b ∨ m = some (a, b) ∧ Tree.Movable v.tree a b) := by
  unfold movement? at h
  simp only [bind, Except.bind, throw, throwThe, MonadExceptOf.throw] at h
  split_ifs at h
  cases hpa : v.place source with
  | error e => simp [hpa] at h
  | ok pa =>
  cases hpb : v.place target with
  | error e => simp [hpa, hpb] at h
  | ok pb =>
  cases ha : pa.location? with
  | error e => simp [hpa, hpb, ha] at h
  | ok a =>
  simp only [hpa, hpb, ha] at h
  split_ifs at h
  cases hentry : v.tree.get? a with
  | none => simp [hentry] at h
  | some entry =>
  cases hb : pb.location? with
  | error e => simp [hentry, hb] at h
  | ok b =>
  simp only [hentry, hb] at h
  have hthere : v.tree.get? a ≠ none := by simp [hentry]
  refine ⟨pa, pb, a, b, rfl, ha, rfl, hb, hthere, ?_⟩
  split at h
  case isTrue => cases h
  split at h
  case isTrue hsame => exact .inl ⟨(Except.ok.inj h).symm, hsame⟩
  split at h
  case isTrue => cases h
  rename_i hinside
  have hplace := View.location_eq_spot hpa ha
  have hplace' := View.location_eq_spot hpb hb
  have movable (hfree : ∀ r e, v.tree.get? (b ++ r) = some e →
      r = [] ∧ (e = .folder ↔ v.tree.isFolder a)) : Tree.Movable v.tree a b :=
    ⟨hplace.2.1, hplace'.2.1, hthere, by simpa using hinside, hplace'.2.2.1, hfree⟩
  right
  cases htarget : v.tree.get? b with
  | none =>
    simp only [htarget] at h
    refine ⟨(Except.ok.inj h).symm, movable fun r e hr => ?_⟩
    rw [Tree.get?_append_of_none htarget] at hr
    cases hr
  | some e =>
  cases e with
  | folder =>
    simp only [htarget] at h
    split at h
    case isFalse => cases h
    rename_i hempty
    obtain ⟨hfolder, hnil⟩ : entry = .folder ∧ v.tree.entriesOf b = [] := by simpa using hempty
    refine ⟨(Except.ok.inj h).symm, movable fun r e hr => ?_⟩
    obtain ⟨hr', rfl⟩ := Tree.eq_of_get?_append htarget (fun _ => hnil) hr
    simp [hr', Tree.isFolder, hentry, hfolder]
  | file c =>
    simp only [htarget] at h
    split at h
    case isTrue => cases h
    rename_i hfolder
    refine ⟨(Except.ok.inj h).symm, movable fun r e hr => ?_⟩
    obtain ⟨hr', rfl⟩ := Tree.eq_of_get?_append htarget (by simp) hr
    simpa [hr', Tree.isFolder, hentry] using hfolder

theorem on_rename (source target : Path) (d : Disk) :
    (rename source target).on d =
      match (makeFoldersTo target).on d with
      | (.error e, d') => (.error e, d')
      | (.ok _, d') =>
        match movement? d'.toView source target with
        | .ok none => (.ok (), d')
        | .ok (some (a, b)) => (.ok (), d'.after (.move a b))
        | .error t => (.error (.ofTrouble source t), d') := by
  rw [rename, on_bind]
  rcases (makeFoldersTo target).on d with ⟨_ | _, d'⟩
  · rfl
  · simp only [on_bind, on_get]
    rcases movement? d'.toView source target with _ | (_ | ⟨a, b⟩) <;> rfl

/-- How a move ends. The folders of the target are made in any case; then the move is refused,
has nothing to do, or is done. -/
theorem rename_cases (source target : Path) (d : Disk) {a b : Location}
    (ha : a = source.spot d.current) (hb : b = target.spot d.current) {d' : Disk}
    (hd : d' = ((makeFoldersTo target).on d).2) :
    (∃ e, (rename source target).on d = (.error e, d')) ∨
      (rename source target).on d = (.ok (), d') ∧ a = b ∧ d'.tree.get? a ≠ none ∨
      (rename source target).on d = (.ok (), d'.after (.move a b)) ∧ Tree.Movable d'.tree a b ∧
        (∀ s ∈ trail (source.origin d.current) source.segments, d'.tree.isFolder s ∨ s = a) ∧
        ∃ pb, d'.place target = .ok pb ∧ pb.location? = .ok b := by
  have hc : d'.current = d.current := hd ▸ (through_makeFoldersTo target d).current
  rw [on_rename]
  generalize (makeFoldersTo target).on d = made at hd
  obtain ⟨result, d''⟩ := made
  obtain rfl : d' = d'' := hd
  cases result with
  | error e => exact .inl ⟨e, rfl⟩
  | ok _ =>
    cases hm : movement? d'.toView source target with
    | error t => exact .inl ⟨_, by simp only [hm]; rfl⟩
    | ok m =>
      right
      obtain ⟨pa, pb, a', b', hpa, ha', hpb, hb', hthere, hm'⟩ := movement?_eq_ok hm
      have hsource := View.location_eq_spot hpa ha'
      have htarget := View.location_eq_spot hpb hb'
      rw [hc] at hsource htarget
      obtain rfl : a = a' := ha.trans hsource.1.symm
      obtain rfl : b = b' := hb.trans htarget.1.symm
      rcases hm' with ⟨rfl, hab⟩ | ⟨rfl, hmove⟩
      · exact .inl ⟨by simp only [hm], hab, hthere⟩
      · exact .inr ⟨by simp only [hm], hmove, hsource.2.2.2, pb, hpb, hb'⟩

/-- Where something is moved both paths have a place. -/
theorem places_of_rename {d d' : Disk} (h : (rename source target).on d = (.ok (), d')) :
    ∃ made : Disk, (∃ pl l, made.place source = .ok pl ∧ pl.location? = .ok l) ∧
      ∃ pl l, made.place target = .ok pl ∧ pl.location? = .ok l := by
  rw [on_rename] at h
  generalize (makeFoldersTo target).on d = ended at h
  obtain ⟨result, made⟩ := ended
  cases result with
  | error e => cases h
  | ok _ =>
    simp only at h
    cases hm : movement? made.toView source target with
    | error t =>
      rw [hm] at h
      cases h
    | ok m =>
      obtain ⟨pa, pb, a, b, hpa, ha, hpb, hb, -⟩ := movement?_eq_ok hm
      exact ⟨made, ⟨pa, a, hpa, ha⟩, pb, b, hpb, hb⟩

end Disk
end Rollout

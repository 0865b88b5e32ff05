import Mathlib.Tactic.Common
import Rollout.Proofs.FileTree.PathText

/-!
# Places of paths

A place is where a path would put an entry. Its location is the one that the path leads to once
the entry is there (`locate_of_place`), and like that it depends on the tree only through the
folders of the trail (`place_mono`).
-/

namespace Rollout

open Location

namespace View

variable {v : View} {p : Path}

/-- The place that names lead to from a location, the last name first. -/
def placeOf (v : View) (l : Location) (slashed : Bool) : List String → Except Trouble Place
  | [] => .ok ⟨l, none, slashed⟩
  | last :: before =>
    (v.tree.follow l before.reverse).bind fun folder =>
      if v.tree.isFolder folder then
        .ok ⟨folder, if last = "." ∨ last = ".." then none else some last, slashed⟩
      else .error .unusable

theorem place_eq (v : View) (p : Path) :
    v.place p =
      if p.text = "" then .error .absent
      else if isUnusable p then .error .unusable
      else v.placeOf (v.start p) (p.segments.reverse.head? = some "") p.ending := by
  unfold place
  by_cases h₁ : p.text = ""
  · rw [if_pos h₁, if_pos h₁]
    rfl
  rw [if_neg h₁, if_neg h₁]
  by_cases h₂ : isUnusable p
  · rw [if_pos h₂]
    simp only [if_pos h₂]
    rfl
  rw [if_neg h₂]
  simp only [if_neg h₂]
  rw [← Path.ending]
  cases p.ending with
  | nil => rfl
  | cons last before =>
    simp only [placeOf, bind, Except.bind]
    cases v.tree.follow (v.start p) before.reverse with
    | error e => rfl
    | ok folder =>
      cases hf : v.tree.isFolder folder with
      | true =>
        simp only [hf, Bool.not_true, Bool.false_eq_true, if_false, if_true]
        split <;> rfl
      | false =>
        simp only [hf, Bool.not_false, if_true, Bool.false_eq_true, if_false]
        rfl

/-- How the segments of a path make up a place with a name. -/
structure Placed (v : View) (p : Path) (pl : Place) (last : String) : Prop where
  text : p.text ≠ ""
  usable : isUnusable p = false
  named : last ≠ "" ∧ last ≠ "." ∧ last ≠ ".."
  segments : ∃ before after, p.segments = before ++ last :: after ∧ (∀ s ∈ after, s = "") ∧
    v.tree.follow (v.start p) before = .ok pl.folder
  folder : v.tree.isFolder pl.folder
  slashed : pl.slashed = decide (p.segments.reverse.head? = some "")

theorem placed {pl : Place} {last : String} (h : v.place p = .ok pl) (hn : pl.name = some last) :
    Placed v p pl last := by
  rw [place_eq] at h
  split_ifs at h with h₁ h₂
  cases hd : p.ending with
  | nil =>
    rw [hd] at h
    rw [← Except.ok.inj h] at hn
    cases hn
  | cons name before =>
    have hlast : p.last? = some name := by simp [Path.last?, hd]
    have hlead : p.lead = before.reverse := by simp [Path.lead, hd]
    obtain ⟨slashes, hsegs, hslashes⟩ := Path.segments_lead hlast
    rw [hd] at h
    simp only [placeOf] at h
    cases hfollow : v.tree.follow (v.start p) before.reverse with
    | error e =>
      rw [hfollow] at h
      cases h
    | ok folder =>
      rw [hfollow] at h
      simp only [Except.bind] at h
      split at h
      case isFalse => cases h
      case isTrue hf =>
        rw [← Except.ok.inj h] at hn ⊢
        simp only at hn
        split at hn
        · cases hn
        · rename_i hdots
          cases hn
          exact ⟨h₁, by simpa using h₂, ⟨Path.last?_ne hlast, by tauto, by tauto⟩,
            ⟨before.reverse, slashes, hlead ▸ hsegs, hslashes, hfollow⟩, hf, rfl⟩

namespace Placed

variable {pl : Place} {last : String} (h : Placed v p pl last)
include h

theorem step (l : Location) : Location.step l last = l ++ [last] := by
  obtain ⟨h₁, h₂, h₃⟩ := h.named
  simp [Location.step, Path.isIdle, h₁, h₂, h₃]

theorem spot : p.spot v.current = pl.folder ++ [last] := by
  obtain ⟨before, after, hsegs, hafter, hfollow⟩ := h.segments
  have hidle : ∀ s ∈ after, Path.isIdle s := fun s hs => by simp [hafter s hs, Path.isIdle]
  rw [Path.spot, hsegs, walk_append, walk_cons, h.step, walk_idle hidle]
  rw [(Tree.follow_eq_ok hfollow).1]
  rfl

/-- The trail of a place is one of folders, the place itself aside. -/
theorem trail : ∀ s ∈ trail (p.origin v.current) p.segments,
    v.tree.isFolder s ∨ s = p.spot v.current := by
  obtain ⟨before, after, hsegs, hafter, hfollow⟩ := h.segments
  have hidle : ∀ s ∈ after, Path.isIdle s := fun s hs => by simp [hafter s hs, Path.isIdle]
  obtain ⟨hwalk, htrail, -⟩ := Tree.follow_eq_ok hfollow
  intro s hs
  rw [hsegs, trail_append] at hs
  rcases List.mem_append.1 hs with hs | hs
  · exact .inl (htrail s hs)
  · have hwalk : pl.folder = walk (p.origin v.current) before := hwalk
    rw [← hwalk, Location.trail, h.step] at hs
    rcases List.mem_cons.1 hs with rfl | hs
    · exact .inl h.folder
    · exact .inr ((Path.mem_trail_idle hidle hs).trans h.spot.symm)

theorem mem_trail {s : Location} (hs : s = pl.folder ∨
    ∃ before after, p.segments = before ++ last :: after ∧
      s ∈ Location.trail (p.origin v.current) before) :
    s ∈ Location.trail (p.origin v.current) p.segments := by
  rcases hs with rfl | ⟨before, after, hsegs, hs⟩
  · obtain ⟨before, after, hsegs, -, hfollow⟩ := h.segments
    have hwalk : pl.folder = walk (p.origin v.current) before := (Tree.follow_eq_ok hfollow).1
    rw [hsegs, trail_append, hwalk]
    exact List.mem_append_right _ (by simp [Location.trail])
  · rw [hsegs, trail_append]
    exact List.mem_append_left _ hs

end Placed

/-- A path names the same place in a tree that keeps the folders of its trail. -/
theorem place_mono {v' : View} {pl : Place} {last : String} (h : v.place p = .ok pl)
    (hn : pl.name = some last) (hc : v'.current = v.current)
    (hkeep : ∀ s ∈ trail (p.origin v.current) p.segments, v.tree.isFolder s → v'.tree.isFolder s) :
    v'.place p = .ok pl := by
  have hp := placed h hn
  have hstart : v'.start p = v.start p := by rw [start, start, hc]
  rw [place_eq] at h ⊢
  rw [if_neg hp.text, if_neg (by simp [hp.usable])] at h ⊢
  obtain ⟨before, after, hsegs, hafter, hfollow⟩ := hp.segments
  have hending : p.ending = last :: before.reverse := by
    obtain ⟨hlast, hlead⟩ := Path.last?_eq hsegs hafter hp.named.1
    rw [Path.ending_eq hlast, hlead]
  have hfollow' : v'.tree.follow (v'.start p) before = .ok pl.folder := by
    rw [hstart]
    refine Tree.follow_mono hfollow (fun s hs => ?_) ?_
    · exact hkeep s (hp.mem_trail (.inr ⟨before, after, hsegs, hs⟩))
        ((Tree.follow_eq_ok hfollow).2.1 s hs)
    · have := hkeep _ (hp.mem_trail (.inl rfl)) hp.folder
      simp [Tree.get?_of_isFolder this]
  rw [hending] at h ⊢
  simp only [placeOf, List.reverse_reverse] at h ⊢
  rw [hfollow] at h
  rw [hfollow']
  simp only [Except.bind] at h ⊢
  rw [if_pos hp.folder] at h
  rw [if_pos (hkeep _ (hp.mem_trail (.inl rfl)) hp.folder)]
  exact h

theorem name_of_location? {pl : Place} {l : Location} (h : pl.location? = .ok l) :
    ∃ last, pl.name = some last := by
  cases hn : pl.name with
  | none => simp [Place.location?, hn] at h
  | some last => exact ⟨last, rfl⟩

/-- What is at a place is found there: a folder, or what the path names without a slash behind
it. -/
theorem locate_of_there {pl : Place} {l : Location} (h : v.place p = .ok pl)
    (hl : pl.location? = .ok l) (hthere : v.tree.get? l ≠ none)
    (hend : v.tree.isFolder l ∨ pl.slashed = false) : v.locate p = .ok l := by
  unfold Place.location? at hl
  cases hn : pl.name with
  | none => simp [hn] at hl
  | some last =>
    have hp := placed h hn
    simp only [hn] at hl
    split at hl
    case isTrue => cases hl
    case isFalse hshort =>
      cases hl
      obtain ⟨before, after, hsegs, hafter, hfollow⟩ := hp.segments
      have hidle : v.tree.follow (pl.folder ++ [last]) after = .ok (pl.folder ++ [last]) := by
        rcases hend with hfolder | hslashed
        · clear hsegs
          induction after with
          | nil => rfl
          | cons s after ih =>
            have hs : Path.isIdle s := by simp [hafter s (by simp), Path.isIdle]
            rw [Tree.follow, if_pos hfolder, if_pos hs, ih fun s hs => hafter s (by simp [hs])]
        · rcases List.eq_nil_or_concat after with rfl | ⟨zs, s, rfl⟩
          · rfl
          · have hs : s = "" := hafter s (by simp)
            rw [hp.slashed, hsegs] at hslashed
            simp [hs] at hslashed
      obtain ⟨h₁, h₂, h₃⟩ := hp.named
      rw [locate, if_neg hp.text, if_neg (by simp [hp.usable]), hsegs, Tree.follow_append, hfollow]
      simp only [Except.bind]
      rw [Tree.follow, if_pos hp.folder, if_neg (by simp [Path.isIdle, h₁, h₂]), if_neg h₃,
        if_neg hshort, if_neg hthere, hidle]

/-- A folder at a place is found there. -/
theorem locate_of_place {pl : Place} {l : Location} (h : v.place p = .ok pl)
    (hl : pl.location? = .ok l) (hfolder : v.tree.isFolder l) : v.locate p = .ok l :=
  locate_of_there h hl (by simp [Tree.get?_of_isFolder hfolder]) (.inl hfolder)

theorem location_eq_spot {pl : Place} {l : Location} (h : v.place p = .ok pl)
    (hl : pl.location? = .ok l) :
    l = p.spot v.current ∧ l ≠ [] ∧ v.tree.isFolder l.dropLast ∧
      ∀ s ∈ trail (p.origin v.current) p.segments, v.tree.isFolder s ∨ s = l := by
  unfold Place.location? at hl
  cases hn : pl.name with
  | none => simp [hn] at hl
  | some last =>
    have hp := placed h hn
    simp only [hn] at hl
    split at hl
    case isTrue => cases hl
    case isFalse =>
      cases hl
      have hspot := hp.spot
      refine ⟨hspot.symm, by simp, by simpa using hp.folder, fun s hs => ?_⟩
      rw [← hspot]
      exact hp.trail s hs

/-- The trail of an entry with a plain name is one of folders throughout. -/
theorem isFolder_of_place_child {q : Path} {name : String} {pl : Place} {l : Location}
    (hname : Path.IsName name) (h : v.place (q.child name) = .ok pl)
    (hl : pl.location? = .ok l) :
    ∀ s ∈ trail ((q.child name).origin v.current) (q.child name).segments, v.tree.isFolder s := by
  unfold Place.location? at hl
  cases hn : pl.name with
  | none => simp [hn] at hl
  | some last =>
    have hp := placed h hn
    obtain ⟨before, after, hsegs, hafter, hfollow⟩ := hp.segments
    obtain ⟨xs, ys, -, -, hchild⟩ := Path.segments_join q (Path.isAbsolute_name hname)
    rw [Path.segments_name hname, ← Path.child, hsegs] at hchild
    have hnil : after = [] := by
      rcases List.eq_nil_or_concat after with h | ⟨zs, s, rfl⟩
      · exact h
      · exfalso
        rw [List.concat_eq_append, ← List.cons_append, ← List.append_assoc] at hchild
        have : s = name := by simpa using (List.append_inj' hchild rfl).2
        exact hname.1 (this ▸ hafter s (by simp))
    obtain ⟨hwalk, htrail, -⟩ := Tree.follow_eq_ok hfollow
    intro s hs
    rw [hsegs, hnil, trail_append] at hs
    rcases List.mem_append.1 hs with hs | hs
    · exact htrail s hs
    · have hwalk : pl.folder = walk ((q.child name).origin v.current) before := hwalk
      rw [← hwalk] at hs
      rw [List.mem_singleton.1 hs]
      exact hp.folder

end View
end Rollout

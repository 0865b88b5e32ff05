import Mathlib.Tactic.Common
import Rollout.Proofs.FileTree.Write

/-!
# Inner paths

Names that never lead above where they start lead to the same place below any location
(`walk_append_left`); names that do lead above it lead out of some folder (`leaves`). What is
written at a path of the first kind, seen from a folder, stays in the folder
(`Path.IsInward.touched`), and the folder can be taken off the path again
(`Path.IsInward.below?_join`).
-/

namespace Rollout

open Location Disk

namespace Location

/-- Names that start `depth` levels below a location never lead above it. -/
def staysBelow : Nat → List String → Bool
  | _, [] => true
  | depth, name :: rest =>
    if Path.isIdle name then staysBelow depth rest
    else if name = ".." then depth ≠ 0 && staysBelow (depth - 1) rest
    else staysBelow (depth + 1) rest

/-- One name that stays below. -/
theorem staysBelow_cons {l : Location} {name : String} {rest : List String}
    (h : staysBelow l.length (name :: rest)) :
    staysBelow (step l name).length rest ∧ ∀ b, step (b ++ l) name = b ++ step l name := by
  rw [staysBelow] at h
  unfold step
  split_ifs at h ⊢ with hidle hup
  · exact ⟨h, fun _ => rfl⟩
  · obtain ⟨hne, hrest⟩ : l ≠ [] ∧ staysBelow (l.length - 1) rest := by simpa using h
    exact ⟨by rwa [List.length_dropLast], fun b => List.dropLast_append_of_ne_nil hne⟩
  · exact ⟨by simpa using h, fun b => List.append_assoc b l [name]⟩

/-- Names that stay below a location lead to the same place below any other. -/
theorem walk_append_left {l : Location} {names : List String} (h : staysBelow l.length names)
    (b : Location) : walk (b ++ l) names = b ++ walk l names := by
  induction names generalizing l with
  | nil => rfl
  | cons name rest ih =>
    obtain ⟨hrest, hstep⟩ := staysBelow_cons h
    rw [walk_cons, walk_cons, hstep, ih hrest]

theorem trail_append_left {l : Location} {names : List String} (h : staysBelow l.length names)
    (b : Location) : trail (b ++ l) names = (trail l names).map (b ++ ·) := by
  induction names generalizing l with
  | nil => rfl
  | cons name rest ih =>
    obtain ⟨hrest, hstep⟩ := staysBelow_cons h
    rw [trail, trail, List.map_cons, hstep, ih hrest]

theorem walk_of_staysBelow {names : List String} (h : staysBelow 0 names) (b : Location) :
    walk b names = b ++ walk [] names := by
  have hwalk := walk_append_left (l := []) h b
  rwa [List.append_nil] at hwalk

theorem trail_of_staysBelow {names : List String} (h : staysBelow 0 names) (b : Location) :
    trail b names = (trail [] names).map (b ++ ·) := by
  have htrail := trail_append_left (l := []) h b
  rwa [List.append_nil] at htrail

theorem staysBelow_of_append {depth : Nat} {xs ys : List String}
    (h : staysBelow depth (xs ++ ys)) : staysBelow depth xs := by
  induction xs generalizing depth with
  | nil => rfl
  | cons x xs ih =>
    rw [List.cons_append, staysBelow] at h
    rw [staysBelow]
    split_ifs at h ⊢
    · exact ih h
    · rw [Bool.and_eq_true] at h ⊢
      exact ⟨h.1, ih h.2⟩
    · exact ih h

theorem staysBelow_names {depth : Nat} {names : List String} (h : ∀ n ∈ names, Path.IsName n) :
    staysBelow depth names := by
  induction names generalizing depth with
  | nil => rfl
  | cons name rest ih =>
    obtain ⟨hempty, hdot, hup, -⟩ := h name (by simp)
    rw [staysBelow, if_neg (by simp [Path.isIdle, hempty, hdot]), if_neg hup]
    exact ih fun n hn => h n (by simp [hn])

theorem staysBelow_concat {depth : Nat} {names : List String} {name : String}
    (h : staysBelow depth names) (hname : Path.IsName name) :
    staysBelow depth (names ++ [name]) := by
  induction names generalizing depth with
  | nil => exact staysBelow_names (by simpa using hname)
  | cons n rest ih =>
    rw [staysBelow] at h
    rw [List.cons_append, staysBelow]
    split_ifs at h ⊢
    · exact ih h
    · rw [Bool.and_eq_true] at h ⊢
      exact ⟨h.1, ih h.2⟩
    · exact ih h

/-- Names do not lead back into a folder that they do not name. -/
theorem not_prefix_walk {n : String} {l : Location} {names : List String} (hn : n ∉ names)
    (h : ¬ [n] <+: l) : ¬ [n] <+: walk l names := by
  induction names generalizing l with
  | nil => exact h
  | cons name rest ih =>
    rw [walk_cons]
    refine ih (fun hmem => hn (by simp [hmem])) fun hstep => ?_
    unfold step at hstep
    split_ifs at hstep
    · exact h hstep
    · exact h (hstep.trans (List.dropLast_prefix l))
    · cases l with
      | nil =>
        have hname : n = name := by simpa using hstep
        exact hn (by simp [hname])
      | cons m l =>
        refine h ?_
        simpa using hstep

/-- Names that lead above a folder lead out of it, if they do not name it. -/
theorem leaves {n : String} {l : Location} {names : List String} (hn : n ∉ names)
    (h : staysBelow l.length names = false) : ¬ [n] <+: walk (n :: l) names := by
  induction names generalizing l with
  | nil => cases h
  | cons name rest ih =>
    have hrest : n ∉ rest := fun hmem => hn (by simp [hmem])
    rw [staysBelow] at h
    rw [walk_cons]
    unfold step
    split_ifs at h ⊢ with hidle hup
    · exact ih hrest h
    · cases l with
      | nil => exact not_prefix_walk hrest (by simp)
      | cons m l => exact ih (l := (m :: l).dropLast) hrest (by simpa using h)
    · exact ih (l := l ++ [name]) hrest (by simpa using h)

end Location

/-- What names lead to below one location they lead to below another, where the folders on the way
and the end are there too. -/
theorem Tree.follow_below {t t' : Tree} {b b' l k : Location} {names : List String}
    (h : t.follow (b ++ l) names = .ok (b ++ k)) (hbelow : staysBelow l.length names)
    (htrail : ∀ s ∈ Location.trail l names, t'.isFolder (b' ++ s))
    (hend : t'.get? (b' ++ k) ≠ none) : t'.follow (b' ++ l) names = .ok (b' ++ k) := by
  induction names generalizing l with
  | nil =>
    obtain rfl : l = k := List.append_cancel_left (Except.ok.inj h)
    rfl
  | cons name rest ih =>
    obtain ⟨hrest, hstep⟩ := staysBelow_cons hbelow
    have htail := fun s hs => htrail s (List.mem_cons_of_mem l hs)
    rw [Tree.follow] at h ⊢
    rw [if_pos (htrail l (by simp [Location.trail]))]
    split at h
    case isFalse => cases h
    case isTrue hl =>
      have hstep' := hstep b'
      have hstep := hstep b
      unfold step at hrest htail hstep hstep'
      split_ifs at h hrest htail hstep hstep' ⊢
      · exact ih h hrest htail
      · rw [hstep] at h
        rw [hstep']
        exact ih h hrest htail
      · rename_i habsent _
        exfalso
        rw [hstep'] at habsent
        cases rest with
        | nil =>
          rw [hstep] at h
          have hk : l ++ [name] = k := List.append_cancel_left (Except.ok.inj h)
          exact hend (hk ▸ habsent)
        | cons _ _ =>
          have hfolder := get?_of_isFolder (htail (l ++ [name]) (by simp [Location.trail]))
          rw [habsent] at hfolder
          cases hfolder
      · rw [hstep] at h
        rw [hstep']
        exact ih h hrest htail

/-- A path to an entry below where it starts that never leads above that. -/
structure Path.IsInward (p : Path) : Prop where
  relative : p.isAbsolute = false
  below : staysBelow 0 p.segments
  starts : ∃ first rest, p.segments = first :: rest ∧ isIdle first = false
  ends : ∃ names last, p.segments = names ++ [last] ∧ isIdle last = false ∧ last ≠ ".."

/-- The names of a path from the top are its segments without the idle ones. -/
theorem Path.names_of_isAbsolute {p : Path} (h : p.isAbsolute) :
    p.names = p.segments.filter (!isIdle ·) := by
  unfold Path.names
  cases p.segments with
  | nil => rfl
  | cons first rest =>
    by_cases hfirst : isIdle first
    · have hcond : first = "" ∨ (first = "." ∧ p.isAbsolute) := by
        simpa [isIdle, h] using hfirst
      simp [hcond, hfirst]
    · have hcond : ¬ (first = "" ∨ (first = "." ∧ p.isAbsolute)) := by
        simpa [isIdle, h] using hfirst
      simp [hcond, hfirst]

/-- Dropping as many names as a list has drops the list, where it ends in a name. -/
theorem Path.dropNames_append {last : String} (hlast : isIdle last = false)
    (xs ys : List String) :
    dropNames ((xs ++ [last]).filter (!isIdle ·)).length (xs ++ [last] ++ ys) = ys := by
  induction xs with
  | nil => simp [dropNames, hlast]
  | cons x xs ih =>
    by_cases hx : isIdle x
    · obtain ⟨n, hn⟩ : ∃ n, ((xs ++ [last]).filter (!isIdle ·)).length = n + 1 :=
        Nat.exists_eq_add_one.2 (List.length_pos_of_mem (a := last) (by simp [hlast]))
      have hskip : (x :: (xs ++ [last])).filter (!isIdle ·) = (xs ++ [last]).filter (!isIdle ·) :=
        List.filter_cons_of_neg (by simp [hx])
      rw [List.cons_append, hskip, hn, List.cons_append, dropNames, if_pos hx, ← hn]
      exact ih
    · simpa [hx, dropNames] using ih

namespace Path.IsInward

variable {rel : Path} (h : rel.IsInward)
include h

/-- Seen from a folder, an inward path leads below it. -/
theorem spot_join (dest : Path) (c : Location) :
    (dest.join rel).spot c = dest.spot c ++ walk [] rel.segments := by
  rw [Path.spot_join dest h.relative, walk_of_staysBelow h.below]

theorem ne_nil : walk [] rel.segments ≠ [] := by
  obtain ⟨names, last, hsegs, hlast, hup⟩ := h.ends
  rw [hsegs, walk_append, walk_cons, step_into _ (by simp [hlast]) hup, walk_nil]
  simp

theorem text_join (dest : Path) : (dest.join rel).text ≠ "" := by
  intro htext
  obtain ⟨names, last, hrel, hlast, -⟩ := h.ends
  obtain ⟨xs, ys, -, -, hjoin⟩ := segments_join dest h.relative
  have hend := congrArg List.getLast? (hjoin.symm.trans (segments_of_text_eq_empty htext))
  rw [hrel, ← List.append_assoc, List.getLast?_concat] at hend
  obtain rfl : last = "" := by simpa using hend
  cases hlast

/-- The folder of an inward path of a folder is in that folder, and so are the folders between. -/
theorem folder_join (dest : Path) (c : Location) :
    (∃ r, (dest.join rel).folder.spot c = dest.spot c ++ r) ∧
      ∀ s ∈ trail ((dest.join rel).folder.origin c) (dest.join rel).folder.segments,
        s ∈ trail (dest.origin c) dest.segments ∨ ∃ r, s = dest.spot c ++ r := by
  obtain ⟨xs, ys, hdest, hys, hsegs⟩ := segments_join dest h.relative
  obtain ⟨names, last, hrel, hlast, -⟩ := h.ends
  have hbelow : staysBelow 0 names := staysBelow_of_append (hrel ▸ h.below)
  have hsplit : (dest.join rel).segments = (xs ++ names) ++ [last] := by
    rw [hsegs, hrel, List.append_assoc]
  obtain ⟨hfolder, htrail⟩ := spot_folder (h.text_join dest) hsplit hlast c
  refine ⟨⟨walk [] names, ?_⟩, fun s hs => ?_⟩
  · rw [hfolder, origin_join dest h.relative, walk_append, ← walk_of_staysBelow hbelow, Path.spot,
      hdest, walk_append, walk_idle hys]
  · rcases (mem_trail_join dest h.relative c s).1 (htrail s hs) with hs | hs
    · exact .inl hs
    · rw [trail_of_staysBelow h.below] at hs
      obtain ⟨r, -, rfl⟩ := List.mem_map.1 hs
      exact .inr ⟨r, rfl⟩

/-- What a write at an inward path of a folder touches is inside the folder, if the folder and
those on the way to it are there. -/
theorem touched {dest : Path} {d : Disk} (hdest : d.tree.isFolder (dest.spot d.current))
    (htrail : ∀ s ∈ trail (dest.origin d.current) dest.segments, d.tree.isFolder s) {k : Location}
    (hk : Touched d (dest.join rel) k) :
    dest.spot d.current <+: k ∧ k ≠ dest.spot d.current := by
  obtain ⟨⟨names, hfolder⟩, hvisits⟩ := h.folder_join dest d.current
  rcases hk with ⟨hvisit, hnone⟩ | ⟨name, hname⟩
  · -- a folder that is made was missing, so it is not on the way to `dest`
    have hk : ∃ r, k = dest.spot d.current ++ r := by
      rcases hvisit with hs | hs
      · rcases hvisits k hs with hs | hs
        · rw [Tree.get?_of_isFolder (htrail k hs)] at hnone
          cases hnone
        · exact hs
      · exact ⟨names, hs.trans hfolder⟩
    obtain ⟨r, rfl⟩ := hk
    refine ⟨List.prefix_append _ r, fun hr => ?_⟩
    rw [hr, Tree.get?_of_isFolder hdest] at hnone
    cases hnone
  · rw [hname, hfolder, List.append_assoc]
    exact ⟨List.prefix_append _ _, by simp⟩

/-- The way to an inward path leads over the folder. -/
theorem follow_of_join {t : Tree} {dest : Path} {c k : Location}
    (hk : t.follow ((dest.join rel).origin c) (dest.join rel).segments = .ok k) :
    t.follow (dest.spot c) rel.segments = .ok k := by
  obtain ⟨xs, ys, hdest, hys, hjoin⟩ := segments_join dest h.relative
  rw [origin_join dest h.relative, hjoin, Tree.follow_append] at hk
  cases hxs : t.follow (dest.origin c) xs with
  | error e =>
    rw [hxs] at hk
    cases hk
  | ok l =>
    rw [hxs] at hk
    rw [Path.spot, hdest, walk_append, walk_idle hys, ← (Tree.follow_eq_ok hxs).1]
    exact hk

/-- Where an inward path of one folder leads somewhere, it leads to the same from another folder
that holds what the one does. -/
theorem locate_join {v v' : View} {dest dest' : Path}
    (hheld : Tree.HoldsKinds v.tree (dest.spot v.current) v'.tree (dest'.spot v'.current))
    (hl : v.locate (dest.join rel) = .ok ((dest.join rel).spot v.current))
    (hdest : v'.locate dest' = .ok (dest'.spot v'.current))
    (husable : View.isUnusable (dest'.join rel) = false) :
    v'.locate (dest'.join rel) = .ok ((dest'.join rel).spot v'.current) := by
  obtain ⟨htrail, hend⟩ := View.locate_eq_ok hl
  have hhere : v.tree.follow (dest.spot v.current ++ []) rel.segments =
      .ok (dest.spot v.current ++ walk [] rel.segments) := by
    rw [List.append_nil, ← h.spot_join]
    unfold View.locate at hl
    split_ifs at hl
    exact h.follow_of_join hl
  have hthere : v'.tree.follow (dest'.spot v'.current ++ []) rel.segments =
      .ok (dest'.spot v'.current ++ walk [] rel.segments) := by
    refine Tree.follow_below hhere h.below (fun s hs => ?_) ?_
    · have hfolder := htrail (dest.spot v.current ++ s) <| by
        refine (mem_trail_join dest h.relative v.current _).2.2 ?_
        rw [trail_of_staysBelow h.below]
        exact List.mem_map_of_mem hs
      exact hheld.isFolder hfolder
    · obtain ⟨e, he⟩ := Option.ne_none_iff_exists'.1 hend
      rw [h.spot_join] at he
      obtain ⟨e', he', -⟩ := hheld _ e he
      rw [he']
      exact Option.some_ne_none e'
  rw [List.append_nil, ← h.spot_join] at hthere
  unfold View.locate at hdest ⊢
  split_ifs at hdest
  rw [if_neg (h.text_join dest'), if_neg (by simp [husable])]
  exact (follow_join h.relative hdest).trans hthere

/-- A folder can be taken off its inward paths. -/
theorem below?_join {base : Path} (habsolute : base.isAbsolute)
    {xs : List String} {last : String} (hsegs : base.segments = xs ++ [last])
    (hlast : isIdle last = false) : base.below? (base.join rel) = some rel := by
  have hjoin : (base.join rel).segments = xs ++ [last] ++ rel.segments := by
    obtain ⟨xs', ys, hbase, hys, hjoin⟩ := segments_join base h.relative
    rcases List.eq_nil_or_concat ys with rfl | ⟨ys, y, rfl⟩
    · rw [hjoin, ← hsegs, hbase, List.append_nil]
    · rw [hsegs, List.concat_eq_append, ← List.append_assoc] at hbase
      have hy : isIdle y := hys y (by simp)
      rw [← List.singleton_inj.1 (List.append_inj' hbase rfl).2, hlast] at hy
      cases hy
  have habsolute' : (base.join rel).isAbsolute := by
    rw [isAbsolute_join base h.relative, habsolute]
  have hnames : base.names = (xs ++ [last]).filter (!isIdle ·) := by
    rw [names_of_isAbsolute habsolute, hsegs]
  have hjoinNames : (base.join rel).names = base.names ++ rel.segments.filter (!isIdle ·) := by
    rw [names_of_isAbsolute habsolute', hjoin, List.filter_append, hnames]
  have hne : base.names ≠ [] := List.ne_nil_of_mem (a := last) (by simp [hnames, hlast])
  have hdot : "." ∉ base.names := by simp [hnames, isIdle]
  -- the rest starts and ends with a name, so that nothing is trimmed from it
  have hstart : rel.segments.dropWhile isIdle = rel.segments := by
    obtain ⟨first, rest, hrel, hfirst⟩ := h.starts
    rw [hrel, List.dropWhile_cons_of_neg (by simp [hfirst])]
  have hend (absolute : Bool) :
      (dropIdleEnd absolute rel.segments.reverse).reverse = rel.segments := by
    obtain ⟨names, last, hrel, hlast, -⟩ := h.ends
    rw [hrel, List.reverse_append, List.reverse_singleton, List.singleton_append,
      dropIdleEnd_cons hlast, List.reverse_cons, List.reverse_reverse]
  have htext : (⟨Text.joined "/" rel.segments⟩ : Path) = rel := by
    have := ofSegments_segments rel
    rw [ofSegments, h.relative] at this
    simpa using this
  have hrest : dropNames base.names.length (base.join rel).segments = rel.segments := by
    rw [hnames, hjoin]
    exact dropNames_append hlast xs rel.segments
  rw [below?, if_pos (by simp [habsolute, habsolute', hjoinNames])]
  simp only [hne, false_and, if_false]
  split
  · rename_i hnil
    exact absurd hnil hne
  · rename_i names hcons
    exact absurd (by simp [hcons]) hdot
  · rw [hrest, hstart, hend, htext]

end Path.IsInward

/-- A path that leads inwards by names alone. -/
def Path.IsInner (p : Path) : Prop := p.isAbsolute = false ∧ ∀ n ∈ p.segments, Path.IsName n

instance (p : Path) : Decidable p.IsInner := inferInstanceAs (Decidable (_ ∧ _))

namespace Path

theorem IsName.isIdle {name : String} (h : IsName name) : Path.isIdle name = false := by
  obtain ⟨hempty, hdot, -⟩ := h
  simp [Path.isIdle, hempty, hdot]

/-- An entry of a folder that is reached inwards is reached inwards. -/
theorem isInward_child {p : Path} {name first : String} {rest : List String}
    (hrelative : p.isAbsolute = false) (hbelow : staysBelow 0 p.segments)
    (hsegs : p.segments = first :: rest) (hfirst : isIdle first = false) (h : IsName name) :
    (p.child name).IsInward := by
  obtain ⟨xs, ys, hsplit, hys, hjoin⟩ := segments_join p (isAbsolute_name h)
  rw [segments_name h, ← child] at hjoin
  obtain ⟨xs', rfl⟩ : ∃ xs', xs = first :: xs' := by
    rw [hsegs] at hsplit
    cases xs with
    | nil =>
      have hidle := hys first (by rw [List.nil_append] at hsplit; simp [← hsplit])
      rw [hfirst] at hidle
      cases hidle
    | cons x xs => exact ⟨xs, by rw [(List.cons.inj hsplit).1]⟩
  refine ⟨(isAbsolute_join p (isAbsolute_name h)).trans hrelative, ?_, ⟨first, _, hjoin, hfirst⟩,
    ⟨_, name, hjoin, h.isIdle, h.2.2.1⟩⟩
  rw [hsplit] at hbelow
  rw [hjoin]
  exact staysBelow_concat (staysBelow_of_append hbelow) h

namespace IsInner

theorem ofName {name : String} (h : IsName name) : (Path.mk name).IsInner :=
  ⟨isAbsolute_name h, by simpa [segments_name h] using h⟩

theorem child {p : Path} {name : String} (hp : p.IsInner) (h : IsName name) :
    (p.child name).IsInner := by
  obtain ⟨xs, ys, hxs, -, hjoin⟩ := segments_join p (isAbsolute_name h)
  refine ⟨(isAbsolute_join p (isAbsolute_name h)).trans hp.1, fun n hn => ?_⟩
  rw [Path.child, hjoin, segments_name h] at hn
  rcases List.mem_append.1 hn with hn | hn
  · exact hp.2 n (by simp [hxs, hn])
  · simp only [List.mem_singleton] at hn
    exact hn ▸ h

theorem isInward {p : Path} (h : p.IsInner) : p.IsInward where
  relative := h.1
  below := staysBelow_names h.2
  starts := by
    obtain ⟨first, rest, hsegs⟩ := List.exists_cons_of_ne_nil p.segments_ne_nil
    exact ⟨first, rest, hsegs, (h.2 first (by simp [hsegs])).isIdle⟩
  ends := by
    obtain ⟨names, last, hsegs⟩ := (List.eq_nil_or_concat p.segments).resolve_left p.segments_ne_nil
    rw [List.concat_eq_append] at hsegs
    have hname := h.2 last (by simp [hsegs])
    exact ⟨names, last, hsegs, hname.isIdle, hname.2.2.1⟩

end IsInner

end Path

end Rollout

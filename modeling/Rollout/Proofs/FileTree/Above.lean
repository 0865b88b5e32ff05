import Mathlib.Tactic.Common
import Rollout.Proofs.FileTree.Folders

/-!
# The folders above a path

Before an entry is put at the end of a path, the folders above it are made. They are those that
the segments before the last one lead through (`exists_above`), they can be made as long as no
file and no name that is too long stands in the way (`makeFoldersFrom_ok`), and nothing else is
made with them (`grows_makeFoldersTo`).
-/

namespace Rollout

open Location DiskTask

/-! ### Along folders -/

namespace Tree

variable {t : Tree} {l : Location} {names : List String}

/-- A location at which there is no file. -/
def Passable (t : Tree) (l : Location) : Prop := ∀ content, t.get? l ≠ some (.file content)

theorem passable_iff : t.Passable l ↔ t.get? l = none ∨ t.isFolder l := by
  unfold Passable isFolder
  rcases t.get? l with _ | _ | content <;> simp

instance (t : Tree) (l : Location) : Decidable (t.Passable l) := decidable_of_iff _ passable_iff.symm

/-- Names that are not too long lead over folders to what is at their end. -/
theorem follow_of_trail (hshort : ∀ n ∈ names, isTooLong n = false)
    (htrail : ∀ s ∈ trail l names, t.isFolder s) (hend : t.get? (walk l names) ≠ none) :
    t.follow l names = .ok (walk l names) := by
  induction names generalizing l with
  | nil => rfl
  | cons name rest ih =>
    have hrest : t.follow (step l name) rest = .ok (walk (step l name) rest) :=
      ih (fun n hn => hshort n (by simp [hn])) (fun s hs => htrail s (by simp [trail, hs])) hend
    have hthere : t.get? (step l name) ≠ none := by
      cases rest with
      | nil => exact hend
      | cons n rest =>
        simp [get?_of_isFolder (htrail (step l name) (by simp [trail]))]
    rw [follow, if_pos (htrail l (by simp [trail])), walk_cons]
    unfold step at hrest hthere ⊢
    split_ifs at hrest hthere ⊢ with hidle hup hlong
    · exact hrest
    · exact hrest
    · rw [hshort name (by simp)] at hlong
      cases hlong
    · exact hrest

theorem not_isTooLong_of_idle {name : String} (h : Path.isIdle name) : isTooLong name = false := by
  rcases (by simpa [Path.isIdle] using h : name = "" ∨ name = ".") with rfl | rfl <;> rfl

/-- Names that lead somewhere are not too long. -/
theorem short_of_follow {k : Location} (h : t.follow l names = .ok k) :
    ∀ n ∈ names, isTooLong n = false := by
  induction names generalizing l with
  | nil => simp
  | cons name rest ih =>
    rw [follow] at h
    split_ifs at h with hl hidle hup hlong hnone
    · exact List.forall_mem_cons.2 ⟨not_isTooLong_of_idle hidle, ih h⟩
    · exact List.forall_mem_cons.2 ⟨hup ▸ rfl, ih h⟩
    · exact List.forall_mem_cons.2 ⟨by simpa using hlong, ih h⟩

end Tree

namespace Disk

/-- Names that end in one that is not idle, or of which all are. -/
def EndsNamed (names : List String) : Prop :=
  (∀ n ∈ names, Path.isIdle n) ∨ ∃ last, names.getLast? = some last ∧ Path.isIdle last = false

theorem EndsNamed.tail {name : String} {rest : List String} (h : EndsNamed (name :: rest)) :
    EndsNamed rest := by
  rcases h with h | ⟨last, hlast, hidle⟩
  · exact .inl fun n hn => h n (by simp [hn])
  · cases rest with
    | nil => exact .inl (by simp)
    | cons n rest => exact .inr ⟨last, by simpa using hlast, hidle⟩

/-- No dot follows the last name. -/
theorem EndsNamed.not_dot {name : String} {rest : List String} (h : EndsNamed (name :: rest))
    (hname : Path.isIdle name = false) : (rest.all Path.isIdle && rest.contains ".") = false := by
  rcases h with h | ⟨last, hlast, hidle⟩
  · rw [h name (by simp)] at hname
    cases hname
  · cases rest with
    | nil => rfl
    | cons n rest =>
      have hmem : last ∈ n :: rest := List.mem_of_getLast? (by simpa using hlast)
      have hnot : (n :: rest).all Path.isIdle = false :=
        List.all_eq_false.2 ⟨last, hmem, by simp [hidle]⟩
      rw [hnot, Bool.false_and]

/-- Folders can be made along names that are not too long and meet no file. -/
theorem makeFoldersFrom_ok {l : Location} {names : List String} {d : Disk}
    (hl : d.tree.isFolder l) (hshort : ∀ n ∈ names, isTooLong n = false)
    (hclear : ∀ s, Visited l names s → d.tree.Passable s) (hend : EndsNamed names) :
    ((makeFoldersFrom l names).on d).1 = .ok () := by
  induction names generalizing l d with
  | nil => rw [on_makeFoldersFrom_nil, if_pos hl]
  | cons name rest ih =>
    have hrest : ∀ n ∈ rest, isTooLong n = false := fun n hn => hshort n (by simp [hn])
    have hstep : ∀ s, Visited (step l name) rest s → d.tree.Passable s :=
      fun s hs => hclear s hs.step
    have hname : isTooLong name = false := hshort name (by simp)
    rw [on_makeFoldersFrom_cons, if_pos hl]
    unfold step at hstep
    split_ifs at hstep ⊢ with hidle hup hlong hnone hdot
    · exact ih hl hrest hstep hend.tail
    · refine ih ?_ hrest hstep hend.tail
      exact Tree.isFolder_dropLast (by simp [Tree.get?_of_isFolder hl])
    · rw [hname] at hlong
      cases hlong
    · rw [hend.not_dot (by simpa using hidle)] at hdot
      cases hdot
    · -- the folder that is made is in no one's way
      have hput := Tree.get?_put_absent (e := .folder) hnone (by simpa using hl)
      refine ih (d := d.after (.put (l ++ [name]) .folder)) ?_ hrest (fun s hs => ?_) hend.tail
      · exact decide_eq_true ((hput _).trans (if_pos rfl))
      · intro content
        change (d.tree.put (l ++ [name]) .folder).get? s ≠ _
        rw [hput]
        split_ifs with hs'
        · simp
        · exact hstep s hs content
    · refine ih ?_ hrest hstep hend.tail
      exact (Tree.passable_iff.1 (hstep _ (visited_self _ _))).resolve_left hnone

theorem visited_append {l k : Location} {xs ys : List String} :
    Visited l (xs ++ ys) k ↔ k ∈ trail l xs ∨ Visited (walk l xs) ys k := by
  rw [Visited, Visited, trail_append, walk_append, List.mem_append, or_assoc]

/-- Idle names lead nowhere else. -/
theorem visited_idle {l k : Location} {names : List String} (h : ∀ n ∈ names, Path.isIdle n) :
    Visited l names k ↔ k = l := by
  refine ⟨fun hk => ?_, fun hk => hk ▸ visited_self l names⟩
  rcases hk with hk | hk
  · exact Path.mem_trail_idle h hk
  · rw [hk, walk_idle h]

theorem visited_append_idle {l k : Location} {xs ys : List String} (h : ∀ n ∈ ys, Path.isIdle n) :
    Visited l (xs ++ ys) k ↔ Visited l xs k := by
  rw [visited_append, visited_idle h]
  rfl

end Disk

/-! ### The folder above a path -/

theorem Text.joined_append (xs ys : List String) :
    ∃ rest, joined "/" (xs ++ ys) = joined "/" xs ++ rest := by
  by_cases hxs : xs = []
  · exact ⟨joined "/" ys, by simp [hxs, joined]⟩
  by_cases hys : ys = []
  · exact ⟨"", by simp [hys]⟩
  refine ⟨"/" ++ joined "/" ys, ?_⟩
  rw [joined, String.intercalate_append_of_ne_nil hxs hys, String.append_assoc]
  rfl

namespace View

/-- The start of a usable path is usable. -/
theorem isUnusable_append {p q : Path} {rest : String} (h : p.text = q.text ++ rest)
    (hp : isUnusable p = false) : isUnusable q = false := by
  simp only [isUnusable, holdsNull, h, String.toList_append, List.any_append,
    String.utf8ByteSize_append, Bool.or_eq_false_iff, decide_eq_false_iff_not, Nat.not_lt] at hp ⊢
  exact ⟨hp.1.1, by omega⟩

end View

namespace Disk

/-- A path to where the segments before the last one of a path lead. -/
structure IsAbove (p q : Path) : Prop where
  origin : ∀ c, q.origin c = p.origin c
  visits : ∀ c k, Visits c q k ↔ Visited (p.origin c) p.lead k
  ends : EndsNamed q.segments
  names : ∀ n ∈ q.segments, n ∈ p.lead ∨ n = ""
  usable : View.isUnusable p = false → View.isUnusable q = false

theorem endsNamed_dropIdleEnd (absolute : Bool) (names : List String) :
    EndsNamed (Path.dropIdleEnd absolute names).reverse := by
  have single (name : String) : EndsNamed [name] := by
    cases h : Path.isIdle name with
    | true => exact .inl (by simpa using h)
    | false => exact .inr ⟨name, rfl, h⟩
  induction names with
  | nil => exact .inl (by simp [Path.dropIdleEnd])
  | cons name rest ih =>
    cases rest with
    | nil =>
      rw [Path.dropIdleEnd]
      split
      · exact .inl (by simp)
      · exact single name
    | cons m rest =>
      rw [Path.dropIdleEnd]
      · split
        · exact ih
        · rename_i hidle
          exact .inr ⟨name, by simp, by simpa using hidle⟩
      · simp

/-- The folder above a path that ends in a name is one that its other names lead to, or the path
names none. -/
theorem exists_above {p : Path} {last : String} (hp : p.text ≠ "") (h : p.last? = some last)
    (hidle : Path.isIdle last = false) :
    ∃ q, p.parent? = some q ∧
      (q.text = "" ∧ (∀ n ∈ p.lead, Path.isIdle n) ∨ q.text ≠ "" ∧ IsAbove p q) := by
  obtain ⟨slashes, hsegs, hslashes⟩ := Path.segments_lead h
  obtain ⟨idle, hlead, hidles⟩ := Path.dropIdleEnd_eq p.isAbsolute p.lead.reverse
  have hparent := Path.parent?_eq hsegs hslashes hidle
  have hends := endsNamed_dropIdleEnd p.isAbsolute p.lead.reverse
  generalize hkept : (Path.dropIdleEnd p.isAbsolute p.lead.reverse).reverse = kept at hparent hends
  have hidles : ∀ n ∈ idle.reverse, Path.isIdle n := by simpa using hidles
  have hsplit : p.lead = kept ++ idle.reverse := by
    rw [← hkept, ← List.reverse_append, ← hlead, List.reverse_reverse]
  have husable : View.isUnusable p = false →
      View.isUnusable (Path.ofSegments p.isAbsolute kept) = false := by
    rw [hsplit, List.append_assoc] at hsegs
    obtain ⟨rest, hrest⟩ := Text.joined_append kept (idle.reverse ++ last :: slashes)
    have htext : p.text = (Path.ofSegments p.isAbsolute kept).text ++ rest := by
      conv_lhs => rw [← p.ofSegments_segments, hsegs]
      rw [Path.ofSegments, Path.ofSegments, hrest, String.append_assoc]
    exact View.isUnusable_append htext
  refine ⟨_, hparent, ?_⟩
  by_cases hk : kept = []
  · subst hk
    have hlead : ∀ n ∈ p.lead, Path.isIdle n := by simpa [hsplit] using hidles
    cases habsolute : p.isAbsolute with
    | false => exact .inl ⟨rfl, hlead⟩
    | true =>
      rw [habsolute] at husable
      refine .inr ⟨by decide, fun c => ?_, fun c k => ?_, .inl (by decide), ?_, husable⟩
      · simp [Path.origin, habsolute, isAbsolute_ofSegments]
      · rw [visited_idle hlead, Visits, visited_idle (by decide)]
        simp [Path.origin, habsolute, isAbsolute_ofSegments]
      · exact fun n hn => .inr (List.mem_singleton.1 hn)
  · rw [hsplit, List.append_assoc] at hsegs
    obtain ⟨hkeptSegs, habsolute, htext⟩ := Path.segments_ofSegments_of_append hp hsegs hk
    have horigin (c : Location) : (Path.ofSegments p.isAbsolute kept).origin c = p.origin c := by
      simp only [Path.origin, habsolute]
    refine .inr ⟨htext, horigin, fun c k => ?_, ?_, fun n hn => .inl ?_, husable⟩
    · rw [Visits, horigin, hkeptSegs, hsplit, visited_append_idle hidles]
    · rw [hkeptSegs]
      exact hends
    · rw [hkeptSegs] at hn
      simp [hsplit, hn]

section

variable {p : Path} {last : String} {d : Disk}

theorem visits_iff (h : p.last? = some last) (hidle : Path.isIdle last = false)
    (hup : last ≠ "..") {c k : Location} :
    Visits c p k ↔ Visited (p.origin c) p.lead k ∨ k = p.spot c := by
  obtain ⟨slashes, hsegs, hslashes⟩ := Path.segments_lead h
  have hidles : ∀ s ∈ slashes, Path.isIdle s := fun s hs => by simp [hslashes s hs, Path.isIdle]
  have hstep : step (walk (p.origin c) p.lead) last = p.spot c := by
    rw [Path.spot_lead h hidle hup, step_into _ (by simp [hidle]) hup]
  rw [Visits, hsegs, visited_append, Visited, trail, List.mem_cons, walk_cons, hstep, ← or_assoc,
    ← or_assoc]
  change (Visited _ _ _ ∨ _) ∨ _ ↔ _
  rw [or_assoc]
  exact or_congr_right (visited_idle hidles)

theorem on_makeFoldersTo_above {q : Path} (hq : p.parent? = some q) (htext : q.text ≠ "") :
    (makeFoldersTo p).on d = (makeFolders q).on d := by
  simp [makeFoldersTo, hq, htext]

theorem on_makeFoldersTo_none {q : Path} (hq : p.parent? = some q) (htext : q.text = "") :
    (makeFoldersTo p).on d = (.ok (), d) := by
  simp only [makeFoldersTo, hq, htext, if_true]
  rfl

/-- Only folders on the way to a path are made for it. -/
theorem grows_makeFoldersTo (hp : p.text ≠ "") (h : p.last? = some last)
    (hidle : Path.isIdle last = false) (d : Disk) :
    Tree.Grows (Visited (p.origin d.current) p.lead) d.tree ((makeFoldersTo p).on d).2.tree := by
  obtain ⟨q, hq, ⟨htext, -⟩ | ⟨htext, habove⟩⟩ := exists_above hp h hidle
  · rw [on_makeFoldersTo_none hq htext]
    exact .refl _ _
  · rw [on_makeFoldersTo_above hq htext]
    exact (through_makeFolders q d).last.mono fun k hk => (habove.visits _ _).1 hk

/-- They are made in a folder only. -/
theorem isFolder_origin_of_makeFoldersTo (hp : p.text ≠ "") (h : p.last? = some last)
    (hidle : Path.isIdle last = false) (hok : ((makeFoldersTo p).on d).1 = .ok ())
    (hfolder : ((makeFoldersTo p).on d).2.tree.isFolder (p.origin d.current)) :
    d.tree.isFolder (p.origin d.current) := by
  obtain ⟨q, hq, ⟨htext, -⟩ | ⟨htext, habove⟩⟩ := exists_above hp h hidle
  · rw [on_makeFoldersTo_none hq htext] at hfolder
    exact hfolder
  · rw [on_makeFoldersTo_above hq htext] at hok
    rw [← habove.origin]
    exact isFolder_start_of_makeFoldersFrom (makeFoldersFrom_of_makeFolders htext hok).1

end

end Disk
end Rollout

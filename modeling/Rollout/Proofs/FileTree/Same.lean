import Mathlib.Tactic.Common
import Rollout.Proofs.FileTree.Above

/-!
# Paths that are the same

Paths whose names agree lead to the same location over the same ones (`spot_of_same`,
`visits_of_same`): the idle segments in which they differ lead nowhere. So where one leads to a
folder, each that is usable does (`View.exists?_of_same`).
-/

namespace Rollout

open Location

namespace Disk

variable {l k : Location}

theorem walk_filter (l : Location) (names : List String) :
    walk l (names.filter (!Path.isIdle ·)) = walk l names := by
  induction names generalizing l with
  | nil => rfl
  | cons name rest ih =>
    by_cases hidle : Path.isIdle name
    · rw [List.filter_cons_of_neg (by simp [hidle]), walk_cons, step_idle l hidle, ih]
    · rw [List.filter_cons_of_pos (by simp [hidle]), walk_cons, walk_cons, ih]

theorem visited_cons_idle {name : String} {rest : List String} (h : Path.isIdle name) :
    Visited l (name :: rest) k ↔ Visited l rest k := by
  rw [visited_cons, step_idle l h, or_iff_right_iff_imp]
  rintro rfl
  exact visited_self k rest

theorem visited_filter {names : List String} :
    Visited l (names.filter (!Path.isIdle ·)) k ↔ Visited l names k := by
  induction names generalizing l with
  | nil => rfl
  | cons name rest ih =>
    by_cases hidle : Path.isIdle name
    · rw [List.filter_cons_of_neg (by simp [hidle]), visited_cons_idle hidle, ih]
    · rw [List.filter_cons_of_pos (by simp [hidle]), visited_cons, visited_cons, ih]

/-- The names of a path lead where its segments lead. -/
theorem walk_names_eq (p : Path) (l : Location) :
    walk l p.names = walk l p.segments ∧ ∀ k, Visited l p.names k ↔ Visited l p.segments k := by
  unfold Path.names
  cases p.segments with
  | nil => exact ⟨rfl, fun _ => .rfl⟩
  | cons first rest =>
    simp only
    split
    · rename_i hfirst
      have hidle : Path.isIdle first := by
        rcases hfirst with rfl | ⟨rfl, -⟩ <;> rfl
      exact ⟨by rw [walk_filter, walk_cons, step_idle l hidle],
        fun k => by rw [visited_filter, visited_cons_idle hidle]⟩
    · exact ⟨by rw [walk_cons, walk_cons, walk_filter],
        fun k => by rw [visited_cons, visited_cons, visited_filter]⟩

end Disk

namespace Path

variable {p q : Path} {c : Location}

theorem origin_of_same (h : p.same q) : p.origin c = q.origin c := by
  simp only [same, Bool.and_eq_true, beq_iff_eq] at h
  simp only [origin, h.1]

theorem names_of_same (h : p.same q) : p.names = q.names := by
  simp only [same, Bool.and_eq_true, beq_iff_eq] at h
  exact h.2

/-- Paths that are the same lead to the same location. -/
theorem spot_of_same (h : p.same q) : p.spot c = q.spot c := by
  rw [spot, spot, ← (Disk.walk_names_eq p _).1, ← (Disk.walk_names_eq q _).1,
    origin_of_same h, names_of_same h]

theorem text_of_same (h : p.same q) (hq : q.text ≠ "") : p.text ≠ "" := by
  intro hp
  have hnames := names_of_same h
  have habsolute : q.isAbsolute = false := by
    simp only [same, Bool.and_eq_true, beq_iff_eq] at h
    rw [← h.1, isAbsolute, hp]
    rfl
  have hhead := head?_segments habsolute hq
  unfold names at hnames
  rw [segments_of_text_eq_empty hp] at hnames
  obtain ⟨first, rest, hsegs⟩ := List.exists_cons_of_ne_nil q.segments_ne_nil
  rw [hsegs] at hnames hhead
  have hfirst : first ≠ "" := by simpa using hhead
  simp [hfirst, habsolute] at hnames

theorem mem_names {n : String} (hn : n ∈ p.segments) (hidle : isIdle n = false) :
    n ∈ p.names := by
  unfold names
  obtain ⟨first, rest, hsegs⟩ := List.exists_cons_of_ne_nil p.segments_ne_nil
  rw [hsegs] at hn ⊢
  simp only
  rcases List.mem_cons.1 hn with rfl | hn
  · rw [if_neg]
    · exact List.mem_cons_self
    · rintro (rfl | ⟨rfl, -⟩) <;> cases hidle
  · split <;> simp [hn, hidle]

theorem mem_segments_of_mem_names {n : String} (hn : n ∈ p.names) : n ∈ p.segments := by
  unfold names at hn
  obtain ⟨first, rest, hsegs⟩ := List.exists_cons_of_ne_nil p.segments_ne_nil
  rw [hsegs] at hn ⊢
  simp only at hn
  split at hn
  · exact List.mem_cons_of_mem _ (List.mem_filter.1 hn).1
  · rcases List.mem_cons.1 hn with rfl | hn
    · exact List.mem_cons_self
    · exact List.mem_cons_of_mem _ (List.mem_filter.1 hn).1

/-- A name of a path is idle or one of the names of every path that is the same. -/
theorem mem_segments_of_same (h : p.same q) {n : String} (hn : n ∈ p.segments) :
    isIdle n ∨ n ∈ q.segments := by
  by_cases hidle : isIdle n
  · exact .inl hidle
  · have hname := mem_names hn (by simpa using hidle)
    rw [names_of_same h] at hname
    exact .inr (mem_segments_of_mem_names hname)

end Path

/-- They lead there over the same locations. -/
theorem Disk.visits_of_same {p q : Path} {c k : Location} (h : p.same q) :
    Visits c p k ↔ Visits c q k := by
  rw [Visits, Visits, ← (walk_names_eq p _).2, ← (walk_names_eq q _).2, Path.origin_of_same h,
    Path.names_of_same h]

/-- A folder to which a path leads is there for every usable path that is the same. -/
theorem View.exists?_of_same {v : View} {p q : Path} (h : p.same q)
    (husable : isUnusable p = false) (hq : v.exists? q)
    (hf : v.tree.isFolder (q.spot v.current)) : v.exists? p := by
  have hlocate := exists?_eq_true hq
  obtain ⟨htrail, -⟩ := locate_eq_ok hlocate
  have htext : q.text ≠ "" := by
    intro htext
    simp [locate, htext] at hlocate
  have hshort : ∀ n ∈ q.segments, isTooLong n = false := by
    unfold locate at hlocate
    split_ifs at hlocate
    exact Tree.short_of_follow hlocate
  have hfolders (s : Location) (hs : s ∈ trail (p.origin v.current) p.segments) :
      v.tree.isFolder s := by
    rcases (Disk.visits_of_same h).1 (.inl hs) with hs | rfl
    · exact htrail s hs
    · exact hf
  have hnames : ∀ n ∈ p.segments, isTooLong n = false := fun n hn =>
    (Path.mem_segments_of_same h hn).elim Tree.not_isTooLong_of_idle (hshort n)
  have hend : v.tree.get? (p.spot v.current) ≠ none := by
    rw [Path.spot_of_same h]
    simp [Tree.get?_of_isFolder hf]
  rw [exists?, locate, if_neg (Path.text_of_same h htext), if_neg (by simp [husable])]
  change (v.tree.follow (p.origin v.current) p.segments).toOption.isSome
  rw [Tree.follow_of_trail hnames hfolders hend]
  rfl

end Rollout

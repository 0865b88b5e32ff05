import Mathlib.Tactic.Common
import Rollout.FileTree.Lookup

/-!
# Where names lead

A path leads to the same location in every tree in which it leads anywhere (`locate_eq_spot`):
`walk` reads it off the names alone, and a tree only says whether the locations on the way,
the `trail`, are folders. So a path that can be followed in one tree can be followed in
another that has the folders of its trail (`follow_mono`).
-/

namespace Rollout

namespace Location

/-- The location that one name leads to. -/
def step (l : Location) (name : String) : Location :=
  if Path.isIdle name then l else if name = ".." then l.dropLast else l ++ [name]

/-- The location that names lead to. -/
def walk (l : Location) (names : List String) : Location := names.foldl step l

/-- The locations from which the steps of a walk are taken. -/
def trail : Location → List String → List Location
  | _, [] => []
  | l, name :: rest => l :: trail (step l name) rest

@[simp] theorem walk_nil (l : Location) : walk l [] = l := rfl

@[simp] theorem walk_cons (l : Location) (name : String) (names : List String) :
    walk l (name :: names) = walk (step l name) names := rfl

theorem step_idle {name : String} (l : Location) (h : Path.isIdle name) : step l name = l :=
  if_pos h

theorem step_up (l : Location) : step l ".." = l.dropLast := by simp [step, Path.isIdle]

theorem step_into {name : String} (l : Location) (h : ¬ Path.isIdle name) (hup : name ≠ "..") :
    step l name = l ++ [name] := by
  simp [step, h, hup]

theorem walk_append (l : Location) (xs ys : List String) :
    walk l (xs ++ ys) = walk (walk l xs) ys := List.foldl_append

theorem trail_append (l : Location) (xs ys : List String) :
    trail l (xs ++ ys) = trail l xs ++ trail (walk l xs) ys := by
  induction xs generalizing l with
  | nil => rfl
  | cons x xs ih => simp [trail, ih]

theorem walk_idle {l : Location} {names : List String} (h : ∀ n ∈ names, Path.isIdle n) :
    walk l names = l := by
  induction names with
  | nil => rfl
  | cons n names ih =>
    have hn : step l n = l := if_pos (h n (by simp))
    rw [walk_cons, hn, ih fun m hm => h m (by simp [hm])]

theorem step_subset (l : Location) (name : String) : ∀ n ∈ step l name, n ∈ l ∨ n = name := by
  intro n hn
  unfold step at hn
  split at hn
  · exact .inl hn
  · split at hn
    · exact .inl (List.dropLast_subset l hn)
    · simpa using hn

theorem walk_subset (l : Location) (names : List String) :
    ∀ n ∈ walk l names, n ∈ l ∨ n ∈ names := by
  induction names generalizing l with
  | nil => exact fun n hn => .inl hn
  | cons name names ih =>
    intro n hn
    rcases ih _ n hn with h | h
    · rcases step_subset l name n h with h | rfl
      · exact .inl h
      · exact .inr (by simp)
    · exact .inr (by simp [h])

/-- A walk never names what neither its start nor its names do. -/
theorem trail_subset (l : Location) (names : List String) :
    ∀ s ∈ trail l names, ∀ n ∈ s, n ∈ l ∨ n ∈ names := by
  induction names generalizing l with
  | nil => simp [trail]
  | cons name names ih =>
    intro s hs n hn
    rcases List.mem_cons.1 hs with rfl | hs
    · exact .inl hn
    · rcases ih _ s hs n hn with h | h
      · rcases step_subset l name n h with h | rfl
        · exact .inl h
        · exact .inr (by simp)
      · exact .inr (by simp [h])

/-- An entry of a folder and what is neither above it nor below are apart, with all below them. -/
theorem entry_apart {root l : Location} {name : String} (hentry : ¬ root ++ [name] <+: l)
    (hroot : ¬ l <+: root) (k : Location) :
    ¬ root ++ [name] <+: l ++ k ∧ ¬ l <+: (root ++ [name]) ++ k := by
  have habove : ¬ l <+: root ++ [name] := by
    rw [List.prefix_concat_iff, not_or]
    exact ⟨fun heq => hentry (heq ▸ List.prefix_rfl), hroot⟩
  refine ⟨fun h => ?_, fun h => ?_⟩
  · exact (List.prefix_or_prefix_of_prefix h (List.prefix_append l k)).elim hentry habove
  · exact (List.prefix_or_prefix_of_prefix h (List.prefix_append _ k)).elim habove hentry

end Location

open Location

namespace Tree

/-- What has something in it is a folder. -/
theorem isFolder_of_append {t : Tree} {k r : Location} (h : t.get? (k ++ r) ≠ none) (hr : r ≠ []) :
    t.isFolder k := by
  unfold isFolder get? at *
  obtain ⟨name, r, rfl⟩ := List.exists_cons_of_ne_nil hr
  rw [node?, Node.find?_append] at h
  rw [node?]
  generalize Node.find? k (some (.folder t.entries)) = n at h ⊢
  rcases n with _ | _ | _
  · exact absurd rfl h
  · exact absurd rfl h
  · rfl

theorem get?_append_of_none {t : Tree} {k : Location} (h : t.get? k = none) (r : Location) :
    t.get? (k ++ r) = none := by
  unfold get? at *
  rw [node?, Node.find?_append, ← node?, Option.map_eq_none_iff.1 h]
  rfl

/-- What is in nothing is not there. -/
theorem get?_under {t : Tree} {k l : Location} (h : t.get? k = none) (hp : k <+: l) :
    t.get? l = none := by
  obtain ⟨r, rfl⟩ := hp
  exact get?_append_of_none h r

theorem isFolder_dropLast {t : Tree} {l : Location} (h : t.get? l ≠ none) :
    t.isFolder l.dropLast := by
  rcases List.eq_nil_or_concat l with rfl | ⟨k, name, rfl⟩
  · rfl
  · rw [List.concat_eq_append] at h ⊢
    rw [List.dropLast_concat]
    exact isFolder_of_append h (by simp)

theorem get?_of_isFolder {t : Tree} {l : Location} (h : t.isFolder l) : t.get? l = some .folder :=
  of_decide_eq_true h

theorem follow_append (t : Tree) (l : Location) (xs ys : List String) :
    t.follow l (xs ++ ys) = (t.follow l xs).bind (t.follow · ys) := by
  induction xs generalizing l with
  | nil => rfl
  | cons x xs ih =>
    simp only [List.cons_append, follow, ih]
    split_ifs <;> rfl

theorem follow_idle {t : Tree} {l : Location} {names : List String} (hl : t.isFolder l)
    (h : ∀ n ∈ names, Path.isIdle n) : t.follow l names = .ok l := by
  induction names with
  | nil => rfl
  | cons name names ih =>
    rw [follow, if_pos hl, if_pos (h name (by simp)), ih fun n hn => h n (by simp [hn])]

/-- What following names comes to: the walk was over folders and ended at something. -/
theorem follow_eq_ok {t : Tree} {l k : Location} {names : List String}
    (h : t.follow l names = .ok k) :
    k = walk l names ∧ (∀ s ∈ trail l names, t.isFolder s) ∧
      (names ≠ [] → t.get? (walk l names) ≠ none) := by
  induction names generalizing l with
  | nil => exact ⟨(Except.ok.inj h).symm, by simp [trail], by simp⟩
  | cons name names ih =>
    rw [follow] at h
    split at h
    case isFalse => cases h
    case isTrue hl =>
      have hstep : t.follow (step l name) names = .ok k ∧ t.get? (step l name) ≠ none := by
        unfold step
        split_ifs at h ⊢ with h₁ h₂ _ h₄
        · exact ⟨h, by simp [get?_of_isFolder hl]⟩
        · exact ⟨h, by simp [get?_of_isFolder (isFolder_dropLast (by
            rw [get?_of_isFolder hl]; simp : t.get? l ≠ none))]⟩
        · exact ⟨h, h₄⟩
      obtain ⟨hk, htrail, hend⟩ := ih hstep.1
      refine ⟨hk, ?_, fun _ => ?_⟩
      · intro s hs
        rcases List.mem_cons.1 hs with rfl | hs
        · exact hl
        · exact htrail s hs
      · cases names with
        | nil => exact hstep.2
        | cons _ _ => exact hend (by simp)

/-- Names that can be followed in one tree can be followed in another with the same folders on
the way and something at the end. -/
theorem follow_mono {t t' : Tree} {l k : Location} {names : List String}
    (h : t.follow l names = .ok k) (htrail : ∀ s ∈ trail l names, t'.isFolder s)
    (hend : t'.get? k ≠ none) : t'.follow l names = .ok k := by
  induction names generalizing l with
  | nil => exact h
  | cons name names ih =>
    rw [follow] at h ⊢
    rw [if_pos (htrail l (by simp [trail]))]
    split at h
    case isFalse => cases h
    case isTrue hl =>
      have hrest := fun s hs => htrail s (List.mem_cons_of_mem l hs)
      unfold step at hrest
      split_ifs at h hrest ⊢
      · exact ih h hrest
      · exact ih h hrest
      · rename_i habsent _
        exfalso
        cases names with
        | nil => exact hend (Except.ok.inj h ▸ habsent)
        | cons _ _ =>
          have := get?_of_isFolder (hrest (l ++ [name]) (by simp [trail]))
          rw [habsent] at this
          cases this
      · exact ih h hrest

end Tree

/-! ### Paths -/

namespace Path

/-- Where the names of a path start to lead from. -/
def origin (p : Path) (current : Location) : Location := if p.isAbsolute then [] else current

/-- The location that a path leads to, if it leads anywhere. -/
def spot (p : Path) (current : Location) : Location := walk (p.origin current) p.segments

end Path

namespace View

theorem locate_eq_spot {v : View} {p : Path} {l : Location} (h : v.locate p = .ok l) :
    l = p.spot v.current := by
  unfold locate at h
  split_ifs at h
  exact (Tree.follow_eq_ok h).1

/-- A path that leads somewhere has a trail of folders and something at its end. -/
theorem locate_eq_ok {v : View} {p : Path} {l : Location} (h : v.locate p = .ok l) :
    (∀ s ∈ trail (p.origin v.current) p.segments, v.tree.isFolder s) ∧ v.tree.get? l ≠ none := by
  unfold locate at h
  split_ifs at h
  obtain ⟨hl, htrail, hend⟩ := Tree.follow_eq_ok h
  refine ⟨htrail, hl ▸ hend ?_⟩
  intro hs
  exact Text.splitOn_ne_nil _ _ (List.map_eq_nil_iff.1 hs)

/-- A path leads to where it led if the folders on its way are still there and something is at its
end. -/
theorem locate_mono {v v' : View} {p : Path} {l : Location} (h : v.locate p = .ok l)
    (hc : v'.current = v.current)
    (htrail : ∀ s ∈ trail (p.origin v.current) p.segments,
      v.tree.isFolder s → v'.tree.isFolder s)
    (hend : v'.tree.get? l ≠ none) : v'.locate p = .ok l := by
  have hfolders := (locate_eq_ok h).1
  unfold locate at h ⊢
  have hstart : v'.start p = v.start p := by rw [View.start, View.start, hc]
  split_ifs at h ⊢
  rw [hstart]
  exact Tree.follow_mono h (fun s hs => htrail s hs (hfolders s hs)) hend

theorem exists?_eq_true {v : View} {p : Path} (h : v.exists? p = true) :
    v.locate p = .ok (p.spot v.current) := by
  unfold exists? at h
  match hl : v.locate p with
  | .ok l => rw [locate_eq_spot hl]
  | .error _ => simp [hl, Except.toOption] at h

/-- A path leads to a file. -/
theorem isFile_eq_true {v : View} {p : Path} :
    v.isFile p = true ↔ ∃ content, v.locate p = .ok (p.spot v.current) ∧
      v.tree.get? (p.spot v.current) = some (.file content) := by
  unfold isFile
  cases hl : v.locate p with
  | error t => simp
  | ok l =>
    obtain rfl := locate_eq_spot hl
    simp only [true_and]
    split
    · rename_i content hfile
      simp [hfile]
    · rename_i hnone
      simpa using hnone

end View
end Rollout

import Mathlib.Tactic.Common
import Rollout.Proofs.FileTree.PathText

/-!
# Folders above a path

The list of the folders above a path has the `n`-th of them in place `n` and goes up to the top
(`getElem?_ancestors`). Above the path of a location are the paths of the locations that it is in
(`above?_ofSegments`, `exists_of_above?_ofSegments`).
-/

namespace Rollout.Path

/-- The path that lies so many folders above a path, if there is one. -/
def above? : Nat → Path → Option Path
  | 0, p => some p
  | n + 1, p => p.parent?.bind (above? n)

theorem above?_add (m n : Nat) (p : Path) : above? (m + n) p = (above? m p).bind (above? n) := by
  induction m generalizing p with
  | zero => rw [Nat.zero_add, above?, Option.bind_some]
  | succ m ih =>
    rw [Nat.succ_add, above?, above?, Option.bind_assoc]
    exact congrArg p.parent?.bind (funext ih)

/-! ### The list of all of them -/

/-- The number of the parts of a path, idle ones at its end aside. -/
def height (p : Path) : Nat := (dropIdleEnd p.isAbsolute p.segments.reverse).length

theorem length_dropIdleEnd_le (absolute : Bool) (names : List String) :
    (dropIdleEnd absolute names).length ≤ names.length := by
  obtain ⟨idle, hnames, -⟩ := dropIdleEnd_eq absolute names
  rw [congrArg List.length hnames, List.length_append]
  exact Nat.le_add_left _ _

theorem height_le (p : Path) : p.height ≤ p.segments.length :=
  (length_dropIdleEnd_le p.isAbsolute p.segments.reverse).trans_eq List.length_reverse

theorem height_of_parent? {p q : Path} (h : p.parent? = some q) : q.height < p.height := by
  obtain ⟨last, rest, hkept, habsolute, hq⟩ := segments_of_parent? h
  have hp : p.height = rest.length + 1 := by rw [height, hkept, List.length_cons]
  have hrest : q.height ≤ rest.length := by
    rw [height, habsolute]
    rcases hq with hq | hq <;> rw [hq]
    · exact Nat.zero_le _
    · rw [List.reverse_reverse]
      exact (length_dropIdleEnd_le _ _).trans (length_dropIdleEnd_le _ _)
  omega

theorem parent?_of_height_eq_zero {p : Path} (h : p.height = 0) : p.parent? = none := by
  cases hq : p.parent? with
  | none => rfl
  | some q => exact absurd (height_of_parent? hq) (by omega)

/-- The fuel is enough for every folder above. -/
theorem getElem?_ancestorsWithin {fuel : Nat} {p : Path} (h : p.height ≤ fuel) (n : Nat) :
    (ancestorsWithin fuel p)[n]? = p.above? n := by
  induction fuel generalizing p n with
  | zero =>
    have hparent := parent?_of_height_eq_zero (Nat.le_zero.mp h)
    cases n with
    | zero => rfl
    | succ n => rw [ancestorsWithin, above?, hparent, Option.bind_none, List.getElem?_cons_succ,
        List.getElem?_nil]
  | succ fuel ih =>
    rw [ancestorsWithin]
    cases n with
    | zero => rfl
    | succ n =>
      rw [List.getElem?_cons_succ, above?]
      cases hq : p.parent? with
      | none => rfl
      | some q =>
        have hheight := height_of_parent? hq
        exact ih (by omega) n

theorem getElem?_ancestors (p : Path) (n : Nat) : p.ancestors[n]? = p.above? n :=
  getElem?_ancestorsWithin p.height_le n

/-! ### Above a location -/

section

variable {l : Location}

theorem dropIdleEnd_names (h : ∀ n ∈ l, IsName n) : dropIdleEnd true l.reverse = l.reverse := by
  cases hl : l.reverse with
  | nil => rfl
  | cons last rest =>
    have hlast : IsName last := h last (List.mem_reverse.1 (hl ▸ List.mem_cons_self))
    exact dropIdleEnd_cons (by simp [isIdle, hlast.1, hlast.2.1]) rest

theorem parent?_ofSegments_concat {name : String} (h : ∀ n ∈ l ++ [name], IsName n) :
    (ofSegments true (l ++ [name])).parent? = some (ofSegments true l) := by
  have hname : IsName name := h name (by simp)
  have hl : ∀ n ∈ l, IsName n := fun n hn => h n (List.mem_append_left _ hn)
  have hparts : (ofSegments true (l ++ [name])).segments = l ++ [name] ∧
      (ofSegments true (l ++ [name])).isAbsolute = true :=
    segments_ofSegments (by simp) (fun n hn => (h n hn).2.2.2) nofun
  obtain ⟨hsegs, habsolute⟩ := hparts
  rw [parent?_eq hsegs nofun (by simp [isIdle, hname.1, hname.2.1]), habsolute,
    dropIdleEnd_names hl, List.reverse_reverse]

/-- Above the path of a location are the paths of the locations it is in, -/
theorem above?_ofSegments {r : Location} (h : ∀ n ∈ l ++ r, IsName n) :
    (ofSegments true (l ++ r)).above? r.length = some (ofSegments true l) := by
  induction r using List.reverseRecOn with
  | nil => rw [List.append_nil, List.length_nil, above?]
  | append_singleton r name ih =>
    rw [← List.append_assoc] at h ⊢
    rw [List.length_append, List.length_singleton, above?, parent?_ofSegments_concat h,
      Option.bind_some]
    exact ih fun n hn => h n (List.mem_append_left _ hn)

/-- and no others. -/
theorem exists_of_above?_ofSegments {q : Path} {n : Nat} (h : ∀ name ∈ l, IsName name)
    (hq : (ofSegments true l).above? n = some q) :
    ∃ k r, l = k ++ r ∧ r.length = n ∧ q = ofSegments true k := by
  induction n generalizing l with
  | zero => exact ⟨l, [], (List.append_nil l).symm, rfl, (Option.some.inj hq).symm⟩
  | succ n ih =>
    rw [above?] at hq
    induction l using List.reverseRecOn with
    | nil => cases hq
    | append_singleton l name _ =>
      rw [parent?_ofSegments_concat h, Option.bind_some] at hq
      obtain ⟨k, r, rfl, hr, hk⟩ := ih (fun m hm => h m (List.mem_append_left _ hm)) hq
      exact ⟨k, r ++ [name], by rw [List.append_assoc], by simp [hr], hk⟩

end

end Rollout.Path

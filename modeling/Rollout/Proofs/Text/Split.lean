import Mathlib.Data.List.Infix
import Mathlib.Tactic.Common
import Rollout.Text.Split

/-!
# Cut texts

Cutting a text that was put together from pieces gives the pieces back (`splitOn_joinWith`), and
no piece holds the separator (`not_mem_of_mem_splitOn`). A text is cut once where it holds the
separator for the first time (`cutAt_eq_some_iff`).
-/

namespace Rollout.Text

theorem holds_iff {part cs : List Char} : holds part cs = true ↔ part <:+: cs := by
  induction cs with
  | nil => simp [holds, List.isEmpty_iff]
  | cons c cs ih => rw [holds, Bool.or_eq_true, List.isPrefixOf_iff_prefix, ih, List.infix_cons_iff]

theorem splitOn_append (sep : Char) (xs ys : List Char) :
    splitOn sep (xs ++ sep :: ys) = splitOn sep xs ++ splitOn sep ys := by
  induction xs with
  | nil => simp [splitOn]
  | cons c cs ih =>
    rw [List.cons_append, splitOn, splitOn, ih]
    split
    · rfl
    · cases h : splitOn sep cs with
      | nil => exact absurd h (splitOn_ne_nil sep cs)
      | cons piece rest => rfl

theorem splitOn_of_not_mem {sep : Char} {cs : List Char} (h : sep ∉ cs) :
    splitOn sep cs = [cs] := by
  induction cs with
  | nil => rfl
  | cons c cs ih =>
    have hc : c ≠ sep := fun e => h (by simp [e])
    rw [splitOn, if_neg hc, ih fun hm => h (by simp [hm])]

/-- A piece does not hold the separator. -/
theorem not_mem_of_mem_splitOn {sep : Char} {cs : List Char} :
    ∀ piece ∈ splitOn sep cs, sep ∉ piece := by
  induction cs with
  | nil => simp [splitOn]
  | cons c cs ih =>
    rw [splitOn]
    split
    · simpa using ih
    · rename_i hc
      cases h : splitOn sep cs with
      | nil => exact absurd h (splitOn_ne_nil sep cs)
      | cons piece rest =>
        rw [h] at ih
        intro p hp
        rcases List.mem_cons.1 hp with rfl | hp
        · simpa [Ne.symm hc] using ih piece (by simp)
        · exact ih p (by simp [hp])

theorem splitOn_joinWith {sep : Char} {pieces : List (List Char)} (hne : pieces ≠ [])
    (h : ∀ piece ∈ pieces, sep ∉ piece) : splitOn sep (joinWith sep pieces) = pieces := by
  induction pieces with
  | nil => exact absurd rfl hne
  | cons piece rest ih =>
    have hp := splitOn_of_not_mem (h piece (by simp))
    cases rest with
    | nil => exact hp
    | cons q rest =>
      rw [joinWith, splitOn_append, hp, ih (by simp) fun p hm => h p (by simp [hm])]
      · rfl
      · simp

theorem cutAt_eq_some_iff {sep : Char} {cs before after : List Char} :
    cutAt sep cs = some (before, after) ↔ cs = before ++ sep :: after ∧ sep ∉ before := by
  induction cs generalizing before after with
  | nil => simp [cutAt]
  | cons c cs ih =>
    rw [cutAt]
    by_cases hc : c = sep
    · subst hc
      cases before with
      | nil => simp
      | cons b before => simp +contextual
    · cases before with
      | nil => simp [hc]
      | cons b before =>
        simp only [if_neg hc, Option.map_eq_some_iff, Prod.exists, Prod.mk.injEq, List.cons.injEq,
          List.cons_append, List.mem_cons, not_or, ih]
        constructor
        · rintro ⟨_, _, ⟨rfl, hnot⟩, ⟨rfl, rfl⟩, rfl⟩
          exact ⟨⟨rfl, rfl⟩, Ne.symm hc, hnot⟩
        · rintro ⟨⟨rfl, rfl⟩, -, hnot⟩
          exact ⟨_, _, ⟨rfl, hnot⟩, ⟨rfl, rfl⟩, rfl⟩

theorem cutAt_eq_none_iff {sep : Char} {cs : List Char} : cutAt sep cs = none ↔ sep ∉ cs := by
  induction cs with
  | nil => simp [cutAt]
  | cons c cs ih =>
    rw [cutAt]
    by_cases hc : c = sep
    · simp [hc]
    · simp [hc, ih, Ne.symm hc]

/-- Pieces that each end with the separator are followed by an empty one. -/
theorem splitOn_flatMap {sep : Char} {pieces : List (List Char)}
    (h : ∀ piece ∈ pieces, sep ∉ piece) :
    splitOn sep (pieces.flatMap (· ++ [sep])) = pieces ++ [[]] := by
  induction pieces with
  | nil => rfl
  | cons piece rest ih =>
    rw [List.flatMap_cons, List.append_assoc, List.singleton_append, splitOn_append,
      splitOn_of_not_mem (h piece (by simp)), ih fun p hp => h p (by simp [hp])]
    rfl

theorem lines_flatMap {pieces : List (List Char)} (hfeed : ∀ piece ∈ pieces, '\n' ∉ piece)
    (hreturn : ∀ piece ∈ pieces, '\r' ∉ piece) :
    lines (pieces.flatMap (· ++ ['\n'])) = pieces := by
  rw [lines, splitOn_flatMap hfeed, List.getLast?_concat, if_pos rfl, List.dropLast_concat]
  have hkept : ∀ piece ∈ pieces,
      (if piece.getLast? = some '\r' then piece.dropLast else piece) = piece := by
    intro piece hpiece
    exact if_neg fun hlast => hreturn piece hpiece (List.mem_of_getLast? hlast)
  rw [List.map_congr_left hkept, List.map_id']

theorem toList_joined (parts : List String) :
    (joined "/" parts).toList = joinWith '/' (parts.map String.toList) := by
  induction parts with
  | nil => rfl
  | cons part rest ih =>
    cases rest with
    | nil => simp [joined, joinWith]
    | cons q rest =>
      rw [joined] at ih ⊢
      rw [String.intercalate_cons_cons, String.toList_append, String.toList_append, ih]
      simp [joinWith]

end Rollout.Text

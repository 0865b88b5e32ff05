/-!
# Edit distance

The least number of insertions, deletions and substitutions that turn one list into another,
computed one row at a time: the row of `b` holds the distances from what was read of the first
list to every beginning of `b`.
-/

namespace Rollout.Text

variable {α : Type} [DecidableEq α]

/-- The next row, left to right: `left` is the entry just computed, `diagonal` the old entry
above it, and `above` the old entries that follow. -/
def nextRow (a : α) : List α → Nat → Nat → List Nat → List Nat
  | b :: bs, left, diagonal, above :: rest =>
    let entry := min (min (above + 1) (left + 1)) (diagonal + if a = b then 0 else 1)
    entry :: nextRow a bs entry above rest
  | _, _, _, _ => []

/-- One step of the table: from the row of what was read to the row with `a` added. -/
def advanceRow (b : List α) (row : List Nat) (a : α) : List Nat :=
  match row with
  | [] => []
  | first :: rest => (first + 1) :: nextRow a b (first + 1) first rest

/-- The last entry of the last row. Equal lists need no table. -/
def editDistance (a b : List α) : Nat :=
  if a = b then 0
  else ((a.foldl (advanceRow b) (List.range (b.length + 1))).getLast?).getD 0

end Rollout.Text

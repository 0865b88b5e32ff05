/-!
# Cutting text at a character

`splitOn` cuts at every occurrence of a separator and keeps the empty pieces, so that joining
the pieces gives the text back (`joinWith_splitOn`); `holds` looks for one text in another.
-/

namespace Rollout.Text

/-- The pieces between the separators; always at least one. -/
def splitOn (sep : Char) : List Char → List (List Char)
  | [] => [[]]
  | c :: cs =>
    if c = sep then [] :: splitOn sep cs
    else match splitOn sep cs with
      | [] => [[c]]
      | piece :: rest => (c :: piece) :: rest

theorem splitOn_ne_nil (sep : Char) (cs : List Char) : splitOn sep cs ≠ [] := by
  cases cs with
  | nil => simp [splitOn]
  | cons c cs =>
    rw [splitOn]
    split
    · simp
    · split <;> simp

/-- The pieces with the separator put back between them. -/
def joinWith (sep : Char) : List (List Char) → List Char
  | [] => []
  | [piece] => piece
  | piece :: rest => piece ++ sep :: joinWith sep rest

theorem joinWith_splitOn (sep : Char) (cs : List Char) : joinWith sep (splitOn sep cs) = cs := by
  induction cs with
  | nil => rfl
  | cons c cs ih =>
    rw [splitOn]
    cases h : splitOn sep cs with
    | nil => exact absurd h (splitOn_ne_nil sep cs)
    | cons piece rest =>
      rw [h] at ih
      by_cases hc : c = sep
      · subst hc
        simp [joinWith, ih]
      · rw [if_neg hc]
        cases rest <;> simp_all [joinWith]

/-- Whether `part` occurs in the text. -/
def holds (part : List Char) : List Char → Bool
  | [] => part.isEmpty
  | c :: cs => part.isPrefixOf (c :: cs) || holds part cs

/-- What follows the first occurrence of the separator, with what precedes it. -/
def cutAt (sep : Char) : List Char → Option (List Char × List Char)
  | [] => none
  | c :: cs =>
    if c = sep then some ([], cs)
    else (cutAt sep cs).map fun (before, after) => (c :: before, after)

/-- The lines of a text; a line end closes a line and opens none. -/
def lines (cs : List Char) : List (List Char) :=
  let pieces := splitOn '\n' cs
  (if pieces.getLast? = some [] then pieces.dropLast else pieces).map fun line =>
    if line.getLast? = some '\r' then line.dropLast else line

/-- Texts written one after the other with `sep` between them. -/
def joined (sep : String) (parts : List String) : String := String.intercalate sep parts

end Rollout.Text

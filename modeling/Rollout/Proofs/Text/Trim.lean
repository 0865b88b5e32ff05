import Mathlib.Data.List.DropRight
import Mathlib.Tactic.Common
import Rollout.Text.Blank

/-!
# Trimmed texts

A text is its trimmed form with white space on both sides (`exists_trim`). So it is blank exactly
if its trimmed form is (`isBlank_trim`), and then nothing is left of it (`trim_eq_empty_iff`).
-/

namespace Rollout.Text

/-- White space only. -/
def Blank (cs : List Char) : Prop := ∀ c ∈ cs, isBlankChar c = true

theorem isBlank_iff {s : String} : isBlank s = true ↔ Blank s.toList := List.all_eq_true

theorem blank_append {xs ys : List Char} : Blank (xs ++ ys) ↔ Blank xs ∧ Blank ys :=
  List.forall_mem_append

theorem toList_trim (s : String) :
    (trim s).toList = (s.toList.dropWhile isBlankChar).rdropWhile isBlankChar := by
  rw [trim, String.toList_ofList]
  rfl

/-- What trimming takes away is white space on both sides. -/
theorem exists_trim (s : String) :
    ∃ before after, Blank before ∧ Blank after ∧
      s.toList = before ++ ((trim s).toList ++ after) := by
  refine ⟨s.toList.takeWhile isBlankChar, (s.toList.dropWhile isBlankChar).rtakeWhile isBlankChar,
    ?_, ?_, ?_⟩
  · intro c hc
    exact List.mem_takeWhile_imp hc
  · intro c hc
    exact List.mem_rtakeWhile_imp hc
  · rw [toList_trim, List.rdropWhile_append_rtakeWhile, List.takeWhile_append_dropWhile]

theorem isBlank_trim (s : String) : isBlank (trim s) = isBlank s := by
  obtain ⟨before, after, hbefore, hafter, hs⟩ := exists_trim s
  apply Bool.eq_iff_iff.mpr
  rw [isBlank_iff, isBlank_iff, hs, blank_append, blank_append]
  simp [hbefore, hafter]

theorem trim_eq_empty_iff {s : String} : trim s = "" ↔ isBlank s = true := by
  constructor
  · intro h
    rw [← isBlank_trim, h]
    rfl
  · intro h
    have hstart : s.toList.dropWhile isBlankChar = [] :=
      List.dropWhile_eq_nil_iff.mpr (isBlank_iff.mp h)
    apply String.toList_inj.mp
    rw [toList_trim, hstart]
    rfl

end Rollout.Text

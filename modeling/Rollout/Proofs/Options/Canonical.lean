import Mathlib.Tactic.Common
import Rollout.Proofs.Options.Depth

/-!
# Options in one form

An option value is determined by its structure when the keys of every map in it are sorted
(`OptionValue.Canonical`). Such a value is read from the JSON as which it is written, exactly if it
is nested no deeper than the reader goes (`OptionValue.Canonical.read?_compact_iff`).
-/

namespace Rollout.OptionValue

open Json (Source)

/-- Every map in a value has its keys sorted. -/
inductive Canonical : OptionValue → Prop
  | bool (b : Bool) : Canonical (.bool b)
  | integer (n : Int64) : Canonical (.integer n)
  | real (x : Number.Binary64) : Canonical (.real x)
  | text (s : String) : Canonical (.text s)
  | list {items : List OptionValue} (h : ∀ v ∈ items, Canonical v) : Canonical (.list items)
  | map {entries : List (String × OptionValue)} (sorted : Dict.Sorted entries)
      (h : ∀ e ∈ entries, Canonical e.2) : Canonical (.map entries)

theorem isInt64_toInt (n : Int64) : isInt64 n.toInt = true := by
  simp only [isInt64, Bool.and_eq_true, decide_eq_true_eq]
  exact ⟨n.le_toInt, n.toInt_lt⟩

theorem ofSource?_integer (room : Nat) (n : Int64) :
    ofSource? room (integer n).toJson.toSource = some (integer n) := by
  have hrange := isInt64_toInt n
  have hin : Json.Number.InRange n.toInt := by
    simp only [isInt64, Bool.and_eq_true, decide_eq_true_eq] at hrange
    unfold Json.Number.InRange Json.maxSignificand
    simp only [Nat.pow_eq, Nat.reducePow, UInt64.size] at hrange ⊢
    split <;> omega
  change ((Json.Number.integer n.toInt).numeral.value?).bind ofNumber? = _
  rw [Json.Number.value?_numeral_of_inRange hin, Option.bind_some, ofNumber?, if_pos hrange,
    Int64.ofInt_toInt]

theorem depth_item_le {v : OptionValue} {items : List OptionValue} (h : v ∈ items) :
    v.depth ≤ Source.depthOfItems (Json.toSources (toJsonItems items)) := by
  induction items with
  | nil => cases h
  | cons head rest ih =>
    rw [toJsonItems, Json.toSources, Source.depthOfItems]
    rcases List.mem_cons.1 h with rfl | h
    · exact Nat.le_max_left _ _
    · exact (ih h).trans (Nat.le_max_right _ _)

/-- A value in one form is read from its structure with any room that is enough for it. -/
theorem Canonical.ofSource?_toJson {v : OptionValue} (h : v.Canonical) (hf : v.toJson.Faithful)
    {room : Nat} (hroom : v.depth ≤ room) : ofSource? room v.toJson.toSource = some v := by
  induction h generalizing room with
  | bool b => rfl
  | integer n => exact ofSource?_integer room n
  | real x =>
    exact congrArg (Option.bind · ofNumber?) (Json.readsBack_iff.1 (hf x List.mem_cons_self))
  | text s => rfl
  | @list items _ ih =>
    cases room with
    | zero => cases hroom
    | succ room =>
      have hinside (v : OptionValue) (hv : v ∈ items) : v.depth ≤ room :=
        (depth_item_le hv).trans (Nat.le_of_succ_le_succ hroom)
      exact congrArg (Option.map OptionValue.list) (ofItems?_toSources fun v hv =>
        ih v hv (faithful_item hf v hv) (hinside v hv))
  | @map entries hsorted _ ih =>
    cases room with
    | zero => cases hroom
    | succ room =>
      have hinside (e : String × OptionValue) (he : e ∈ entries) : e.2.depth ≤ room :=
        (OptionMap.depth_le_of_mem e he).trans (Nat.le_of_succ_le_succ hroom)
      have hmembers := ofMembers?_toSourceMembers fun e he =>
        ih e he (faithful_member hf e he) (hinside e he)
      exact (congrArg (Option.map fun es => OptionValue.map (Dict.ofEntries es)) hmembers).trans
        (congrArg (some ∘ OptionValue.map) (Dict.ofEntries_eq_self hsorted))

/-- It is read from its text exactly if it is nested no deeper than the reader goes. -/
theorem Canonical.read?_compact_iff {v : OptionValue} (h : v.Canonical)
    (hf : v.toJson.Faithful) :
    read? v.toJson.compact = some v ↔ v.depth ≤ Json.nestingLimit := by
  rw [read?, Json.read?_compact, Option.bind_some]
  exact ⟨depth_le_of_ofSource?, h.ofSource?_toJson hf⟩

end Rollout.OptionValue

import Mathlib.Tactic.Common
import Rollout.Proofs.Options.Depth

/-!
# Flattened options

Flat options are left as they are (`flatten_eq_self`), and flattening makes options flat where no
nested map holds another (`flat_flatten`); so flattening again changes nothing
(`flatten_flatten`). A text among the options is among the flattened ones (`text?_flatten`), while
these may have texts besides that were in nested maps.
-/

namespace Rollout

namespace OptionValue

/-- A value is a map. -/
def isMap : OptionValue → Bool
  | .map _ => true
  | _ => false

end OptionValue

namespace OptionMap

/-- No option is a map. -/
def Flat (o : OptionMap) : Prop := ∀ e ∈ o, e.2.isMap = false

/-- No map among the options holds another. -/
def Shallow (o : OptionMap) : Prop := ∀ e ∈ o, ∀ entries, e.2 = .map entries → Flat entries

variable {o : OptionMap}

theorem plain_eq_filter (o : OptionMap) : o.plain = o.filter fun e => !e.2.isMap := by
  refine List.filter_congr fun e _ => ?_
  obtain ⟨key, v⟩ := e
  cases v <;> rfl

theorem Flat.plain_eq (h : o.Flat) : o.plain = o := by
  rw [plain_eq_filter]
  exact List.filter_eq_self.2 fun e he => by rw [h e he, Bool.not_false]

theorem Flat.lifted_eq (h : o.Flat) : o.lifted = [] := by
  refine o.lifted_induction (P := (· = [])) rfl fun key entries acc hmem _ => ?_
  cases h _ hmem

theorem flatten_eq_self (h : o.Flat) (hsorted : o.Sorted) : o.flatten = o := by
  rw [flatten, h.plain_eq, h.lifted_eq]
  exact Dict.ofEntries_eq_self hsorted

theorem flat_flatten (h : o.Shallow) : o.flatten.Flat := by
  have hlifted : o.lifted.Flat := by
    refine o.lifted_induction (P := Flat) nofun fun key entries acc hmem hacc e he => ?_
    rcases Dict.mem_of_mem_overlay he with he | he
    · exact h _ hmem entries rfl e he
    · exact hacc e he
  intro e he
  rcases Dict.mem_of_mem_overlay he with hplain | he
  · rw [plain_eq_filter, List.mem_filter] at hplain
    simpa using hplain.2
  · exact hlifted e he

theorem flatten_flatten (h : o.Shallow) : o.flatten.flatten = o.flatten :=
  flatten_eq_self (flat_flatten h) (sorted_flatten o)

/-! ### Single options -/

/-- An option that is no map is kept; in place of others there is what was nested. -/
theorem get?_flatten (hsorted : o.Sorted) (key : String) :
    o.flatten.get? key = ((o.get? key).filter (!·.isMap)).or (o.lifted.get? key) := by
  have hplain : o.plain.Sorted := plain_eq_filter o ▸ hsorted.filter _
  rw [flatten, Dict.get?_overlay, Dict.get?_reverse hplain.nodup_keys, plain_eq_filter,
    Dict.get?_filter_of_sorted hsorted]

/-- A text is found among flattened options as among the options, or it was nested. -/
theorem text?_flatten (hsorted : o.Sorted) (key : String) :
    o.flatten.text? key = o.text? key ∨
      o.text? key = none ∧ o.flatten.text? key = o.lifted.text? key := by
  rw [text?, text?, text?, get?_flatten hsorted]
  cases o.get? key with
  | none => exact .inr ⟨rfl, rfl⟩
  | some v =>
    cases v with
    | map entries => exact .inr ⟨rfl, rfl⟩
    | _ => exact .inl rfl

end OptionMap
end Rollout

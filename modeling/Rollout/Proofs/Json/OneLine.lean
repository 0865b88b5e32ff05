import Mathlib.Tactic.Common
import Rollout.Proofs.Json.Faithful

/-!
# Compact texts

No control character is left in the compact text of a value, whatever texts the value holds, so
it stands on one line (`noControls_compact`).
-/

namespace Rollout.Json

/-- No character is a control character. -/
def NoControls (cs : List Char) : Prop := ∀ c ∈ cs, 0x20 ≤ c.toNat

instance (cs : List Char) : Decidable (NoControls cs) := List.decidableBAll _ _

theorem noControls_nil : NoControls [] := List.forall_mem_nil _

theorem noControls_append {cs ds : List Char} :
    NoControls (cs ++ ds) ↔ NoControls cs ∧ NoControls ds := List.forall_mem_append

theorem noControls_cons {c : Char} {cs : List Char} :
    NoControls (c :: cs) ↔ 0x20 ≤ c.toNat ∧ NoControls cs := List.forall_mem_cons

theorem NoControls.notMem {cs : List Char} (h : NoControls cs) {c : Char} (hc : c.toNat < 0x20) :
    c ∉ cs := fun hmem => absurd (h c hmem) (Nat.not_le.2 hc)

theorem noControls_hexPair (n : Nat) (h : n < 0x20) : NoControls (hexPair n) := by
  decide +revert

/-- A control character is escaped by others. -/
theorem noControls_escape (c : Char) : NoControls (escape c) := by
  unfold escape
  split_ifs with _ _ _ _ _ _ _ hlow
  any_goals decide
  · have hstart : NoControls ['\\', 'u', '0', '0'] := by decide
    exact noControls_append.2 ⟨hstart, noControls_hexPair c.toNat hlow⟩
  · exact noControls_cons.2 ⟨Nat.not_lt.1 hlow, noControls_nil⟩

theorem noControls_quote (s : String) : NoControls (quote s) := by
  have hcontent : NoControls (s.toList.flatMap escape) := by
    intro d hd
    obtain ⟨c, -, hd⟩ := List.mem_flatMap.1 hd
    exact noControls_escape c d hd
  rw [quote, noControls_cons, noControls_append]
  exact ⟨by decide, hcontent, by decide⟩

theorem AreDigits.noControls {ds : List Char} (h : AreDigits ds) : NoControls ds := by
  intro c hc
  have := toNat_of_isDigit (h c hc)
  omega

theorem noControls_number (n : Number) : NoControls n.text := by
  have hvalid := n.valid_spelling
  have hfraction : NoControls (Spelling.fractionText n.spelling.fraction) := by
    cases hds : n.spelling.fraction with
    | nil => exact noControls_nil
    | cons d ds => exact noControls_cons.2 ⟨by decide, hds ▸ hvalid.fraction.noControls⟩
  have hexponent : NoControls (Spelling.exponentText n.spelling.exponent) := by
    cases he : n.spelling.exponent with
    | none => exact noControls_nil
    | some e =>
      obtain ⟨negative, ds⟩ := e
      have hdigits : NoControls ds := (hvalid.exponent _ he).1.noControls
      cases negative <;>
        exact noControls_cons.2 ⟨by decide, noControls_cons.2 ⟨by decide, hdigits⟩⟩
  have hbody : NoControls n.spelling.body :=
    noControls_append.2 ⟨noControls_append.2 ⟨hvalid.whole.noControls, hfraction⟩, hexponent⟩
  rw [← n.text_spelling, Spelling.text]
  split_ifs
  · exact noControls_cons.2 ⟨by decide, hbody⟩
  · exact hbody

mutual

theorem noControls_compactChars : ∀ j : Json, NoControls j.compactChars
  | .null => by decide
  | .bool true => by decide
  | .bool false => by decide
  | .number n => noControls_number n
  | .text s => noControls_quote s
  | .array items => by
    rw [compactChars, noControls_cons, noControls_append]
    exact ⟨by decide, noControls_compactItems items, by decide⟩
  | .object members => by
    rw [compactChars, noControls_cons, noControls_append]
    exact ⟨by decide, noControls_compactMembers members, by decide⟩

theorem noControls_compactItems : ∀ items, NoControls (compactItems items)
  | [] => by decide
  | [item] => noControls_compactChars item
  | item :: item' :: items => by
    rw [compactItems, noControls_append, noControls_cons]
    · exact ⟨noControls_compactChars item, by decide, noControls_compactItems (item' :: items)⟩
    · simp

theorem noControls_compactMembers : ∀ members, NoControls (compactMembers members)
  | [] => by decide
  | [(key, item)] => by
    rw [compactMembers, noControls_append, noControls_cons]
    exact ⟨noControls_quote key, by decide, noControls_compactChars item⟩
  | (key, item) :: m :: members => by
    rw [compactMembers, noControls_append, noControls_cons, noControls_append, noControls_cons]
    · exact ⟨noControls_quote key, by decide, noControls_compactChars item, by decide,
        noControls_compactMembers (m :: members)⟩
    · simp

end

theorem noControls_compact (j : Json) : NoControls j.compact.toList := by
  rw [compact, String.toList_ofList]
  exact noControls_compactChars j

end Rollout.Json

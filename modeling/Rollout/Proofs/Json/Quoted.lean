import Mathlib.Tactic.Common
import Rollout.Json.Printer
import Rollout.Json.Reader

/-!
# Quoted texts as they are written

Every character of a quoted text is read back from what it is escaped to, so that a quoted text
gives its content and leaves what follows the closing quote (`quotedText?_quote`).
-/

namespace Rollout.Json

/-- The controls without a letter of their own, which are written as units. -/
def IsUnit (c : Char) : Prop :=
  c.toNat < 0x20 ∧ c ≠ '\n' ∧ c ≠ '\r' ∧ c ≠ '\t' ∧ c.toNat ≠ 8 ∧ c.toNat ≠ 12

instance (c : Char) : Decidable (IsUnit c) := by
  unfold IsUnit
  infer_instance

/-- The piece that a character is written as. -/
def pieceOf (c : Char) : Piece := if IsUnit c then .unit c.toNat else .char c

/-! ### Pieces -/

theorem hexValue?_control (n : Nat) (h : n < 0x20) :
    hexValue? ('0' :: '0' :: hexPair n) = some n := by
  decide +revert

theorem pieces_unit {a b c d : Char} {n : Nat} (h : hexValue? [a, b, c, d] = some n)
    (rest : List Char) :
    pieces ('\\' :: 'u' :: a :: b :: c :: d :: rest) =
      (pieces rest).map fun (ps, after) => (.unit n :: ps, after) := by
  rw [pieces, h]
  cases pieces rest <;> rfl

theorem pieces_escaped {c e : Char} (h : escaped? c = some e) (rest : List Char) :
    pieces ('\\' :: c :: rest) = (pieces rest).map fun (ps, after) => (.char e :: ps, after) := by
  have hu : c ≠ 'u' := by
    rintro rfl
    cases h
  rw [pieces.eq_4 c rest fun _ _ _ _ _ hc _ => hu hc, h]
  cases pieces rest <;> rfl

theorem pieces_char {c : Char} (h : 0x20 ≤ c.toNat) (hquote : c ≠ '"') (hbackslash : c ≠ '\\')
    (rest : List Char) :
    pieces (c :: rest) = (pieces rest).map fun (ps, after) => (.char c :: ps, after) := by
  rw [pieces.eq_5 c rest hquote (fun _ _ _ _ _ hc _ => hbackslash hc)
    (fun _ _ hc _ => hbackslash hc), if_neg (by simp [hbackslash, Nat.not_lt.2 h])]
  cases pieces rest <;> rfl

/-- A character that is escaped by a letter is the piece that the letter stands for. -/
theorem pieces_escape_letter {c letter : Char} (hescape : escape c = ['\\', letter])
    (hletter : escaped? letter = some c) (hunit : ¬ IsUnit c) (rest : List Char) :
    pieces (escape c ++ rest) =
      (pieces rest).map fun (ps, after) => (pieceOf c :: ps, after) := by
  rw [hescape, pieceOf, if_neg hunit]
  exact pieces_escaped hletter rest

theorem escape_of_isUnit {c : Char} (h : IsUnit c) :
    escape c = '\\' :: 'u' :: '0' :: '0' :: hexPair c.toNat := by
  obtain ⟨hlow, hn, hr, ht, hb, hf⟩ := h
  have hquote : c ≠ '"' := by
    rintro rfl
    exact absurd hlow (by decide)
  have hbackslash : c ≠ '\\' := by
    rintro rfl
    exact absurd hlow (by decide)
  simp only [escape, if_neg hquote, if_neg hbackslash, if_neg hn, if_neg hr, if_neg ht, if_neg hb,
    if_neg hf, if_pos hlow]

/-- A character comes back from what it is escaped to. -/
theorem pieces_escape (c : Char) (rest : List Char) :
    pieces (escape c ++ rest) =
      (pieces rest).map fun (ps, after) => (pieceOf c :: ps, after) := by
  by_cases hunit : IsUnit c
  · rw [escape_of_isUnit hunit, pieceOf, if_pos hunit]
    exact pieces_unit (hexValue?_control c.toNat hunit.1) rest
  by_cases hquote : c = '"'
  · exact hquote ▸ pieces_escape_letter rfl rfl (by decide) rest
  by_cases hbackslash : c = '\\'
  · exact hbackslash ▸ pieces_escape_letter rfl rfl (by decide) rest
  by_cases hn : c = '\n'
  · exact hn ▸ pieces_escape_letter rfl rfl (by decide) rest
  by_cases hr : c = '\r'
  · exact hr ▸ pieces_escape_letter rfl rfl (by decide) rest
  by_cases ht : c = '\t'
  · exact ht ▸ pieces_escape_letter rfl rfl (by decide) rest
  by_cases hb : c = Char.ofNat 8
  · exact hb ▸ pieces_escape_letter rfl rfl (by decide) rest
  by_cases hf : c = Char.ofNat 12
  · exact hf ▸ pieces_escape_letter rfl rfl (by decide) rest
  have hb' : c.toNat ≠ 8 := fun h => hb (Char.toNat_inj.1 h)
  have hf' : c.toNat ≠ 12 := fun h => hf (Char.toNat_inj.1 h)
  have hplain : ¬ c.toNat < 0x20 := fun hlow => hunit ⟨hlow, hn, hr, ht, hb', hf'⟩
  simp only [escape, if_neg hquote, if_neg hbackslash, if_neg hn, if_neg hr, if_neg ht,
    if_neg hb', if_neg hf', if_neg hplain, pieceOf, if_neg hunit]
  exact pieces_char (Nat.not_lt.1 hplain) hquote hbackslash rest

/-! ### Contents -/

theorem assemble_unit {n : Nat} (hhigh : isHighSurrogate n = false)
    (hlow : isLowSurrogate n = false) (ps : List Piece) :
    assemble (.unit n :: ps) = (assemble ps).map (Char.ofNat n :: ·) := by
  cases ps with
  | nil => simp [assemble, hhigh, hlow]
  | cons p ps => cases p <;> simp [assemble, hhigh, hlow]

theorem assemble_pieceOf (c : Char) (ps : List Piece) :
    assemble (pieceOf c :: ps) = (assemble ps).map (c :: ·) := by
  by_cases hunit : IsUnit c
  · rw [pieceOf, if_pos hunit]
    have hlow : c.toNat < 0x20 := hunit.1
    have hhigh : isHighSurrogate c.toNat = false := by
      simp [isHighSurrogate]
      omega
    have hlow' : isLowSurrogate c.toNat = false := by
      simp [isLowSurrogate]
      omega
    rw [assemble_unit hhigh hlow', Char.ofNat_toNat]
  · rw [pieceOf, if_neg hunit, assemble]

theorem assemble_map_pieceOf (cs : List Char) : assemble (cs.map pieceOf) = some cs := by
  induction cs with
  | nil => rfl
  | cons c cs ih =>
    rw [List.map_cons, assemble_pieceOf, ih]
    rfl

theorem pieces_flatMap_escape (cs rest : List Char) :
    pieces (cs.flatMap escape ++ '"' :: rest) = some (cs.map pieceOf, rest) := by
  induction cs with
  | nil => rw [List.flatMap_nil, List.nil_append, pieces, List.map_nil]
  | cons c cs ih =>
    rw [List.flatMap_cons, List.append_assoc, pieces_escape, ih]
    rfl

/-- A quoted text gives its content and leaves what follows the closing quote. -/
theorem quotedText?_quote (s : String) (rest : List Char) :
    quotedText? (s.toList.flatMap escape ++ '"' :: rest) = some (some s, rest) := by
  simp only [quotedText?, pieces_flatMap_escape, Option.map_some, assemble_map_pieceOf,
    String.ofList_toList]

end Rollout.Json

import Mathlib.Tactic.Common
import Rollout.Json.Number
import Rollout.Json.Reader

/-!
# Numbers as they are written

A number is written as the numeral of its parts, and reading its text takes just that numeral
(`numeral?_text`). An integer in the range of its kind is the value of its numeral; whether a
floating point number is, depends on its digits.
-/

namespace Rollout.Json

open Rollout.Number

/-! ### Digits -/

def digitValue (c : Char) : Nat := c.toNat - '0'.toNat

theorem digitOf?_eq_some {c : Char} (h : c.isDigit = true) : digitOf? c = some (digitValue c) := by
  have hrange : '0' ≤ c ∧ c ≤ '9' := by simpa [Char.isDigit, Char.le_def] using h
  exact if_pos hrange

theorem digitOf?_eq_none {c : Char} (h : c.isDigit = false) : digitOf? c = none := by
  have hrange : ¬ ('0' ≤ c ∧ c ≤ '9') := by simpa [Char.isDigit, Char.le_def] using h
  exact if_neg hrange

theorem toNat_of_isDigit {c : Char} (h : c.isDigit = true) : 48 ≤ c.toNat ∧ c.toNat ≤ 57 := by
  simp only [Char.isDigit, Bool.and_eq_true, decide_eq_true_eq, ge_iff_le] at h
  exact ⟨UInt32.le_iff_toNat_le.1 h.1, UInt32.le_iff_toNat_le.1 h.2⟩

theorem ne_zero_of_digit {c : Char} (h : c.isDigit = true) (hc : c ≠ '0') : digitValue c ≠ 0 := by
  have hrange := toNat_of_isDigit h
  have hzero : '0'.toNat = 48 := rfl
  have hne : c.toNat ≠ '0'.toNat := fun heq => hc (Char.toNat_inj.1 heq)
  unfold digitValue
  omega

/-- A text of digits only. -/
def AreDigits (cs : List Char) : Prop := ∀ c ∈ cs, c.isDigit = true

/-- The text does not go on with what could belong to a numeral. -/
def EndsNumeral (rest : List Char) : Prop :=
  ∀ c ∈ rest.head?, c.isDigit = false ∧ c ≠ '.' ∧ c ≠ 'e' ∧ c ≠ 'E'

/-- The digits are taken up to the first character that is none. -/
theorem takeDigits_append {ds rest : List Char} (hds : AreDigits ds)
    (hrest : ∀ c ∈ rest.head?, c.isDigit = false) :
    takeDigits (ds ++ rest) = (ds.map digitValue, rest) := by
  induction ds with
  | nil =>
    cases rest with
    | nil => rfl
    | cons c rest => simp [takeDigits, digitOf?_eq_none (hrest c rfl)]
  | cons d ds ih =>
    have hd := digitOf?_eq_some (hds d List.mem_cons_self)
    have htail := ih fun c hc => hds c (List.mem_cons_of_mem d hc)
    simp [takeDigits, hd, htail]

theorem areDigits_toDigits (n : Nat) : AreDigits (Nat.toDigits 10 n) := fun _ hc =>
  Nat.isDigit_of_mem_toDigits (by decide) (by decide) hc

theorem areDigits_zeros (n : Nat) : AreDigits (zeros n) := fun c hc => by
  rw [List.eq_of_mem_replicate hc]
  rfl

theorem AreDigits.append {cs ds : List Char} (hcs : AreDigits cs) (hds : AreDigits ds) :
    AreDigits (cs ++ ds) := fun c hc => (List.mem_append.1 hc).elim (hcs c) (hds c)

/-- The digits of a positive number do not start with a zero. -/
theorem head?_toDigits {n : Nat} (hn : n ≠ 0) : (Nat.toDigits 10 n).head? ≠ some '0' := by
  induction n using Nat.base_induction 10 (by decide) with
  | single n hlt => simpa [Nat.toDigits_of_lt_base hlt] using hn
  | digit n k hk hpos ih =>
    rw [← Nat.toDigits_append_toDigits (by decide) hpos hk, List.head?_append]
    cases hhead : (Nat.toDigits 10 n).head? with
    | none => exact absurd (List.head?_eq_none_iff.1 hhead) Nat.toDigits_ne_nil
    | some c =>
      rw [hhead] at ih
      exact ih (Nat.ne_of_gt hpos)

theorem digitsValue_toDigits (n : Nat) :
    digitsValue ((Nat.toDigits 10 n).map digitValue) = n := by
  rw [digitsValue, List.foldl_map]
  exact Nat.ofDigitChars_ten_toDigits

/-! ### Numerals -/

/-- The parts of a numeral as they are written. -/
structure Spelling where
  negative : Bool
  whole : List Char
  fraction : List Char
  exponent : Option (Bool × List Char)

namespace Spelling

def fractionText : List Char → List Char
  | [] => []
  | ds => '.' :: ds

def exponentText : Option (Bool × List Char) → List Char
  | none => []
  | some (negative, ds) => 'e' :: (if negative then '-' else '+') :: ds

def body (s : Spelling) : List Char :=
  s.whole ++ fractionText s.fraction ++ exponentText s.exponent

def text (s : Spelling) : List Char := if s.negative then '-' :: s.body else s.body

def numeral (s : Spelling) : Numeral :=
  { negative := s.negative
    whole := s.whole.map digitValue
    fraction := s.fraction.map digitValue
    exponent := s.exponent.map fun (negative, ds) => (negative, ds.map digitValue) }

/-- The parts are digits, the whole part and the exponent have some, and no zero is in front. -/
structure Valid (s : Spelling) : Prop where
  whole : AreDigits s.whole
  whole_ne : s.whole ≠ []
  start : s.whole.head? = some '0' → s.whole = ['0']
  fraction : AreDigits s.fraction
  exponent : ∀ e ∈ s.exponent, AreDigits e.2 ∧ e.2 ≠ []

end Spelling

theorem wholePart?_append {ds rest : List Char} (hds : AreDigits ds) (hne : ds ≠ [])
    (hstart : ds.head? = some '0' → ds = ['0'])
    (hrest : ∀ c ∈ rest.head?, c.isDigit = false) :
    wholePart? (ds ++ rest) = some (ds.map digitValue, rest) := by
  rw [wholePart?, takeDigits_append hds hrest]
  match ds, hne with
  | [d], _ =>
    simp only [List.map_cons, List.map_nil]
    cases digitValue d <;> rfl
  | d :: d' :: ds, _ =>
    have hzero : d ≠ '0' := fun hd => by simpa using hstart (congrArg some hd)
    have hd : digitValue d ≠ 0 := ne_zero_of_digit (hds d List.mem_cons_self) hzero
    simp only [List.map_cons]
    split <;> simp_all

theorem fractionPart?_append {ds rest : List Char} (hds : AreDigits ds)
    (hrest : ∀ c ∈ rest.head?, c.isDigit = false ∧ c ≠ '.') :
    fractionPart? (Spelling.fractionText ds ++ rest) = some (ds.map digitValue, rest) := by
  cases ds with
  | nil =>
    change fractionPart? rest = _
    unfold fractionPart?
    split
    · exact absurd rfl (hrest '.' rfl).2
    · rfl
  | cons d ds =>
    change fractionPart? ('.' :: (d :: ds ++ rest)) = _
    simp only [fractionPart?, takeDigits_append hds fun c hc => (hrest c hc).1]
    rfl

theorem exponentDigits?_append (negative : Bool) {ds rest : List Char} (hds : AreDigits ds)
    (hne : ds ≠ []) (hrest : ∀ c ∈ rest.head?, c.isDigit = false) :
    exponentDigits? ((if negative then '-' else '+') :: (ds ++ rest)) =
      some ((negative, ds.map digitValue), rest) := by
  have htake := takeDigits_append hds hrest
  obtain ⟨d, ds, rfl⟩ := List.exists_cons_of_ne_nil hne
  cases negative with
  | false =>
    unfold exponentDigits?
    simp only [Bool.false_eq_true, if_false, htake]
    rfl
  | true =>
    unfold exponentDigits?
    simp only [if_true, htake]
    rfl

theorem exponentPart?_append {e : Option (Bool × List Char)} {rest : List Char}
    (he : ∀ e' ∈ e, AreDigits e'.2 ∧ e'.2 ≠ []) (hrest : EndsNumeral rest) :
    exponentPart? (Spelling.exponentText e ++ rest) =
      some (e.map fun (negative, ds) => (negative, ds.map digitValue), rest) := by
  cases e with
  | none =>
    change exponentPart? rest = _
    unfold exponentPart?
    split
    · exact absurd rfl (hrest 'e' rfl).2.2.1
    · exact absurd rfl (hrest 'E' rfl).2.2.2
    · rfl
  | some e =>
    obtain ⟨negative, ds⟩ := e
    obtain ⟨hds, hne⟩ := he _ rfl
    change (exponentDigits? ((if negative then '-' else '+') :: (ds ++ rest))).map _ = _
    rw [exponentDigits?_append negative hds hne fun c hc => (hrest c hc).1]
    rfl

theorem head?_exponentText {e : Option (Bool × List Char)} {rest : List Char}
    (hrest : EndsNumeral rest) :
    ∀ c ∈ (Spelling.exponentText e ++ rest).head?, c.isDigit = false ∧ c ≠ '.' := by
  intro c hc
  cases e with
  | none => exact ⟨(hrest c hc).1, (hrest c hc).2.1⟩
  | some e =>
    obtain rfl : 'e' = c := Option.some.inj hc
    decide

theorem head?_fractionText (ds : List Char) {e : Option (Bool × List Char)} {rest : List Char}
    (hrest : EndsNumeral rest) :
    ∀ c ∈ (Spelling.fractionText ds ++ (Spelling.exponentText e ++ rest)).head?,
      c.isDigit = false := by
  intro c hc
  cases ds with
  | nil => exact (head?_exponentText hrest c hc).1
  | cons d ds =>
    obtain rfl : '.' = c := Option.some.inj hc
    rfl

/-- Reading a numeral that is written takes all of it and nothing more. -/
theorem numeral?_append {s : Spelling} (h : s.Valid) {rest : List Char} (hrest : EndsNumeral rest) :
    numeral? (s.text ++ rest) = some (s.numeral, rest) := by
  have hwhole := wholePart?_append h.whole h.whole_ne h.start
    (head?_fractionText s.fraction (e := s.exponent) hrest)
  have hfraction := fractionPart?_append h.fraction (head?_exponentText (e := s.exponent) hrest)
  have hexponent := exponentPart?_append h.exponent hrest
  obtain ⟨negative, whole, fraction, exponent⟩ := s
  obtain ⟨d, ds, rfl⟩ := List.exists_cons_of_ne_nil h.whole_ne
  have hd : d ≠ '-' := by
    rintro rfl
    exact absurd (h.whole '-' List.mem_cons_self) (by decide)
  have hbody : (Spelling.mk negative (d :: ds) fraction exponent).body ++ rest =
      d :: ds ++ (Spelling.fractionText fraction ++ (Spelling.exponentText exponent ++ rest)) := by
    simp [Spelling.body]
  unfold numeral? Spelling.text
  cases negative with
  | false =>
    simp only [Bool.false_eq_true, if_false, hbody]
    split
    · rename_i hminus
      exact absurd (List.cons.inj hminus).1 hd
    · simp only [hwhole, hfraction, hexponent, Option.bind_eq_bind, Option.bind_some]
      rfl
  | true =>
    simp only [if_true, List.cons_append, hbody] at hwhole ⊢
    simp only [hwhole, hfraction, hexponent, Option.bind_eq_bind, Option.bind_some]
    rfl

/-! ### The digits of floating point numbers -/

theorem significand_ne_zero {x : Binary64} (h : x.isZero = false) : x.significand ≠ 0 := by
  have hmagnitude : x.magnitude ≠ 0 := by simpa [Binary64.isZero] using h
  have hsplit := Nat.div_add_mod x.magnitude (Nat.pow 2 52)
  have hpos : 0 < Nat.pow 2 52 := by decide
  unfold Binary64.significand
  split
  · rename_i hhigh
    rw [hhigh, Nat.mul_zero, Nat.zero_add] at hsplit
    rw [hsplit]
    exact hmagnitude
  · exact Nat.ne_of_gt (Nat.add_pos_right _ hpos)

/-- Zero does not read back as a number that is not zero. -/
theorem contains_zero {x : Binary64} (h : x.isZero = false) : x.interval.contains 0 = false := by
  have hm := significand_ne_zero h
  have hscale (e n : Nat) : Nat.pow 2 e * Nat.pow 10 n ≠ 0 :=
    Nat.ne_of_gt (Nat.mul_pos (Nat.pow_pos (by decide)) (Nat.pow_pos (by decide)))
  have hlow : 0 < x.interval.low := by
    rw [Nat.pos_iff_ne_zero]
    simp only [Binary64.interval, ne_eq, Nat.mul_eq_zero, hscale, or_false]
    split <;> omega
  unfold Interval.contains
  split
  · simp [Nat.not_le.2 hlow]
  · simp

theorem onGrid?_ne_zero {i : Interval} (h : i.contains 0 = false) {tie : Tie} {step n : Nat}
    (hn : i.onGrid? tie step = some n) : n ≠ 0 := by
  have hbelow : i.contains (i.value / (step * i.den) * (step * i.den)) = true →
      i.value / (step * i.den) ≠ 0 := by
    intro hcontains hzero
    rw [hzero, Nat.zero_mul, h] at hcontains
    cases hcontains
  unfold Interval.onGrid? at hn
  simp only at hn
  split at hn
  · rename_i hboth
    have hne := hbelow (Bool.and_eq_true_iff.1 hboth).1
    obtain rfl := Option.some.inj hn
    split
    · exact Nat.succ_ne_zero _
    · exact hne
  · split at hn
    · rename_i hlow
      obtain rfl := Option.some.inj hn
      exact hbelow hlow
    · split at hn
      · obtain rfl := Option.some.inj hn
        exact Nat.succ_ne_zero _
      · cases hn

theorem search_ne_zero {i : Interval} (h : i.contains 0 = false) {tie : Tie} {length : Nat}
    {d : Decimal} {tries count : Nat} (hd : i.search tie length count tries = some d) :
    d.digits ≠ 0 := by
  induction tries generalizing count with
  | zero => cases hd
  | succ tries ih =>
    rw [Interval.search] at hd
    split at hd
    · rename_i digits hdigits
      obtain rfl := Option.some.inj hd
      exact onGrid?_ne_zero h hdigits
    · exact ih hd

theorem strip_eq_self {d : Decimal} {fuel : Nat} (h : (d.strip fuel).digits = 0) :
    d.strip fuel = d := by
  induction fuel generalizing d with
  | zero => rfl
  | succ fuel ih =>
    rw [Decimal.strip] at h ⊢
    split at h
    · rename_i hzero
      have hdigits : d.digits / 10 = 0 := by rw [ih h] at h; exact h
      omega
    · rename_i hzero
      rw [if_neg hzero]

/-- Zero is written as the digit zero, with no exponent to it. -/
theorem shortest_of_digits_eq_zero {x : Binary64} {tie : Tie}
    (h : (x.shortest tie).digits = 0) : x.shortest tie = ⟨0, 0⟩ := by
  unfold Binary64.shortest at h ⊢
  split at h
  · rename_i hzero
    rw [if_pos hzero]
  · rename_i hzero
    rw [if_neg hzero]
    simp only at h ⊢
    have hstrip := strip_eq_self h
    rw [hstrip] at h ⊢
    cases hsearch : x.interval.search tie
        (Nat.toDigits 10 (x.interval.value / x.interval.den)).length 1 17 with
    | none => rfl
    | some d =>
      rw [hsearch] at h
      exact absurd h (search_ne_zero (contains_zero (Bool.eq_false_iff.2 hzero)) hsearch)

/-! ### Numbers -/

/-- The parts of a floating point number's text by its digits and the exponent of the first. -/
def digitsSpelling (negative : Bool) (digits : List Char) (exponent : Int) : Spelling :=
  let place := exponent + 1
  if layout.positional exponent then
    if place ≤ 0 then ⟨negative, ['0'], zeros (-place).toNat ++ digits, none⟩
    else if digits.length ≤ place.toNat then
      ⟨negative, digits ++ zeros (place.toNat - digits.length), ['0'], none⟩
    else ⟨negative, digits.take place.toNat, digits.drop place.toNat, none⟩
  else
    ⟨negative, digits.take 1, digits.drop 1,
      some (exponent < 0, Nat.toDigits 10 exponent.natAbs)⟩

theorem withExponent_eq {digits : List Char} (h : digits ≠ []) (exponent : Int) :
    withExponent layout digits exponent = digits.take 1 ++ Spelling.fractionText (digits.drop 1) ++
      Spelling.exponentText (some (exponent < 0, Nat.toDigits 10 exponent.natAbs)) := by
  have hsign : (if exponent < 0 then "-" else layout.plusSign).toList =
      [if exponent < 0 then '-' else '+'] := by
    split <;> rfl
  have hexponent : Spelling.exponentText (some (exponent < 0, Nat.toDigits 10 exponent.natAbs)) =
      'e' :: (if exponent < 0 then '-' else '+') :: Nat.toDigits 10 exponent.natAbs := by
    simp [Spelling.exponentText]
  simp only [withExponent, hexponent, hsign]
  match digits, h with
  | [d], _ => rfl
  | d :: d' :: ds, _ => simp [layout, Spelling.fractionText]

theorem fractionText_of_ne_nil {ds : List Char} (h : ds ≠ []) :
    Spelling.fractionText ds = '.' :: ds := by
  cases ds with
  | nil => exact absurd rfl h
  | cons d ds => rfl

theorem body_digitsSpelling (negative : Bool) {digits : List Char} (h : digits ≠ [])
    (exponent : Int) :
    (digitsSpelling negative digits exponent).body =
      if layout.positional exponent then pointAfter layout.wholeEnding digits (exponent + 1)
      else withExponent layout digits exponent := by
  unfold digitsSpelling pointAfter
  simp only
  split
  · split
    · simp [Spelling.body, Spelling.exponentText, fractionText_of_ne_nil, h]
    · split
      · simp [Spelling.body, Spelling.exponentText, Spelling.fractionText, layout]
      · rename_i hlength
        have hrest : digits.drop (exponent + 1).toNat ≠ [] := fun hnil =>
          hlength (List.drop_eq_nil_iff.1 hnil)
        simp [Spelling.body, Spelling.exponentText, fractionText_of_ne_nil hrest]
  · rw [withExponent_eq h]
    rfl

theorem negative_digitsSpelling (negative : Bool) (digits : List Char) (exponent : Int) :
    (digitsSpelling negative digits exponent).negative = negative := by
  unfold digitsSpelling
  simp only
  split_ifs <;> rfl

/-- Digits that start with a zero only for the number zero give a valid numeral. -/
theorem valid_digitsSpelling (negative : Bool) {digits : List Char} {exponent : Int}
    (hdigits : AreDigits digits) (hne : digits ≠ [])
    (hzero : digits.head? = some '0' → digits = ['0'] ∧ exponent = 0) :
    (digitsSpelling negative digits exponent).Valid := by
  have hpart : ∀ ds, List.Sublist ds digits → AreDigits ds := fun ds hds c hc =>
    hdigits c (hds.subset hc)
  obtain ⟨d, ds, rfl⟩ := List.exists_cons_of_ne_nil hne
  unfold digitsSpelling
  simp only
  split
  · split
    · exact ⟨by simp [AreDigits], by simp, fun _ => rfl, (areDigits_zeros _).append hdigits, nofun⟩
    · rename_i hplace
      split
      · refine ⟨hdigits.append (areDigits_zeros _), by simp, fun hstart => ?_, by simp [AreDigits],
          nofun⟩
        obtain ⟨hds, rfl⟩ := hzero (by simpa using hstart)
        rw [hds]
        rfl
      · rename_i hlength
        obtain ⟨n, hn⟩ : ∃ n, (exponent + 1).toNat = n + 1 := ⟨(exponent + 1).toNat - 1, by omega⟩
        refine ⟨hpart _ (List.take_sublist _ _), by simp [hn], fun hstart => ?_,
          hpart _ (List.drop_sublist _ _), nofun⟩
        obtain ⟨hds, -⟩ := hzero (by simpa [hn] using hstart)
        simp [hds, hn]
  · refine ⟨hpart _ (List.take_sublist _ _), by simp, by simp, hpart _ (List.drop_sublist _ _), ?_⟩
    rintro e ⟨⟩
    exact ⟨areDigits_toDigits _, Nat.toDigits_ne_nil⟩

namespace Number

/-- The parts of a number's text. -/
def spelling : Number → Spelling
  | .integer n => ⟨n < 0, Nat.toDigits 10 n.natAbs, [], none⟩
  | .real x =>
    let d := x.shortest layout.tie
    let digits := Nat.toDigits 10 d.digits
    digitsSpelling x.isNegative digits (d.exponent + digits.length - 1)

/-- The numeral as which a number is written. -/
def numeral (n : Number) : Numeral := n.spelling.numeral

theorem text_spelling (n : Number) : n.spelling.text = n.text := by
  cases n with
  | integer n =>
    simp [spelling, text, integerText, Spelling.text, Spelling.body, Spelling.fractionText,
      Spelling.exponentText]
  | real x =>
    simp only [spelling, text, Layout.write, Spelling.text, negative_digitsSpelling,
      body_digitsSpelling _ Nat.toDigits_ne_nil]

theorem valid_spelling (n : Number) : n.spelling.Valid := by
  cases n with
  | integer n =>
    refine ⟨areDigits_toDigits _, Nat.toDigits_ne_nil, fun hzero => ?_, nofun, nofun⟩
    by_cases hn : n.natAbs = 0
    · simp [spelling, hn]
    · exact absurd hzero (head?_toDigits hn)
  | real x =>
    refine valid_digitsSpelling _ (areDigits_toDigits _) Nat.toDigits_ne_nil fun hstart => ?_
    have hzero : (x.shortest layout.tie).digits = 0 := by
      by_contra hpos
      exact head?_toDigits hpos hstart
    rw [shortest_of_digits_eq_zero hzero]
    exact ⟨rfl, rfl⟩

/-- Reading the text of a number takes the numeral of the number and nothing more. -/
theorem numeral?_text (n : Number) {rest : List Char} (hrest : EndsNumeral rest) :
    numeral? (n.text ++ rest) = some (n.numeral, rest) := by
  rw [← text_spelling]
  exact numeral?_append (valid_spelling n) hrest

/-- The integers that have a numeral as which they are read. -/
def InRange (n : Int) : Prop :=
  if n < 0 then 0 < n.natAbs ∧ n.natAbs ≤ Nat.pow 2 63 else n.natAbs ≤ maxSignificand

theorem inRange_of_value? {n : Int} {m : Numeral} (h : m.value? = some (.integer n)) :
    InRange n := by
  obtain ⟨negative, whole, fraction, exponent⟩ := m
  simp only [Numeral.value?] at h
  unfold InRange
  split_ifs at h
  · have hn := Number.integer.inj (Option.some.inj h)
    rw [if_pos (by omega)]
    omega
  · obtain ⟨x, -, hx⟩ := Option.map_eq_some_iff.1 h
    cases hx
  · have hn := Number.integer.inj (Option.some.inj h)
    rw [if_neg (by omega)]
    omega
  · obtain ⟨x, -, hx⟩ := Option.map_eq_some_iff.1 h
    cases hx

theorem value?_numeral_of_inRange {n : Int} (h : InRange n) :
    (integer n).numeral.value? = some (.integer n) := by
  have hwhole : digitsValue (integer n).numeral.whole = n.natAbs := digitsValue_toDigits _
  have hvalue : (if n < 0 then -(n.natAbs : Int) else n.natAbs) = n := by
    split <;> omega
  unfold Numeral.value?
  rw [hwhole]
  have hparts : (integer n).numeral = ⟨n < 0, (integer n).numeral.whole, [], none⟩ := rfl
  rw [hparts]
  simp only [decide_eq_true_eq, hvalue, true_and]
  rw [if_pos]
  unfold InRange at h
  by_cases hn : n < 0
  · simpa [hn] using h
  · simpa [hn] using h

/-- An integer that is the value of a numeral is the value of the one as which it is written. -/
theorem value?_numeral_integer {n : Int} {m : Numeral} (h : m.value? = some (.integer n)) :
    (integer n).numeral.value? = some (.integer n) :=
  value?_numeral_of_inRange (inRange_of_value? h)

end Number
end Rollout.Json

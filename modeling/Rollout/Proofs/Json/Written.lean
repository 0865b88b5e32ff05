import Mathlib.Data.List.DropRight
import Mathlib.Tactic.Common
import Rollout.Proofs.Json.Numeral
import Rollout.Proofs.Json.Quoted

/-!
# JSON values as they are written

Both printed forms of a value differ only in white space, and reading either gives the structure
of the value (`read?_pretty`, `read?_compact`), with each number as its numeral.
-/

namespace Rollout.Json

/-! ### The structure of a printed value -/

mutual

/-- The structure of a value's text. -/
def toSource : Json → Source
  | .null => .null
  | .bool b => .bool b
  | .number n => .number n.numeral
  | .text s => .text (some s)
  | .array items => .array (toSources items)
  | .object members => .object (toSourceMembers members)

def toSources : List Json → List Source
  | [] => []
  | item :: items => toSource item :: toSources items

def toSourceMembers : List (String × Json) → List (Option String × Source)
  | [] => []
  | (key, item) :: members => (some key, toSource item) :: toSourceMembers members

end

/-! ### White space -/

/-- The white space of a printed form: line ends by level, and the gap after a colon. -/
structure Style where
  lineEnd : Nat → List Char
  gap : List Char
  blank_lineEnd : ∀ level, ∀ c ∈ lineEnd level, isSpace c = true
  blank_gap : ∀ c ∈ gap, isSpace c = true

namespace Style

def pretty : Style where
  lineEnd := newline
  gap := [' ']
  blank_lineEnd level c hc := by
    rcases List.mem_cons.1 hc with rfl | hc
    · rfl
    · rw [List.eq_of_mem_replicate hc]
      rfl
  blank_gap c hc := by
    rw [List.mem_singleton.1 hc]
    rfl

def compact : Style where
  lineEnd _ := []
  gap := []
  blank_lineEnd _ := nofun
  blank_gap := nofun

mutual

/-- The text of a value in a style. -/
def chars (style : Style) (level : Nat) : Json → List Char
  | .null => ['n', 'u', 'l', 'l']
  | .bool true => ['t', 'r', 'u', 'e']
  | .bool false => ['f', 'a', 'l', 's', 'e']
  | .number n => n.text
  | .text s => quote s
  | .array [] => ['[', ']']
  | .array (item :: items) =>
    '[' :: (style.itemChars (level + 1) (item :: items) ++ style.lineEnd level ++ [']'])
  | .object [] => ['\x7b', '\x7d']
  | .object (m :: members) =>
    '\x7b' :: (style.memberChars (level + 1) (m :: members) ++ style.lineEnd level ++ ['\x7d'])

def itemChars (style : Style) (level : Nat) : List Json → List Char
  | [] => []
  | [item] => style.lineEnd level ++ style.chars level item
  | item :: items =>
    style.lineEnd level ++ style.chars level item ++ ',' :: style.itemChars level items

def memberChars (style : Style) (level : Nat) : List (String × Json) → List Char
  | [] => []
  | [(key, item)] =>
    style.lineEnd level ++ quote key ++ ':' :: (style.gap ++ style.chars level item)
  | (key, item) :: members =>
    style.lineEnd level ++ quote key ++
      ':' :: (style.gap ++ (style.chars level item ++ ',' :: style.memberChars level members))

end

mutual

theorem chars_pretty (level : Nat) : ∀ j, pretty.chars level j = prettyChars level j
  | .null => rfl
  | .bool true => rfl
  | .bool false => rfl
  | .number _ => rfl
  | .text _ => rfl
  | .array [] => rfl
  | .array (item :: items) => by
    rw [chars, prettyChars, itemChars_pretty (level + 1) (item :: items)]
    rfl
  | .object [] => rfl
  | .object (m :: members) => by
    rw [chars, prettyChars, memberChars_pretty (level + 1) (m :: members)]
    rfl

theorem itemChars_pretty (level : Nat) : ∀ items, pretty.itemChars level items = prettyItems level items
  | [] => rfl
  | [item] => by
    rw [itemChars, prettyItems, chars_pretty level item]
    rfl
  | item :: item' :: items => by
    rw [itemChars, prettyItems, chars_pretty level item, itemChars_pretty level (item' :: items)]
    · rfl
    · simp
    · simp

theorem memberChars_pretty (level : Nat) :
    ∀ members, pretty.memberChars level members = prettyMembers level members
  | [] => rfl
  | [(key, item)] => by
    rw [memberChars, prettyMembers, chars_pretty level item]
    rfl
  | (key, item) :: member :: members => by
    rw [memberChars, prettyMembers, chars_pretty level item,
      memberChars_pretty level (member :: members)]
    · rfl
    · simp
    · simp

end

mutual

theorem chars_compact (level : Nat) : ∀ j, compact.chars level j = compactChars j
  | .null => rfl
  | .bool true => rfl
  | .bool false => rfl
  | .number _ => rfl
  | .text _ => rfl
  | .array [] => rfl
  | .array (item :: items) => by
    rw [chars, compactChars, itemChars_compact (level + 1) (item :: items)]
    simp [compact]
  | .object [] => rfl
  | .object (m :: members) => by
    rw [chars, compactChars, memberChars_compact (level + 1) (m :: members)]
    simp [compact]

theorem itemChars_compact (level : Nat) : ∀ items, compact.itemChars level items = compactItems items
  | [] => rfl
  | [item] => by
    rw [itemChars, compactItems, chars_compact level item]
    rfl
  | item :: item' :: items => by
    rw [itemChars, compactItems, chars_compact level item, itemChars_compact level (item' :: items)]
    · rfl
    · simp
    · simp

theorem memberChars_compact (level : Nat) :
    ∀ members, compact.memberChars level members = compactMembers members
  | [] => rfl
  | [(key, item)] => by
    rw [memberChars, compactMembers, chars_compact level item]
    rfl
  | (key, item) :: member :: members => by
    rw [memberChars, compactMembers, chars_compact level item,
      memberChars_compact level (member :: members)]
    · rfl
    · simp
    · simp

end

end Style

/-! ### Reading -/

def Blank (cs : List Char) : Prop := ∀ c ∈ cs, isSpace c = true

theorem skipSpace_append {ws : List Char} (h : Blank ws) (cs : List Char) :
    skipSpace (ws ++ cs) = skipSpace cs :=
  List.dropWhile_append_of_pos h

theorem skipSpace_cons {c : Char} (h : isSpace c = false) (cs : List Char) :
    skipSpace (c :: cs) = c :: cs := by
  rw [skipSpace, List.dropWhile_cons_of_neg (by simp [h])]

theorem value?_blank {ws : List Char} (h : Blank ws) (fuel : Nat) (cs : List Char) :
    value? fuel (ws ++ cs) = value? fuel cs := by
  cases fuel with
  | zero => rw [value?, value?]
  | succ fuel => rw [value?, value?, skipSpace_append h]

theorem members?_blank {ws : List Char} (h : Blank ws) (fuel : Nat) (cs : List Char) :
    members? fuel (ws ++ cs) = members? fuel cs := by
  cases fuel with
  | zero => rw [members?, members?]
  | succ fuel => rw [members?, members?, skipSpace_append h]

/-- White space and what stands between values end a numeral. -/
theorem endsNumeral_cons {c : Char} (h : isSpace c = true ∨ c ∈ [',', ']', '\x7d'])
    (rest : List Char) : EndsNumeral (c :: rest) := by
  intro d hd
  obtain rfl : c = d := by simpa using hd
  rcases h with h | h
  · simp only [isSpace, Bool.or_eq_true, decide_eq_true_eq] at h
    obtain ((rfl | rfl) | rfl) | rfl := h <;> decide
  · simp only [List.mem_cons, List.not_mem_nil, or_false] at h
    obtain rfl | rfl | rfl := h <;> decide

theorem endsNumeral_blank {ws : List Char} (h : Blank ws) : EndsNumeral ws := by
  cases ws with
  | nil => exact nofun
  | cons w ws => exact endsNumeral_cons (.inl (h w List.mem_cons_self)) ws

theorem endsNumeral_closing {ws : List Char} (h : Blank ws) {c : Char} (hc : c ∈ [']', '\x7d'])
    (rest : List Char) : EndsNumeral (ws ++ c :: rest) := by
  cases ws with
  | nil => exact endsNumeral_cons (.inr (List.mem_cons_of_mem _ hc)) rest
  | cons w ws => exact endsNumeral_cons (.inl (h w List.mem_cons_self)) _

/-- What a numeral starts with. -/
abbrev StartsNumeral (c : Char) : Prop := c = '-' ∨ c.isDigit = true

theorem Number.text_cons (n : Number) : ∃ c cs, n.text = c :: cs ∧ StartsNumeral c := by
  have hvalid := n.valid_spelling
  obtain ⟨d, ds, hwhole⟩ := List.exists_cons_of_ne_nil hvalid.whole_ne
  rw [← n.text_spelling, Spelling.text, Spelling.body, hwhole]
  split
  · exact ⟨_, _, rfl, .inl rfl⟩
  · exact ⟨_, _, rfl, .inr (hvalid.whole d (hwhole ▸ List.mem_cons_self))⟩

theorem not_space_of_startsNumeral {c : Char} (h : StartsNumeral c) : isSpace c = false := by
  rcases h with rfl | h
  · rfl
  · by_contra hspace
    simp only [isSpace, Bool.not_eq_false, Bool.or_eq_true, decide_eq_true_eq] at hspace
    obtain ((rfl | rfl) | rfl) | rfl := hspace <;> cases h

/-- The text at the start of a numeral is read as a number. -/
theorem value?_numeral {c : Char} (h : StartsNumeral c) (fuel : Nat) (cs : List Char) :
    value? (fuel + 1) (c :: cs) = (numeral? (c :: cs)).map fun (n, rest) => (.number n, rest) := by
  have hne : ∀ d ∈ ['n', 't', 'f', '"', '[', '\x7b'], c ≠ d := by
    rintro d hd rfl
    simp only [List.mem_cons, List.not_mem_nil, or_false] at hd
    obtain rfl | rfl | rfl | rfl | rfl | rfl := hd <;> revert h <;> decide
  rw [value?, skipSpace_cons (not_space_of_startsNumeral h)]
  split
  all_goals first
    | rfl
    | rename_i heq
      exact absurd (List.cons.inj heq).1 (hne _ (by simp))

theorem value?_skipSpace (fuel : Nat) (cs : List Char) :
    value? fuel (skipSpace cs) = value? fuel cs := by
  cases fuel with
  | zero => rw [value?, value?]
  | succ fuel => rw [value?, value?, skipSpace, skipSpace, List.dropWhile_idempotent]

theorem value?_array {cs : List Char} (h : (skipSpace cs).head? ≠ some ']') (fuel : Nat) :
    value? (fuel + 1) ('[' :: cs) =
      (items? fuel cs).map fun (items, rest) => (.array items, rest) := by
  have hitems : items? fuel (skipSpace cs) = items? fuel cs := by
    cases fuel with
    | zero => rw [items?, items?]
    | succ fuel => rw [items?, items?, value?_skipSpace]
  rw [value?, skipSpace_cons rfl, ← hitems]
  simp only
  split
  · rename_i heq
    exact absurd (congrArg List.head? heq) h
  · rfl

theorem value?_object {cs : List Char} (h : (skipSpace cs).head? ≠ some '\x7d') (fuel : Nat) :
    value? (fuel + 1) ('\x7b' :: cs) =
      (members? fuel cs).map fun (members, rest) => (.object members, rest) := by
  have hmembers : members? fuel (skipSpace cs) = members? fuel cs := by
    cases fuel with
    | zero => rw [members?, members?]
    | succ fuel => rw [members?, members?, skipSpace, skipSpace, List.dropWhile_idempotent]
  rw [value?, skipSpace_cons rfl, ← hmembers]
  simp only
  split
  · rename_i heq
    exact absurd (congrArg List.head? heq) h
  · rfl

section Steps

variable {fuel : Nat} {cs ws rest after : List Char} {item : Source}

theorem items?_last (hws : Blank ws) (hitem : value? fuel cs = some (item, ws ++ ']' :: rest)) :
    items? (fuel + 1) cs = some ([item], rest) := by
  rw [items?, hitem]
  simp only [bind, Option.bind_some, skipSpace_append hws, skipSpace_cons (c := ']') rfl]
  rfl

theorem items?_more {items : List Source} (hitem : value? fuel cs = some (item, ',' :: rest))
    (hitems : items? fuel rest = some (items, after)) :
    items? (fuel + 1) cs = some (item :: items, after) := by
  rw [items?, hitem]
  simp only [bind, Option.bind_some, skipSpace_cons (c := ',') rfl, hitems]
  rfl

theorem members?_last (hws : Blank ws) (key : String)
    (hitem : value? fuel cs = some (item, ws ++ '\x7d' :: rest)) :
    members? (fuel + 1) (quote key ++ ':' :: cs) = some ([(some key, item)], rest) := by
  rw [quote, List.cons_append, List.append_assoc, List.singleton_append, members?,
    skipSpace_cons rfl]
  simp only [bind, Option.bind_some, quotedText?_quote, skipSpace_cons (c := ':') rfl, hitem,
    skipSpace_append hws, skipSpace_cons (c := '\x7d') rfl]
  rfl

theorem members?_more {members : List (Option String × Source)} (key : String)
    (hitem : value? fuel cs = some (item, ',' :: rest))
    (hmembers : members? fuel rest = some (members, after)) :
    members? (fuel + 1) (quote key ++ ':' :: cs) = some ((some key, item) :: members, after) := by
  rw [quote, List.cons_append, List.append_assoc, List.singleton_append, members?,
    skipSpace_cons rfl]
  simp only [bind, Option.bind_some, quotedText?_quote, skipSpace_cons (c := ':') rfl, hitem,
    skipSpace_cons (c := ',') rfl, hmembers]
  rfl

end Steps

/-- The start of a value is neither white space nor the end of an array. -/
theorem Style.chars_cons (style : Style) (level : Nat) (j : Json) :
    ∃ c cs, style.chars level j = c :: cs ∧ isSpace c = false ∧ c ≠ ']' := by
  match j with
  | .null => exact ⟨_, _, rfl, rfl, by decide⟩
  | .bool true => exact ⟨_, _, rfl, rfl, by decide⟩
  | .bool false => exact ⟨_, _, rfl, rfl, by decide⟩
  | .number n =>
    obtain ⟨c, cs, htext, hstart⟩ := n.text_cons
    refine ⟨c, cs, htext, not_space_of_startsNumeral hstart, ?_⟩
    rintro rfl
    rcases hstart with h | h <;> cases h
  | .text _ => exact ⟨_, _, rfl, rfl, by decide⟩
  | .array [] => exact ⟨_, _, rfl, rfl, by decide⟩
  | .array (_ :: _) => exact ⟨_, _, by rw [Style.chars], rfl, by decide⟩
  | .object [] => exact ⟨_, _, rfl, rfl, by decide⟩
  | .object (_ :: _) => exact ⟨_, _, by rw [Style.chars], rfl, by decide⟩

namespace Style

theorem itemChars_cons (style : Style) (level : Nat) (item item' : Json) (items : List Json) :
    style.itemChars level (item :: item' :: items) =
      style.lineEnd level ++ style.chars level item ++
        ',' :: style.itemChars level (item' :: items) := by
  rw [itemChars]
  simp

theorem memberChars_cons (style : Style) (level : Nat) (key : String) (item : Json)
    (m : String × Json) (members : List (String × Json)) :
    style.memberChars level ((key, item) :: m :: members) =
      style.lineEnd level ++ quote key ++
        ':' :: (style.gap ++
          (style.chars level item ++ ',' :: style.memberChars level (m :: members))) := by
  rw [memberChars]
  simp

theorem skipSpace_itemChars (style : Style) (level : Nat) (item : Json) (items : List Json)
    (cs : List Char) :
    (skipSpace (style.itemChars level (item :: items) ++ cs)).head? ≠ some ']' := by
  obtain ⟨c, text, htext, hspace, hc⟩ := style.chars_cons level item
  have hblank : Blank (style.lineEnd level) := style.blank_lineEnd level
  cases items with
  | nil =>
    rw [itemChars, List.append_assoc, skipSpace_append hblank, htext, List.cons_append,
      skipSpace_cons hspace]
    simpa using hc
  | cons item' items =>
    rw [itemChars_cons, List.append_assoc, List.append_assoc, skipSpace_append hblank, htext,
      List.cons_append, skipSpace_cons hspace]
    simpa using hc

theorem skipSpace_memberChars (style : Style) (level : Nat) (m : String × Json)
    (members : List (String × Json)) (cs : List Char) :
    (skipSpace (style.memberChars level (m :: members) ++ cs)).head? ≠ some '\x7d' := by
  obtain ⟨key, item⟩ := m
  have hblank : Blank (style.lineEnd level) := style.blank_lineEnd level
  cases members with
  | nil =>
    rw [memberChars, List.append_assoc, List.append_assoc, skipSpace_append hblank, quote,
      List.cons_append, skipSpace_cons rfl]
    simp
  | cons m members =>
    rw [memberChars_cons, List.append_assoc, List.append_assoc, skipSpace_append hblank, quote,
      List.cons_append, skipSpace_cons rfl]
    simp

mutual

/-- A value is read up to the end of its text. The fuel counts the characters, of which each
step takes at least one. -/
theorem value?_chars (style : Style) (level fuel : Nat) {rest : List Char} :
    ∀ j, (style.chars level j).length ≤ fuel → EndsNumeral rest →
      value? (fuel + 1) (style.chars level j ++ rest) = some (j.toSource, rest)
  | .null, _, _ => rfl
  | .bool true, _, _ => rfl
  | .bool false, _, _ => rfl
  | .number n, _, hrest => by
    obtain ⟨c, cs, htext, hstart⟩ := n.text_cons
    have hnumeral := n.numeral?_text hrest
    rw [chars, htext] at *
    rw [List.cons_append] at hnumeral ⊢
    rw [value?_numeral hstart, hnumeral]
    rfl
  | .text s, _, _ => by
    rw [chars, quote, List.cons_append, List.append_assoc, value?, skipSpace_cons rfl]
    simp only [List.singleton_append, quotedText?_quote]
    rfl
  | .array [], _, _ => rfl
  | .array (item :: items), h, _ => by
    rw [chars] at h
    simp only [List.length_cons, List.length_append] at h
    obtain ⟨fuel, rfl⟩ := Nat.exists_eq_add_one_of_ne_zero (Nat.ne_zero_of_lt h)
    have hitems : items? (fuel + 1) (style.itemChars (level + 1) (item :: items) ++
        (style.lineEnd level ++ ']' :: rest)) = some (toSources (item :: items), rest) :=
      items?_itemChars style (level + 1) (style.blank_lineEnd level) _ nofun (by omega)
    rw [chars, List.cons_append, List.append_assoc, List.append_assoc, List.singleton_append,
      value?_array (style.skipSpace_itemChars _ _ _ _), hitems]
    rfl
  | .object [], _, _ => rfl
  | .object (m :: members), h, _ => by
    rw [chars] at h
    simp only [List.length_cons, List.length_append] at h
    obtain ⟨fuel, rfl⟩ := Nat.exists_eq_add_one_of_ne_zero (Nat.ne_zero_of_lt h)
    have hmembers : members? (fuel + 1) (style.memberChars (level + 1) (m :: members) ++
        (style.lineEnd level ++ '\x7d' :: rest)) = some (toSourceMembers (m :: members), rest) :=
      members?_memberChars style (level + 1) (style.blank_lineEnd level) _ nofun (by omega)
    rw [chars, List.cons_append, List.append_assoc, List.append_assoc, List.singleton_append,
      value?_object (style.skipSpace_memberChars _ _ _ _), hmembers]
    rfl

theorem items?_itemChars (style : Style) (level : Nat) {fuel : Nat} {ws rest : List Char}
    (hws : Blank ws) :
    ∀ items, items ≠ [] → (style.itemChars level items).length < fuel →
      items? (fuel + 1) (style.itemChars level items ++ (ws ++ ']' :: rest)) =
        some (toSources items, rest)
  | [], hne, _ => absurd rfl hne
  | [item], _, h => by
    obtain ⟨fuel, rfl⟩ := Nat.exists_eq_add_one_of_ne_zero (Nat.ne_zero_of_lt h)
    simp only [itemChars, List.length_append] at h
    have hitem := value?_chars style level fuel item (by omega)
      (endsNumeral_closing hws (c := ']') (by simp) rest)
    refine items?_last hws ?_
    rw [itemChars, List.append_assoc, value?_blank (style.blank_lineEnd level), hitem]
  | item :: item' :: items, _, h => by
    obtain ⟨fuel, rfl⟩ := Nat.exists_eq_add_one_of_ne_zero (Nat.ne_zero_of_lt h)
    simp only [itemChars_cons, List.length_append, List.length_cons] at h
    have hitem := fun rest => value?_chars style level fuel item (by omega)
      (endsNumeral_cons (c := ',') (.inr (by simp)) rest)
    have hitems : items? (fuel + 1) (style.itemChars level (item' :: items) ++ (ws ++ ']' :: rest)) =
        some (toSources (item' :: items), rest) :=
      items?_itemChars style level hws _ nofun (by omega)
    refine items?_more ?_ hitems
    rw [itemChars_cons, List.append_assoc, List.append_assoc,
      value?_blank (style.blank_lineEnd level), List.cons_append]
    exact hitem _

theorem members?_memberChars (style : Style) (level : Nat) {fuel : Nat} {ws rest : List Char}
    (hws : Blank ws) :
    ∀ members, members ≠ [] → (style.memberChars level members).length < fuel →
      members? (fuel + 1) (style.memberChars level members ++ (ws ++ '\x7d' :: rest)) =
        some (toSourceMembers members, rest)
  | [], hne, _ => absurd rfl hne
  | [(key, item)], _, h => by
    obtain ⟨fuel, rfl⟩ := Nat.exists_eq_add_one_of_ne_zero (Nat.ne_zero_of_lt h)
    simp only [memberChars, List.length_append, List.length_cons] at h
    have hitem := value?_chars style level fuel item (by omega)
      (endsNumeral_closing hws (c := '\x7d') (by simp) rest)
    rw [memberChars, List.append_assoc, List.append_assoc, List.cons_append, List.append_assoc,
      members?_blank (style.blank_lineEnd level)]
    refine members?_last hws key ?_
    rw [value?_blank style.blank_gap, hitem]
  | (key, item) :: m :: members, _, h => by
    obtain ⟨fuel, rfl⟩ := Nat.exists_eq_add_one_of_ne_zero (Nat.ne_zero_of_lt h)
    simp only [memberChars_cons, List.length_append, List.length_cons] at h
    have hitem := fun rest => value?_chars style level fuel item (by omega)
      (endsNumeral_cons (c := ',') (.inr (by simp)) rest)
    have hmembers : members? (fuel + 1) (style.memberChars level (m :: members) ++
        (ws ++ '\x7d' :: rest)) = some (toSourceMembers (m :: members), rest) :=
      members?_memberChars style level hws _ nofun (by omega)
    rw [memberChars_cons, List.append_assoc, List.append_assoc, List.cons_append,
      List.append_assoc, List.append_assoc, members?_blank (style.blank_lineEnd level)]
    refine members?_more key ?_ hmembers
    rw [value?_blank style.blank_gap, List.cons_append]
    exact hitem _

end

/-- A text in some style is read as the structure of its value. -/
theorem read?_chars (style : Style) (j : Json) {ws : List Char} (hws : Blank ws) :
    Source.read? (String.ofList (style.chars 0 j ++ ws)) = some j.toSource := by
  have hvalue : value? ((style.chars 0 j ++ ws).length + 1) (style.chars 0 j ++ ws) =
      some (j.toSource, ws) :=
    style.value?_chars 0 _ j (by rw [List.length_append]; omega) (endsNumeral_blank hws)
  have hrest : skipSpace ws = [] := List.dropWhile_eq_nil_iff.2 hws
  simp only [Source.read?, String.toList_ofList, hvalue, hrest, if_pos]

end Style

theorem read?_pretty (j : Json) : Source.read? (j.pretty ++ "\n") = some j.toSource := by
  have htext : j.pretty ++ "\n" = String.ofList (Style.pretty.chars 0 j ++ ['\n']) := by
    rw [Style.chars_pretty, pretty, String.ofList_append]
  rw [htext]
  exact Style.pretty.read?_chars j fun c hc => by rw [List.mem_singleton.1 hc]; rfl

theorem read?_compact (j : Json) : Source.read? j.compact = some j.toSource := by
  have htext : j.compact = String.ofList (Style.compact.chars 0 j ++ []) := by
    rw [Style.chars_compact, List.append_nil, compact]
  rw [htext]
  exact Style.compact.read?_chars j nofun

end Rollout.Json

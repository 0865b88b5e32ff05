import Mathlib.Tactic.Common
import Rollout.Toml.Reader

/-!
# What readers leave

A reader of a part of a document takes a text and leaves the rest behind the part. Every reader
here leaves an end of the text that it was given, so that the place of a part in a document is
told by what follows it.
-/

namespace Rollout.Toml

variable {α β : Type} {cs rest : List Char}

/-- What the reader leaves is an end of the text. -/
def Leaves (read : List Char → Option (α × List Char)) : Prop :=
  ∀ ⦃cs : List Char⦄ ⦃v : α⦄ ⦃rest : List Char⦄, read cs = some (v, rest) → rest <:+ cs

theorem Leaves.map {read : List Char → Option (α × List Char)} (h : Leaves read) (f : α → β)
    {v : β} (hread : (read cs).map (fun (v, rest) => (f v, rest)) = some (v, rest)) :
    rest <:+ cs := by
  obtain ⟨⟨u, left⟩, hu, heq⟩ := Option.map_eq_some_iff.1 hread
  cases heq
  exact h hu

theorem suffix_of_cons {c : Char} (h : rest <:+ cs) : rest <:+ c :: cs :=
  h.trans (List.suffix_cons c cs)

/-- What follows a separator behind a part. -/
theorem suffix_of_eq_cons {left after : List Char} {c : Char} (hleft : left <:+ cs)
    (h : left = c :: after) : after <:+ cs := by
  rw [h] at hleft
  exact (List.suffix_cons c after).trans hleft

/-! ### Blanks and line ends -/

theorem skipBlanks_suffix (cs : List Char) : skipBlanks cs <:+ cs := List.dropWhile_suffix _

theorem lineEnd?_suffix (h : lineEnd? cs = some rest) : rest <:+ cs := by
  unfold lineEnd? at h
  split at h
  all_goals cases h
  · exact List.suffix_cons _ _
  · exact ⟨['\r', '\n'], rfl⟩

theorem skipComment_suffix (cs : List Char) : skipComment cs <:+ cs := by
  unfold skipComment
  split
  · exact suffix_of_cons (List.dropWhile_suffix _)
  · exact List.suffix_refl _

theorem skipTrivia_suffix (fuel : Nat) (cs : List Char) : skipTrivia fuel cs <:+ cs := by
  induction fuel generalizing cs with
  | zero => exact List.suffix_refl _
  | succ fuel ih =>
    rw [skipTrivia]
    split
    · rename_i after hend
      exact (ih after).trans ((lineEnd?_suffix hend).trans
        ((skipComment_suffix _).trans (skipBlanks_suffix cs)))
    · exact skipBlanks_suffix cs

theorem endOfLine?_suffix (h : endOfLine? cs = some rest) : rest <:+ cs := by
  unfold endOfLine? at h
  split at h
  · cases h
    exact List.nil_suffix
  · exact (lineEnd?_suffix h).trans ((skipComment_suffix _).trans (skipBlanks_suffix cs))

/-! ### Texts -/

theorem coded?_leaves (width : Nat) : Leaves (coded? width) := by
  intro cs v rest h
  simp only [coded?, bind, pure] at h
  split at h
  · cases h
  · simp only [Option.bind_eq_some_iff, Option.some.injEq, Prod.mk.injEq] at h
    obtain ⟨-, -, -, -, -, rfl⟩ := h
    exact List.drop_suffix _ _

theorem escape?_leaves : Leaves escape? := by
  intro cs v rest h
  unfold escape? at h
  split at h
  · cases h
  · exact suffix_of_cons (coded?_leaves 4 h)
  · exact suffix_of_cons (coded?_leaves 8 h)
  · cases h
  · obtain ⟨e, -, heq⟩ := Option.map_eq_some_iff.1 h
    cases heq
    exact List.suffix_cons _ _

theorem basicLine?_leaves (fuel : Nat) : Leaves (basicLine? fuel) := by
  induction fuel with
  | zero => intro cs v rest h; cases h
  | succ fuel ih =>
    intro cs v rest h
    cases cs with
    | nil => cases h
    | cons c cs =>
      rw [basicLine?] at h
      split_ifs at h
      · cases h
        exact List.suffix_cons _ _
      · simp only [bind, pure, Option.bind_eq_some_iff, Option.some.injEq, Prod.mk.injEq] at h
        obtain ⟨⟨e, after⟩, hescape, ⟨text, left⟩, hline, -, rfl⟩ := h
        exact suffix_of_cons ((ih hline).trans (escape?_leaves hescape))
      · exact suffix_of_cons (ih.map (c :: ·) h)

theorem literalLine?_leaves : Leaves literalLine? := by
  intro cs
  induction cs with
  | nil => intro v rest h; cases h
  | cons c cs ih =>
    intro v rest h
    rw [literalLine?] at h
    split_ifs at h
    · cases h
      exact List.suffix_cons _ _
    · obtain ⟨⟨text, left⟩, hline, heq⟩ := Option.map_eq_some_iff.1 h
      cases heq
      exact suffix_of_cons (ih hline)

theorem skipSpace_suffix (fuel : Nat) (cs : List Char) : skipSpace fuel cs <:+ cs := by
  induction fuel generalizing cs with
  | zero => exact List.suffix_refl _
  | succ fuel ih =>
    rw [skipSpace]
    split
    · rename_i after hend
      exact (ih after).trans ((lineEnd?_suffix hend).trans (skipBlanks_suffix cs))
    · exact skipBlanks_suffix cs

theorem block?_leaves (quote : Char) (escapes : Bool) (fuel : Nat) :
    Leaves (block? quote escapes fuel) := by
  induction fuel with
  | zero => intro cs v rest h; cases h
  | succ fuel ih =>
    intro cs v rest h
    cases cs with
    | nil => cases h
    | cons c cs =>
      rw [block?] at h
      split at h
      · cases h
        exact List.drop_suffix _ _
      split at h
      · split at h
        · rename_i after hend
          exact suffix_of_cons ((ih h).trans ((skipSpace_suffix _ _).trans
            ((lineEnd?_suffix hend).trans (skipBlanks_suffix cs))))
        · simp only [bind, pure, Option.bind_eq_some_iff, Option.some.injEq, Prod.mk.injEq] at h
          obtain ⟨⟨e, after⟩, hescape, ⟨text, left⟩, hblock, -, rfl⟩ := h
          exact suffix_of_cons ((ih hblock).trans (escape?_leaves hescape))
      · split at h
        · rename_i after hend
          exact (ih.map ('\n' :: ·) h).trans (lineEnd?_suffix hend)
        · split_ifs at h
          exact suffix_of_cons (ih.map (c :: ·) h)

theorem dropLineEnd_suffix (cs : List Char) : dropLineEnd cs <:+ cs := by
  unfold dropLineEnd
  cases hend : lineEnd? cs with
  | none => exact List.suffix_refl _
  | some rest => exact lineEnd?_suffix hend

theorem quoted?_leaves (single : Bool) : Leaves (quoted? single) := by
  intro cs v rest h
  cases cs with
  | nil => cases h
  | cons c cs =>
    have hblock : dropLineEnd ((c :: cs).drop 3) <:+ c :: cs :=
      (dropLineEnd_suffix _).trans (List.drop_suffix _ _)
    simp only [quoted?, bind, pure] at h
    split_ifs at h
    all_goals
      simp only [Option.bind_eq_some_iff, Option.some.injEq, Prod.mk.injEq, reduceCtorEq,
        false_and, exists_false] at h
    all_goals obtain ⟨⟨text, left⟩, hread, -, rfl⟩ := h
    · exact (block?_leaves c true _ hread).trans hblock
    · exact suffix_of_cons (basicLine?_leaves _ hread)
    · exact (block?_leaves c false _ hread).trans hblock
    · exact suffix_of_cons (literalLine?_leaves hread)

/-! ### Numbers, dates and times -/

theorem digitsTo_suffix (base : Nat) (cs : List Char) : (digitsTo base cs).2 <:+ cs := by
  fun_induction digitsTo base cs <;> simp_all [suffix_of_cons]

theorem digits?_leaves : Leaves digits? := by
  intro cs v rest h
  have hdigits := digitsTo_suffix 10 cs
  unfold digits? at h
  split at h
  · cases h
  · rwa [Option.some.inj h] at hdigits

theorem sign_suffix (cs : List Char) : (sign cs).2 <:+ cs := by
  unfold sign
  split
  · exact List.suffix_cons _ _
  · exact List.suffix_cons _ _
  · exact List.suffix_refl _

theorem whole?_leaves : Leaves whole? := by
  intro cs v rest h
  unfold whole? at h
  split at h
  · cases h
    exact List.suffix_cons _ _
  · exact digits?_leaves h

theorem fraction?_leaves : Leaves fraction? := by
  intro cs v rest h
  unfold fraction? at h
  split at h
  · exact suffix_of_cons (digits?_leaves h)
  · cases h
    exact List.suffix_refl _

theorem exponent?_leaves : Leaves exponent? := by
  intro cs v rest h
  unfold exponent? at h
  split at h
  · split_ifs at h
    · simp only [bind, pure, Option.bind_eq_some_iff, Option.some.injEq, Prod.mk.injEq] at h
      obtain ⟨⟨ds, left⟩, hdigits, -, rfl⟩ := h
      exact suffix_of_cons ((digits?_leaves hdigits).trans (sign_suffix _))
    · cases h
      exact List.suffix_refl _
  · cases h
    exact List.suffix_refl _

theorem decimal?_suffix (h : decimal? cs = some rest) : rest <:+ cs := by
  simp only [decimal?, bind, pure, Option.bind_eq_some_iff] at h
  obtain ⟨⟨ds, afterWhole⟩, hwhole, ⟨fraction, afterFraction⟩, hfraction, ⟨exponent, left⟩,
    hexponent, h⟩ := h
  split_ifs at h
  all_goals
    cases h
    exact (exponent?_leaves hexponent).trans ((fraction?_leaves hfraction).trans
      ((whole?_leaves hwhole).trans (sign_suffix cs)))

theorem based?_suffix {base : Nat} (h : based? base cs = some rest) : rest <:+ cs := by
  simp only [based?] at h
  split_ifs at h
  cases h
  exact digitsTo_suffix base cs

theorem wordNumber?_suffix (h : wordNumber? cs = some rest) : rest <:+ cs := by
  have hsign := sign_suffix cs
  unfold wordNumber? at h
  split at h
  · rename_i heq
    cases h
    rw [heq] at hsign
    exact (List.suffix_append ['i', 'n', 'f'] _).trans hsign
  · rename_i heq
    cases h
    rw [heq] at hsign
    exact (List.suffix_append ['n', 'a', 'n'] _).trans hsign
  · cases h

theorem number?_suffix (h : number? cs = some rest) : rest <:+ cs := by
  unfold number? at h
  split at h
  · exact suffix_of_cons (suffix_of_cons (based?_suffix h))
  · exact suffix_of_cons (suffix_of_cons (based?_suffix h))
  · exact suffix_of_cons (suffix_of_cons (based?_suffix h))
  · rcases Option.or_eq_some_iff.1 h with h | ⟨-, h⟩
    · exact wordNumber?_suffix h
    · exact decimal?_suffix h

theorem field?_leaves (width low high : Nat) : Leaves (field? width low high) := by
  intro cs v rest h
  simp only [field?] at h
  split_ifs at h
  cases h
  exact List.drop_suffix _ _

theorem after?_suffix {c : Char} (h : after? c cs = some rest) : rest <:+ cs := by
  cases cs with
  | nil => cases h
  | cons d cs =>
    rw [after?] at h
    split_ifs at h
    cases h
    exact List.suffix_cons _ _

theorem date?_leaves : Leaves date? := by
  intro cs v rest h
  simp only [date?, bind, pure, Option.bind_eq_some_iff, Option.some.injEq, Prod.mk.injEq] at h
  obtain ⟨⟨year, _⟩, hyear, _, hdash, ⟨month, _⟩, hmonth, _, hdash', ⟨day, _⟩, hday, -, rfl⟩ := h
  exact (field?_leaves _ _ _ hday).trans ((after?_suffix hdash').trans
    ((field?_leaves _ _ _ hmonth).trans ((after?_suffix hdash).trans (field?_leaves _ _ _ hyear))))

theorem time?_leaves : Leaves time? := by
  intro cs v rest h
  simp only [time?, bind, pure, Option.bind_eq_some_iff] at h
  obtain ⟨⟨hour, _⟩, hhour, _, hcolon, ⟨minute, _⟩, hminute, _, hcolon', ⟨second, left⟩, hsecond,
    h⟩ := h
  have hleft : left <:+ cs := (field?_leaves _ _ _ hsecond).trans ((after?_suffix hcolon').trans
    ((field?_leaves _ _ _ hminute).trans ((after?_suffix hcolon).trans
      (field?_leaves _ _ _ hhour))))
  refine List.IsSuffix.trans ?_ hleft
  split at h
  · rename_i heq
    split_ifs at h
    all_goals cases h
    · exact (List.dropWhile_suffix _).trans (suffix_of_eq_cons (List.suffix_refl left) heq)
    · exact List.suffix_refl _
  · cases h
    exact List.suffix_refl _

theorem getD_suffix {found : Option (α × List Char)} {v : α}
    (h : ∀ u left, found = some (u, left) → left <:+ cs) : (found.getD (v, cs)).2 <:+ cs := by
  cases hfound : found with
  | none => exact List.suffix_refl _
  | some e => exact h e.1 e.2 hfound

theorem offset_suffix (cs : List Char) : (offset cs).2 <:+ cs := by
  simp only [offset]
  split
  · exact List.suffix_cons _ _
  · exact List.suffix_cons _ _
  · refine getD_suffix fun v rest h => ?_
    split at h
    case h_3 => cases h
    all_goals
      simp only [bind, pure, Option.bind_eq_some_iff, Option.some.injEq] at h
      obtain ⟨_, rfl, ⟨hour, _⟩, hhour, _, hcolon, ⟨minute, _⟩, hminute, heq⟩ := h
      cases heq
      exact suffix_of_cons ((field?_leaves _ _ _ hminute).trans
        ((after?_suffix hcolon).trans (field?_leaves _ _ _ hhour)))

theorem moment?_leaves : Leaves moment? := by
  intro cs v rest h
  unfold moment? at h
  split at h
  · obtain ⟨⟨clock, left⟩, htime, heq⟩ := Option.map_eq_some_iff.1 h
    cases heq
    exact time?_leaves htime
  · rename_i day left hdate
    refine List.IsSuffix.trans ?_ (date?_leaves hdate)
    simp only at h
    split at h
    · cases h
      exact List.suffix_refl _
    · rename_i clock after hclock
      cases h
      refine (offset_suffix after).trans ?_
      split at hclock
      · split_ifs at hclock
        exact suffix_of_cons (time?_leaves hclock)
      · cases hclock

/-! ### Keys and values -/

theorem keyPart?_leaves : Leaves keyPart? := by
  intro cs v rest h
  unfold keyPart? at h
  split at h
  · cases h
  · split_ifs at h
    · exact quoted?_leaves true h
    · cases h
      exact List.dropWhile_suffix _

theorem keyParts?_leaves (fuel : Nat) : Leaves (keyParts? fuel) := by
  induction fuel with
  | zero => intro cs v rest h; cases h
  | succ fuel ih =>
    intro cs v rest h
    simp only [keyParts?, bind, pure, Option.bind_eq_some_iff] at h
    obtain ⟨⟨part, left⟩, hpart, h⟩ := h
    have hleft : skipBlanks left <:+ cs :=
      (skipBlanks_suffix left).trans ((keyPart?_leaves hpart).trans (skipBlanks_suffix cs))
    split at h
    · rename_i after hafter
      simp only [Option.bind_eq_some_iff, Option.some.injEq, Prod.mk.injEq] at h
      obtain ⟨⟨parts, _⟩, hparts, -, rfl⟩ := h
      rw [hafter] at hleft
      exact (ih hparts).trans ((List.suffix_cons _ _).trans hleft)
    · cases h
      exact hleft

theorem key?_leaves : Leaves key? := by
  intro cs v rest h
  simp only [key?, bind, pure, Option.bind_eq_some_iff] at h
  obtain ⟨⟨parts, left⟩, hparts, last, -, h⟩ := h
  split_ifs at h
  cases h
  exact keyParts?_leaves _ hparts

theorem scalar?_leaves : Leaves scalar? := by
  intro cs v rest h
  unfold scalar? at h
  split at h
  · cases h
    exact List.suffix_append ['t', 'r', 'u', 'e'] _
  · cases h
    exact List.suffix_append ['f', 'a', 'l', 's', 'e'] _
  · cases h
  · split_ifs at h
    · exact (quoted?_leaves false).map Item.text h
    · split at h
      · rename_i hmoment
        cases h
        exact moment?_leaves hmoment
      · obtain ⟨left, hnumber, heq⟩ := Option.map_eq_some_iff.1 h
        cases heq
        exact number?_suffix hnumber

/-- A value is an array, an inline table, which may be empty, or a scalar. -/
theorem value?_eq_some {fuel room : Nat} {item : Item}
    (h : value? (fuel + 1) room cs = some (item, rest)) :
    (∃ after room' items, cs = '[' :: after ∧ room = room' + 1 ∧
      items? fuel room' after = some (items, rest) ∧ item = .array items) ∨
    (∃ after room', cs = '{' :: after ∧ room = room' + 1 ∧
      skipBlanks after = '}' :: rest ∧ item = .table .inline []) ∨
    (∃ after room' pairs entries, cs = '{' :: after ∧ room = room' + 1 ∧
      pairs? fuel room' (skipBlanks after) = some (pairs, rest) ∧
      Entries.addPairs pairs [] = some entries ∧ item = .table .inline entries) ∨
    (cs.head? ≠ some '{' ∧ scalar? cs = some (item, rest)) := by
  rw [value?.eq_def] at h
  simp only [bind, pure] at h
  split at h
  · rename_i after
    split at h
    · cases h
    · rename_i room'
      obtain ⟨⟨items, _⟩, hitems, heq⟩ := Option.map_eq_some_iff.1 h
      cases heq
      exact .inl ⟨after, room', items, rfl, rfl, hitems, rfl⟩
  · rename_i after
    split at h
    · cases h
    · rename_i hroom hend
      cases h
      obtain ⟨room', rfl⟩ := Nat.exists_eq_succ_of_ne_zero hroom
      exact .inr (.inl ⟨after, room', rfl, rfl, hend, rfl⟩)
    · simp only [Option.bind_eq_some_iff, Option.some.injEq, Prod.mk.injEq] at h
      obtain ⟨⟨pairs, _⟩, hpairs, entries, hentries, rfl, rfl⟩ := h
      exact .inr (.inr (.inl ⟨after, _, pairs, entries, rfl, rfl, hpairs, hentries, rfl⟩))
  · rename_i hbrace
    refine .inr (.inr (.inr ⟨fun hhead => ?_, h⟩))
    obtain ⟨after, rfl⟩ := List.head?_eq_some_iff.1 hhead
    exact hbrace after rfl

/-- Pairs begin with a key and its value; a comma leads to the others. -/
theorem pairs?_eq_some {fuel room : Nat} {pairs : List Pair}
    (h : pairs? (fuel + 1) room cs = some (pairs, rest)) :
    ∃ path key after value left, key? cs = some ((path, key), '=' :: after) ∧
      value? fuel room (skipBlanks after) = some (value, left) ∧
      ((∃ next more, skipBlanks left = ',' :: next ∧ pairs? fuel room next = some (more, rest) ∧
        pairs = ⟨path, key, value⟩ :: more) ∨
      skipBlanks left = '}' :: rest ∧ pairs = [⟨path, key, value⟩]) := by
  simp only [pairs?, bind, pure, Option.bind_eq_some_iff] at h
  obtain ⟨⟨⟨path, key⟩, afterKey⟩, hkey, h⟩ := h
  split at h
  · rename_i after heq
    obtain rfl : afterKey = '=' :: after := heq
    obtain ⟨⟨value, left⟩, hvalue, h⟩ := Option.bind_eq_some_iff.1 h
    refine ⟨path, key, after, value, left, hkey, hvalue, ?_⟩
    split at h
    · rename_i next heq
      obtain ⟨⟨more, _⟩, hmore, h⟩ := Option.bind_eq_some_iff.1 h
      cases h
      exact .inl ⟨next, more, heq, hmore, rfl⟩
    · rename_i heq
      cases h
      exact .inr ⟨heq, rfl⟩
    · cases h
  · cases h

/-- Values, items and pairs, one level of fuel after the other. -/
theorem nested_leave (fuel room : Nat) :
    Leaves (value? fuel room) ∧ Leaves (items? fuel room) ∧ Leaves (pairs? fuel room) := by
  induction fuel generalizing room with
  | zero =>
    refine ⟨?_, ?_, ?_⟩
    all_goals
      intro cs v rest h
      cases h
  | succ fuel ih =>
    refine ⟨fun cs v rest h => ?_, fun cs v rest h => ?_, fun cs v rest h => ?_⟩
    · rcases value?_eq_some h with ⟨after, room', items, rfl, rfl, hitems, -⟩ |
        ⟨after, room', rfl, -, hend, -⟩ | ⟨after, room', pairs, entries, rfl, rfl, hpairs, -⟩ |
        ⟨-, hscalar⟩
      · exact suffix_of_cons ((ih room').2.1 hitems)
      · exact suffix_of_cons (suffix_of_eq_cons (skipBlanks_suffix after) hend)
      · exact suffix_of_cons (((ih room').2.2 hpairs).trans (skipBlanks_suffix after))
      · exact scalar?_leaves hscalar
    · rw [items?] at h
      have hstart := skipTrivia_suffix cs.length cs
      split at h
      · rename_i heq
        cases h
        exact suffix_of_eq_cons hstart heq
      · simp only [bind, pure, Option.bind_eq_some_iff] at h
        obtain ⟨⟨item, left⟩, hitem, h⟩ := h
        have hleft := (skipTrivia_suffix left.length left).trans
          (((ih room).1 hitem).trans hstart)
        split at h
        · rename_i heq
          simp only [Option.bind_eq_some_iff, Option.some.injEq, Prod.mk.injEq] at h
          obtain ⟨⟨items, _⟩, hitems, -, rfl⟩ := h
          exact ((ih room).2.1 hitems).trans (suffix_of_eq_cons hleft heq)
        · rename_i heq
          cases h
          exact suffix_of_eq_cons hleft heq
        · cases h
    · obtain ⟨path, key, after, value, left, hkey, hvalue, h⟩ := pairs?_eq_some h
      have hafter : after <:+ cs := (List.suffix_cons _ _).trans (key?_leaves hkey)
      have hleft : skipBlanks left <:+ cs := (skipBlanks_suffix left).trans
        (((ih room).1 hvalue).trans ((skipBlanks_suffix after).trans hafter))
      rcases h with ⟨next, more, hnext, hmore, -⟩ | ⟨hend, -⟩
      · exact ((ih room).2.2 hmore).trans (suffix_of_eq_cons hleft hnext)
      · exact suffix_of_eq_cons hleft hend

theorem value?_leaves (fuel room : Nat) : Leaves (value? fuel room) := (nested_leave fuel room).1

/-! ### Statements -/

/-- A header is a key in brackets on a line of its own. -/
theorem header?_eq_some {isElement : Bool} {h : Header}
    (hread : header? isElement cs = some (h, rest)) :
    ∃ after left, key? cs = some ((h.path, h.key), after) ∧ left <:+ after ∧
      endOfLine? left = some rest ∧ h.isElement = isElement := by
  simp only [header?, bind, pure, Option.bind_eq_some_iff] at hread
  obtain ⟨⟨⟨path, key⟩, after⟩, hkey, hread⟩ := hread
  split at hread
  case h_3 => cases hread
  all_goals
    rename_i heq
    simp only [Option.bind_some, Option.bind_eq_some_iff, Option.some.injEq,
      Prod.mk.injEq] at hread
    obtain ⟨_, hend, rfl, rfl⟩ := hread
  · exact ⟨after, _, hkey, suffix_of_eq_cons (List.suffix_refl after) heq, hend, rfl⟩
  · exact ⟨after, _, hkey,
      (List.suffix_cons ']' _).trans (suffix_of_eq_cons (List.suffix_refl after) heq), hend, rfl⟩

/-- A pair is a key, its value and the end of the line. -/
theorem pair?_eq_some {p : Pair} (h : pair? cs = some (p, rest)) :
    ∃ after left, key? cs = some ((p.path, p.key), '=' :: after) ∧
      value? ((skipBlanks after).length + 1) (nestingLimit - 1) (skipBlanks after) =
        some (p.value, left) ∧ endOfLine? left = some rest := by
  simp only [pair?, bind, pure, Option.bind_eq_some_iff] at h
  obtain ⟨⟨⟨path, key⟩, afterKey⟩, hkey, h⟩ := h
  split at h
  · rename_i after heq
    obtain rfl : afterKey = '=' :: after := heq
    simp only [Option.bind_eq_some_iff] at h
    obtain ⟨⟨value, left⟩, hvalue, _, hend, heq⟩ := h
    cases heq
    exact ⟨after, left, hkey, hvalue, hend⟩
  · cases h

end Rollout.Toml

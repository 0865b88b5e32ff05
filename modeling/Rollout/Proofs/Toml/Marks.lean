import Mathlib.Data.List.TakeWhile
import Mathlib.Tactic.Common
import Rollout.Proofs.Toml.Keys
import Rollout.Proofs.Toml.Rest

/-!
# Where keys are written

A key of a document is marked where the reader comes upon it: with its path, and with the text from
there on. The marks of a document that is read are, path by path, what its statements write, and so
what its table has. They come one after the other, each where its key is written on a line
(`marked_document`).
-/

namespace Rollout.Toml

/-! ### Marks -/

/-- A key that is written: its path, and the text from where it begins. A key of several parts
begins with the first of them. -/
structure Mark where
  path : List String
  ahead : List Char
deriving DecidableEq, Repr

def Mark.under (path : List String) (m : Mark) : Mark := { m with path := path ++ m.path }

/-- The marks of the parts of a key, and those of what is written below it. -/
def marksOfKey (ahead : List Char) : List String → List Mark → List Mark
  | [], sub => sub
  | key :: path, sub => ⟨[key], ahead⟩ :: (marksOfKey ahead path sub).map (Mark.under [key])

mutual

/-- The marks in a value, which has keys if it is an inline table. -/
def marksOfValue : Nat → Nat → List Char → List Mark
  | fuel + 1, room + 1, '{' :: rest => marksOfPairs fuel room (skipBlanks rest)
  | _, _, _ => []

def marksOfPairs : Nat → Nat → List Char → List Mark
  | 0, _, _ => []
  | fuel + 1, room, cs =>
    match key? cs with
    | some ((path, key), '=' :: after) =>
      marksOfKey cs (path ++ [key]) (marksOfValue fuel room (skipBlanks after)) ++
        match value? fuel room (skipBlanks after) with
        | some (_, left) =>
          match skipBlanks left with
          | ',' :: next => marksOfPairs fuel room next
          | _ => []
        | none => []
    | _ => []

end

/-- The marks of a pair in the document. -/
def marksOfPair (cs : List Char) : List Mark :=
  match key? cs with
  | some ((path, key), '=' :: after) =>
    marksOfKey cs (path ++ [key])
      (marksOfValue ((skipBlanks after).length + 1) (nestingLimit - 1) (skipBlanks after))
  | _ => []

/-- What follows the opening brackets of a header, and whether there are two of them. -/
def bracket? : List Char → Option (Bool × List Char)
  | '[' :: '[' :: rest => some (true, rest)
  | '[' :: rest => some (false, rest)
  | _ => none

/-- The marks of statements below the header that stands before them. -/
def marksOfStatements : Nat → List String → List Char → List Mark
  | 0, _, _ => []
  | fuel + 1, under, cs =>
    match bracket? (skipBlanks cs), skipBlanks cs with
    | some (isElement, start), _ =>
      match header? isElement start with
      | some (header, after) =>
        marksOfKey start (header.path ++ [header.key]) [] ++
          marksOfStatements fuel (header.path ++ [header.key]) after
      | none => []
    | none, [] => []
    | none, c :: rest =>
      if c = '#' ∨ c = '\n' ∨ c = '\r' then
        match endOfLine? (c :: rest) with
        | some after => marksOfStatements fuel under after
        | none => []
      else
        (marksOfPair (c :: rest)).map (Mark.under under) ++
          match pair? (c :: rest) with
          | some (_, after) => marksOfStatements fuel under after
          | none => []

/-- The marks of a document. -/
def marksOf (text : String) : List Mark :=
  let cs := dropByteOrderMark text.toList
  marksOfStatements (cs.length + 1) [] cs

variable {cs rest : List Char} {fuel room : Nat}

/-! ### Keys on a line -/

/-- A piece of one line, which has no control character. -/
def OnLine (cs : List Char) : Prop := ∀ c ∈ cs, isPlainChar c = true

theorem onLine_nil : OnLine [] := by simp [OnLine]

theorem OnLine.append {before after : List Char} (h : OnLine before) (h' : OnLine after) :
    OnLine (before ++ after) := List.forall_mem_append.2 ⟨h, h'⟩

theorem OnLine.cons {c : Char} (hc : isPlainChar c = true) (h : OnLine cs) : OnLine (c :: cs) :=
  List.forall_mem_cons.2 ⟨hc, h⟩

theorem onLine_takeWhile {p : Char → Bool} (hp : ∀ c, p c = true → isPlainChar c = true)
    (cs : List Char) : OnLine (cs.takeWhile p) := fun c hc => hp c (List.mem_takeWhile_imp hc)

theorem isPlainChar_of_isBlank (c : Char) (h : isBlank c = true) : isPlainChar c = true := by
  simp only [isBlank, Bool.or_eq_true, decide_eq_true_eq] at h
  rcases h with rfl | rfl <;> decide

theorem isPlainChar_of_isBareKeyChar (c : Char) (h : isBareKeyChar c = true) :
    isPlainChar c = true := by
  have hrange (low high : Char) (hbounds : 0x20 ≤ low.toNat ∧ high.toNat < 0x7F)
      (hc : low.toNat ≤ c.toNat ∧ c.toNat ≤ high.toNat) : isPlainChar c = true := by
    simp only [isPlainChar, Bool.or_eq_true, Bool.and_eq_true, decide_eq_true_eq, bne_iff_ne]
    omega
  change (decide ('A'.val ≤ c.val ∧ c.val ≤ 'Z'.val) || 'a'.val ≤ c.val && c.val ≤ 'z'.val ||
    '0'.val ≤ c.val && c.val ≤ '9'.val || c = '_' || c = '-') = true at h
  simp only [Bool.or_eq_true, Bool.and_eq_true, decide_eq_true_eq, UInt32.le_iff_toNat_le] at h
  rcases h with (((hupper | hlower) | hdigit) | rfl) | rfl
  · exact hrange 'A' 'Z' (by decide) hupper
  · exact hrange 'a' 'z' (by decide) hlower
  · exact hrange '0' '9' (by decide) hdigit
  · decide
  · decide

/-- The text begins with a piece of one line that holds these names as they are, unless there is a
backslash in it. -/
def Spells (names : List String) (cs : List Char) : Prop :=
  ∃ line after, cs = line ++ after ∧ line ≠ [] ∧ OnLine line ∧
    ('\\' ∈ line ∨ ∀ name ∈ names, name.toList <:+: line)

theorem basicLine?_spells {text : List Char} (h : basicLine? fuel cs = some (text, rest)) :
    ∃ line after, cs = line ++ after ∧ OnLine line ∧
      ('\\' ∈ line ∨ line = text ∧ after = '"' :: rest) := by
  induction fuel generalizing cs text with
  | zero => cases h
  | succ fuel ih =>
    cases cs with
    | nil => cases h
    | cons c cs =>
      rw [basicLine?] at h
      split_ifs at h with hquote hbackslash hplain
      · cases h
        exact ⟨[], _, rfl, onLine_nil, .inr ⟨rfl, by rw [hquote]⟩⟩
      · have hc : isPlainChar c = true := by
          rw [hbackslash]
          decide
        exact ⟨[c], cs, rfl, .cons hc onLine_nil, .inl (by simp [hbackslash])⟩
      · obtain ⟨⟨text', _⟩, hline, heq⟩ := Option.map_eq_some_iff.1 h
        cases heq
        obtain ⟨line, after, rfl, honLine, hspelled⟩ := ih hline
        refine ⟨c :: line, after, rfl, .cons hplain honLine, hspelled.imp ?_ ?_⟩
        · exact List.mem_cons_of_mem c
        · rintro ⟨rfl, hafter⟩
          exact ⟨rfl, hafter⟩

theorem literalLine?_spells {text : List Char} (h : literalLine? cs = some (text, rest)) :
    cs = text ++ apostrophe :: rest ∧ OnLine text := by
  induction cs generalizing text with
  | nil => cases h
  | cons c cs ih =>
    rw [literalLine?] at h
    split_ifs at h with hquote hplain
    · cases h
      exact ⟨by rw [hquote]; rfl, onLine_nil⟩
    · obtain ⟨⟨text', _⟩, hline, heq⟩ := Option.map_eq_some_iff.1 h
      cases heq
      obtain ⟨hcs, honLine⟩ := ih hline
      exact ⟨by rw [hcs]; rfl, .cons hplain honLine⟩

/-- A quoted text on one line has its quotes around it, unless there is a backslash before. -/
theorem quoted?_spells {part : String} (h : quoted? true cs = some (part, rest)) :
    ∃ line after, cs = line ++ after ∧ line ≠ [] ∧ OnLine line ∧
      ('\\' ∈ line ∨ part.toList <:+: line ∧ after = rest) := by
  have hquoting : isPlainChar '"' = true ∧ isPlainChar apostrophe = true := by decide
  cases cs with
  | nil => cases h
  | cons c cs =>
    simp only [quoted?, bind, pure, Bool.not_true, Bool.false_and, Bool.false_eq_true,
      if_false] at h
    split_ifs at h with hquote hapostrophe
    · obtain ⟨⟨text, left⟩, hline, heq⟩ := Option.bind_eq_some_iff.1 h
      cases heq
      obtain ⟨line, after, rfl, honLine, hspelled⟩ := basicLine?_spells hline
      have hstart : OnLine (c :: line) := .cons (hquote ▸ hquoting.1) honLine
      rcases hspelled with hbackslash | ⟨rfl, rfl⟩
      · exact ⟨c :: line, after, rfl, by simp, hstart, .inl (List.mem_cons_of_mem c hbackslash)⟩
      · refine ⟨c :: line ++ ['"'], left, by simp, by simp,
          hstart.append (.cons hquoting.1 onLine_nil), .inr ⟨?_, rfl⟩⟩
        rw [String.toList_ofList]
        exact ⟨[c], ['"'], rfl⟩
    · obtain ⟨⟨text, left⟩, hline, heq⟩ := Option.bind_eq_some_iff.1 h
      cases heq
      obtain ⟨rfl, honLine⟩ := literalLine?_spells hline
      have hstart : OnLine (c :: text) := .cons (hapostrophe ▸ hquoting.2) honLine
      refine ⟨c :: text ++ [apostrophe], left, by simp, by simp,
        hstart.append (.cons hquoting.2 onLine_nil), .inr ⟨?_, rfl⟩⟩
      rw [String.toList_ofList]
      exact ⟨[c], [apostrophe], rfl⟩
    · cases h

/-- A part of a key is a piece of a line, as it is up to quotes if there is no backslash. -/
theorem keyPart?_spells {part : String} (h : keyPart? cs = some (part, rest)) :
    ∃ line after, cs = line ++ after ∧ line ≠ [] ∧ OnLine line ∧
      ('\\' ∈ line ∨ part.toList <:+: line ∧ after = rest) := by
  unfold keyPart? at h
  split at h
  · cases h
  · split_ifs at h with hquote hbare
    · exact quoted?_spells h
    · cases h
      refine ⟨_, _, List.takeWhile_append_dropWhile.symm, by simp [hbare],
        onLine_takeWhile isPlainChar_of_isBareKeyChar _, .inr ⟨?_, rfl⟩⟩
      simp

theorem skipBlanks_spells (cs : List Char) :
    ∃ blanks, cs = blanks ++ skipBlanks cs ∧ OnLine blanks :=
  ⟨_, List.takeWhile_append_dropWhile.symm, onLine_takeWhile isPlainChar_of_isBlank _⟩

theorem keyParts?_spells {parts : List String} (h : keyParts? fuel cs = some (parts, rest)) :
    Spells parts cs := by
  induction fuel generalizing cs parts with
  | zero => cases h
  | succ fuel ih =>
    simp only [keyParts?, bind, pure, Option.bind_eq_some_iff] at h
    obtain ⟨⟨part, left⟩, hpart, h⟩ := h
    obtain ⟨blanks, hblanks, honBlanks⟩ := skipBlanks_spells cs
    obtain ⟨line, after, hline, hne, honLine, hspelled⟩ := keyPart?_spells hpart
    rw [hline, ← List.append_assoc] at hblanks
    have hstart : OnLine (blanks ++ line) := honBlanks.append honLine
    have hstartNe : blanks ++ line ≠ [] := by simp [hne]
    rcases hspelled with hbackslash | ⟨hspelled, rfl⟩
    · exact ⟨blanks ++ line, after, hblanks, hstartNe, hstart,
        .inl (List.mem_append_right _ hbackslash)⟩
    have hpart : part.toList <:+: blanks ++ line :=
      hspelled.trans (List.suffix_append blanks line).isInfix
    split at h
    · rename_i next hnext
      obtain ⟨⟨more, _⟩, hmore, heq⟩ := Option.bind_eq_some_iff.1 h
      cases heq
      obtain ⟨blanks', hblanks', honBlanks'⟩ := skipBlanks_spells after
      obtain ⟨line', after', rfl, -, honLine', hspelled'⟩ := ih hmore
      have hnext' : skipBlanks after = '.' :: (line' ++ after') := hnext
      refine ⟨blanks ++ line ++ (blanks' ++ '.' :: line'), after', ?_, by simp [hne], ?_,
        hspelled'.imp ?_ ?_⟩
      · rw [hblanks, hblanks', hnext']
        simp
      · exact hstart.append (honBlanks'.append (.cons (by decide) honLine'))
      · intro hbackslash
        simp [hbackslash]
      · intro hmore
        refine List.forall_mem_cons.2 ⟨hpart.trans (List.prefix_append _ _).isInfix, ?_⟩
        intro name hname
        exact (hmore name hname).trans ⟨blanks ++ line ++ (blanks' ++ ['.']), [], by simp⟩
    · cases h
      exact ⟨blanks ++ line, after, hblanks, hstartNe, hstart, .inr (by simpa using hpart)⟩

theorem key?_spells {path : List String} {key : String}
    (h : key? cs = some ((path, key), rest)) : Spells (path ++ [key]) cs := by
  simp only [key?, bind, pure, Option.bind_eq_some_iff] at h
  obtain ⟨⟨parts, left⟩, hparts, last, hlast, h⟩ := h
  split_ifs at h
  cases h
  rw [List.dropLast_append_getLast? _ hlast]
  exact keyParts?_spells hparts

/-! ### Marks of a part -/

/-- A mark in a text is at a place of it, where the text spells the key. -/
structure Mark.In (whole : List Char) (m : Mark) : Prop where
  ahead : m.ahead <:+ whole
  spells : ∃ name, m.path.getLast? = some name ∧ Spells [name] m.ahead

theorem Mark.In.mono {m : Mark} (h : m.In cs) {whole : List Char} (hcs : cs <:+ whole) :
    m.In whole := ⟨h.ahead.trans hcs, h.spells⟩

theorem Mark.In.under {m : Mark} (h : m.In cs) (path : List String) : (m.under path).In cs := by
  obtain ⟨name, hname, hspells⟩ := h.spells
  refine ⟨h.ahead, name, ?_, hspells⟩
  rw [Mark.under, List.getLast?_append, hname, Option.some_or]

theorem path_marksOfKey (ahead : List Char) (path : List String) (sub : List Mark) :
    (marksOfKey ahead path sub).map Mark.path = reach path (sub.map Mark.path) := by
  induction path with
  | nil => rfl
  | cons key path ih =>
    rw [marksOfKey, List.map_cons, List.map_map, reach, below, ← ih, List.map_map]
    rfl

theorem path_under (path : List String) (marks : List Mark) :
    (marks.map (Mark.under path)).map Mark.path = (marks.map Mark.path).map (path ++ ·) := by
  rw [List.map_map, List.map_map]
  rfl

theorem Listed.reach {written found : List (List String)} (path : List String)
    (h : Listed written found) : Listed (reach path written) (reach path found) := by
  induction path with
  | nil => exact h
  | cons key path ih => exact ih.underKey key

/-- The marks of a part of a text, up to the rest behind it: they are at places of the part, one
after the other, and tell these paths. -/
structure Marked (cs rest : List Char) (marks : List Mark) (paths : List (List String)) : Prop where
  listed : Listed (marks.map Mark.path) paths
  inside : ∀ m ∈ marks, m.In cs
  before : ∀ m ∈ marks, rest <:+ m.ahead
  ordered : marks.Pairwise fun m m' => m'.ahead <:+ m.ahead

namespace Marked

variable {marks marks' : List Mark} {paths paths' : List (List String)} {cs' rest' : List Char}

theorem nil : Marked cs rest [] [] where
  listed := .refl []
  inside := by simp
  before := by simp
  ordered := .nil

/-- A part of a longer part. -/
theorem mono (h : Marked cs rest marks paths) (hcs : cs <:+ cs') (hrest : rest' <:+ rest) :
    Marked cs' rest' marks paths where
  listed := h.listed
  inside m hm := (h.inside m hm).mono hcs
  before m hm := hrest.trans (h.before m hm)
  ordered := h.ordered

/-- A part and the next one. -/
theorem append {between : List Char} (h : Marked cs between marks paths)
    (h' : Marked between rest marks' paths') (hbetween : between <:+ cs)
    (hrest : rest <:+ between) : Marked cs rest (marks ++ marks') (paths ++ paths') where
  listed := by
    rw [List.map_append]
    exact h.listed.append h'.listed
  inside := List.forall_mem_append.2 ⟨h.inside, fun m hm => (h'.inside m hm).mono hbetween⟩
  before := List.forall_mem_append.2 ⟨fun m hm => hrest.trans (h.before m hm), h'.before⟩
  ordered := List.pairwise_append.2 ⟨h.ordered, h'.ordered, fun m hm m' hm' =>
    (h'.inside m' hm').ahead.trans (h.before m hm)⟩

theorem under (h : Marked cs rest marks paths) (path : List String) :
    Marked cs rest (marks.map (Mark.under path)) (paths.map (path ++ ·)) where
  listed := by
    rw [path_under]
    exact h.listed.under path
  inside m hm := by
    obtain ⟨inner, hinner, rfl⟩ := List.mem_map.1 hm
    exact (h.inside inner hinner).under path
  before m hm := by
    obtain ⟨inner, hinner, rfl⟩ := List.mem_map.1 hm
    exact h.before inner hinner
  ordered := List.pairwise_map.2 h.ordered

/-- A key with what is written below it. -/
theorem key {path : List String} (hspells : Spells path cs) (hrest : rest <:+ cs)
    (h : Marked cs rest marks paths) :
    Marked cs rest (marksOfKey cs path marks) (reach path paths) := by
  induction path with
  | nil => exact h
  | cons key path ih =>
    obtain ⟨line, after, rfl, hne, honLine, hspelled⟩ := hspells
    have hpath : Spells path (line ++ after) :=
      ⟨line, after, rfl, hne, honLine, hspelled.imp_right fun h name hname =>
        h name (List.mem_cons_of_mem _ hname)⟩
    have hkey : Mark.In (line ++ after) ⟨[key], line ++ after⟩ :=
      ⟨List.suffix_refl _, key, rfl, line, after, rfl, hne, honLine, hspelled.imp_right fun h => by
        simpa using h key List.mem_cons_self⟩
    have hinner := (ih hpath).under [key]
    exact {
      listed := (Listed.refl [[key]]).append hinner.listed
      inside := List.forall_mem_cons.2 ⟨hkey, hinner.inside⟩
      before := List.forall_mem_cons.2 ⟨hrest, hinner.before⟩
      ordered := List.pairwise_cons.2 ⟨fun m hm => (hinner.inside m hm).ahead, hinner.ordered⟩ }

end Marked

/-! ### Marks of values -/

/-- The paths in a scalar are none. -/
theorem paths_scalar {item : Item} (h : scalar? cs = some (item, rest)) :
    item.Distinct ∧ item.paths = [] := by
  unfold scalar? at h
  split at h
  · cases h
    simp [Item.Distinct, Item.paths]
  · cases h
    simp [Item.Distinct, Item.paths]
  · cases h
  · split_ifs at h
    · obtain ⟨_, -, heq⟩ := Option.map_eq_some_iff.1 h
      cases heq
      simp [Item.Distinct, Item.paths]
    · split at h
      · cases h
        simp [Item.Distinct, Item.paths]
      · obtain ⟨_, -, heq⟩ := Option.map_eq_some_iff.1 h
        cases heq
        simp [Item.Distinct, Item.paths]

theorem key?_brace (rest : List Char) : key? ('}' :: rest) = none := by
  have hpart : keyPart? ('}' :: rest) = none := by
    have hquote : ¬ ('}' = '"' ∨ '}' = apostrophe) := by decide
    have hbare : ¬ isBareKeyChar '}' = true := by decide
    rw [keyPart?, if_neg hquote, if_neg hbare]
  have hblank : skipBlanks ('}' :: rest) = '}' :: rest := rfl
  simp [key?, keyParts?, hblank, hpart]

theorem marksOfPairs_brace (fuel room : Nat) (rest : List Char) :
    marksOfPairs fuel room ('}' :: rest) = [] := by
  cases fuel with
  | zero => rw [marksOfPairs]
  | succ fuel => rw [marksOfPairs, key?_brace]

/-- An inline table has the paths that its pairs write. -/
theorem marked_inline {pairs : List Pair} {entries : Entries} {marks : List Mark}
    (hvalues : ∀ p ∈ pairs, p.value.Distinct)
    (hmarks : Marked cs rest marks (pairs.flatMap Pair.writes))
    (hadd : Entries.addPairs pairs [] = some entries) :
    (Item.table .inline entries).Distinct ∧
      Marked cs rest marks (Item.table .inline entries).paths := by
  have hadds := adds_addPairs hvalues distinctKeys_nil hadd
  refine ⟨distinct_table.2 hadds.distinct, { hmarks with listed := ?_ }⟩
  rw [Item.paths]
  exact hmarks.listed.trans hadds.listed

/-- The marks of a pair are what it writes. -/
theorem marked_pair {p : Pair} {after : List Char} {marks : List Mark}
    (hkey : key? cs = some ((p.path, p.key), '=' :: after)) (hrest : rest <:+ skipBlanks after)
    (h : Marked (skipBlanks after) rest marks p.value.paths) :
    Marked cs rest (marksOfKey cs (p.path ++ [p.key]) marks) p.writes := by
  have hafter : skipBlanks after <:+ cs := (skipBlanks_suffix after).trans
    ((List.suffix_cons _ _).trans (key?_leaves hkey))
  exact .key (key?_spells hkey) (hrest.trans hafter) (h.mono hafter (List.suffix_refl rest))

/-- A value that is read, and pairs that are read, are marked. -/
theorem nested_marked (fuel : Nat) :
    (∀ room cs item rest, value? fuel room cs = some (item, rest) →
      item.Distinct ∧ Marked cs rest (marksOfValue fuel room cs) item.paths) ∧
    (∀ room cs pairs rest, pairs? fuel room cs = some (pairs, rest) →
      (∀ p ∈ pairs, p.value.Distinct) ∧
        Marked cs rest (marksOfPairs fuel room cs) (pairs.flatMap Pair.writes)) := by
  induction fuel with
  | zero => exact ⟨nofun, nofun⟩
  | succ fuel ih =>
    obtain ⟨hvalue, hpairs⟩ := ih
    refine ⟨fun room cs item rest h => ?_, fun room cs pairs rest h => ?_⟩
    · rcases value?_eq_some h with ⟨after, room', items, rfl, rfl, -, rfl⟩ |
        ⟨after, room', rfl, rfl, hend, rfl⟩ |
        ⟨after, room', pairs, entries, rfl, rfl, hread, hadd, rfl⟩ | ⟨hbrace, hscalar⟩
      · rw [marksOfValue]
        · simp [Item.Distinct, Item.paths, Marked.nil]
        · simp
      · rw [marksOfValue, hend, marksOfPairs_brace]
        exact ⟨distinct_table.2 distinctKeys_nil, by rw [Item.paths, pathsOf]; exact .nil⟩
      · rw [marksOfValue]
        obtain ⟨hvalues, hmarks⟩ := hpairs room' _ _ _ hread
        exact marked_inline hvalues
          (hmarks.mono (suffix_of_cons (skipBlanks_suffix after)) (List.suffix_refl rest)) hadd
      · obtain ⟨hdistinct, hpaths⟩ := paths_scalar hscalar
        rw [marksOfValue, hpaths]
        · exact ⟨hdistinct, .nil⟩
        · rintro _ _ _ - - rfl
          simp at hbrace
    · obtain ⟨path, key, after, value, left, hkey, hread, hrest⟩ := pairs?_eq_some h
      obtain ⟨hdistinct, hmarks⟩ := hvalue room _ _ _ hread
      have hleft : left <:+ skipBlanks after := value?_leaves _ _ hread
      have hfirst : Marked cs left _ (Pair.writes ⟨path, key, value⟩) :=
        marked_pair hkey hleft hmarks
      have hafter : left <:+ cs := hleft.trans ((skipBlanks_suffix after).trans
        ((List.suffix_cons _ _).trans (key?_leaves hkey)))
      rw [marksOfPairs]
      simp only [hkey, hread]
      rcases hrest with ⟨next, more, hnext, hmore, rfl⟩ | ⟨hend, rfl⟩
      · obtain ⟨hvalues, hmarks⟩ := hpairs room _ _ _ hmore
        have hnextLeft : next <:+ left := suffix_of_eq_cons (skipBlanks_suffix left) hnext
        rw [hnext, List.flatMap_cons]
        exact ⟨List.forall_mem_cons.2 ⟨hdistinct, hvalues⟩,
          (hfirst.mono (List.suffix_refl cs) hnextLeft).append hmarks (hnextLeft.trans hafter)
            ((nested_leave fuel room).2.2 hmore)⟩
      · rw [hend]
        have hrest : rest <:+ left := suffix_of_eq_cons (skipBlanks_suffix left) hend
        simpa [hdistinct] using hfirst.mono (List.suffix_refl cs) hrest

/-! ### Marks of documents -/

theorem pair?_leaves : Leaves pair? := by
  intro cs p rest h
  obtain ⟨after, left, hkey, hvalue, hend⟩ := pair?_eq_some h
  have hafter : after <:+ cs := (List.suffix_cons _ _).trans (key?_leaves hkey)
  exact (endOfLine?_suffix hend).trans ((value?_leaves _ _ hvalue).trans
    ((skipBlanks_suffix after).trans hafter))

theorem bracket?_suffix {isElement : Bool} {start : List Char}
    (h : bracket? cs = some (isElement, start)) : start <:+ cs := by
  unfold bracket? at h
  split at h
  all_goals cases h
  · exact List.suffix_append ['[', '['] _
  · exact List.suffix_cons _ _

theorem pair_marked {p : Pair} (h : pair? cs = some (p, rest)) :
    p.value.Distinct ∧ Marked cs rest (marksOfPair cs) p.writes := by
  obtain ⟨after, left, hkey, hvalue, hend⟩ := pair?_eq_some h
  obtain ⟨hdistinct, hmarks⟩ := (nested_marked _).1 _ _ _ _ hvalue
  refine ⟨hdistinct, ?_⟩
  rw [marksOfPair]
  simp only [hkey]
  exact (marked_pair hkey (value?_leaves _ _ hvalue) hmarks).mono (List.suffix_refl cs)
    (endOfLine?_suffix hend)

/-- The next statement is a header, a pair or nothing but a comment. -/
theorem statements?_succ (fuel : Nat) (cs : List Char) :
    statements? (fuel + 1) cs =
      match bracket? (skipBlanks cs), skipBlanks cs with
      | some (isElement, start), _ => (header? isElement start).bind fun (header, after) =>
        (statements? fuel after).map (.header header :: ·)
      | none, [] => some []
      | none, c :: rest =>
        if c = '#' ∨ c = '\n' ∨ c = '\r' then (endOfLine? (c :: rest)).bind (statements? fuel)
        else (pair? (c :: rest)).bind fun (p, after) =>
          (statements? fuel after).map (.pair p :: ·) := by
  rw [statements?]
  generalize skipBlanks cs = start
  simp only [bind, pure, Option.map_eq_bind]
  split
  · rfl
  · rfl
  · rename_i rest hsingle
    have hbracket : bracket? ('[' :: rest) = some (false, rest) := by rw [bracket?]; exact hsingle
    rw [hbracket]
    rfl
  · rename_i c rest _ hother
    have hbracket : bracket? (c :: rest) = none := by rw [bracket?] <;> simp_all
    rw [hbracket]
    rfl

theorem statements_marked {statements : List Statement} (under : List String)
    (h : statements? fuel cs = some statements) :
    (∀ p, .pair p ∈ statements → p.value.Distinct) ∧
      Marked cs [] (marksOfStatements fuel under cs) (writesOf under statements) := by
  induction fuel generalizing cs statements under with
  | zero => cases h
  | succ fuel ih =>
    rw [statements?_succ] at h
    rw [marksOfStatements]
    have hstart := skipBlanks_suffix cs
    generalize skipBlanks cs = start at h hstart ⊢
    cases hbracket : bracket? start with
    | some opened =>
      obtain ⟨isElement, start'⟩ := opened
      simp only [hbracket, Option.bind_eq_some_iff, Option.map_eq_some_iff] at h ⊢
      obtain ⟨⟨header, after⟩, hread, more, hmore, rfl⟩ := h
      obtain ⟨hvalues, hmarks⟩ := ih (header.path ++ [header.key]) hmore
      obtain ⟨afterKey, left, hkey, hleft, hend, -⟩ := header?_eq_some hread
      have hafter : after <:+ start' :=
        (endOfLine?_suffix hend).trans (hleft.trans (key?_leaves hkey))
      refine ⟨fun p hp => hvalues p (by simpa using hp), ?_⟩
      simp only [hread]
      rw [writesOf]
      have hfirst : Marked start' after _ (reach (header.path ++ [header.key]) []) :=
        .key (key?_spells hkey) hafter .nil
      exact (hfirst.append hmarks hafter List.nil_suffix).mono
        ((bracket?_suffix hbracket).trans hstart) (List.suffix_refl [])
    | none =>
      cases start with
      | nil =>
        simp only [hbracket] at h ⊢
        cases h
        exact ⟨by simp, .nil⟩
      | cons c rest =>
        simp only [hbracket] at h ⊢
        split_ifs at h ⊢ with hcomment
        · obtain ⟨after, hend, hmore⟩ := Option.bind_eq_some_iff.1 h
          simp only [hend]
          obtain ⟨hvalues, hmarks⟩ := ih under hmore
          exact ⟨hvalues,
            hmarks.mono ((endOfLine?_suffix hend).trans hstart) (List.suffix_refl [])⟩
        · simp only [Option.bind_eq_some_iff, Option.map_eq_some_iff] at h
          obtain ⟨⟨p, after⟩, hpair, more, hmore, rfl⟩ := h
          obtain ⟨hvalues, hmarks⟩ := ih under hmore
          obtain ⟨hdistinct, hfirst⟩ := pair_marked hpair
          refine ⟨fun q hq => ?_, ?_⟩
          · rcases List.mem_cons.1 hq with hq | hq
            · rw [Statement.pair.inj hq]
              exact hdistinct
            · exact hvalues q hq
          · simp only [hpair]
            rw [writesOf]
            exact ((hfirst.under under).append hmarks (pair?_leaves hpair) List.nil_suffix).mono
              hstart (List.suffix_refl [])

theorem dropByteOrderMark_suffix (cs : List Char) : dropByteOrderMark cs <:+ cs := by
  unfold dropByteOrderMark
  split
  · split_ifs
    · exact List.suffix_cons _ _
    · exact List.suffix_refl _
  · exact List.suffix_refl _

/-- A document that is read is marked with the paths of its table, and each of its tables has a key
once. -/
theorem marked_document {text : String} {es : Entries} (h : read? text = some es) :
    DistinctKeys es ∧ Marked text.toList [] (marksOf text) (pathsOf es) := by
  obtain ⟨statements, hread, hadd⟩ := Option.bind_eq_some_iff.1 h
  obtain ⟨hvalues, hmarks⟩ := statements_marked [] hread
  have hadds := adds_ofStatements? hvalues hadd
  have hwhole := hmarks.mono (dropByteOrderMark_suffix text.toList) (List.suffix_refl [])
  exact ⟨hadds.distinct, { hwhole with listed := hwhole.listed.trans hadds.listed }⟩

end Rollout.Toml

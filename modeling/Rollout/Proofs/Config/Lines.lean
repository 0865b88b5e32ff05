import Mathlib.Data.List.Infix
import Mathlib.Tactic.Common
import Rollout.Config.Warning
import Rollout.Proofs.FileTree.PathText
import Rollout.Proofs.Toml.Marks

/-!
# The lines of keys

A key is written on the line whose number counts the line ends before it. This line holds the name
of the key as it is, unless a backslash stands on it (`exists_line_of_mark`). The line that a
warning gives is the first one to hold a text, so it is the line of the key only if none holds the
text before (`lineOf_eq_some_iff`).
-/

namespace Rollout

namespace Text

variable {sep : Char} {piece : List Char}

theorem exists_splitOn_cons (h : sep ∉ piece) (after : List Char) :
    ∃ line rest, splitOn sep (piece ++ after) = line :: rest ∧ piece <+: line := by
  induction piece with
  | nil =>
    obtain ⟨line, rest, hsplit⟩ := List.exists_cons_of_ne_nil (splitOn_ne_nil sep after)
    exact ⟨line, rest, hsplit, List.nil_prefix⟩
  | cons c piece ih =>
    rw [List.mem_cons, not_or] at h
    obtain ⟨line, rest, hsplit, hprefix⟩ := ih h.2
    refine ⟨c :: line, rest, ?_, (List.cons_prefix_cons.2 ⟨rfl, hprefix⟩)⟩
    rw [List.cons_append, splitOn, if_neg (Ne.symm h.1), hsplit]

/-- The separators before a piece count the pieces before the one that holds it. -/
theorem exists_splitOn_getElem (h : sep ∉ piece) (before after : List Char) :
    ∃ line, (splitOn sep (before ++ (piece ++ after)))[before.count sep]? = some line ∧
      piece <:+: line := by
  induction before with
  | nil =>
    obtain ⟨line, rest, hsplit, hprefix⟩ := exists_splitOn_cons h after
    exact ⟨line, by simp [hsplit], hprefix.isInfix⟩
  | cons c before ih =>
    obtain ⟨line, hline, hinfix⟩ := ih
    rw [List.cons_append, splitOn]
    by_cases hc : c = sep
    · exact ⟨line, by simpa [hc] using hline, hinfix⟩
    · rw [if_neg hc, List.count_cons_of_ne hc]
      obtain ⟨first, rest, hsplit⟩ :=
        List.exists_cons_of_ne_nil (splitOn_ne_nil sep (before ++ (piece ++ after)))
      rw [hsplit] at hline ⊢
      cases hcount : before.count sep with
      | zero =>
        rw [hcount] at hline
        obtain rfl : first = line := Option.some.inj hline
        exact ⟨c :: first, rfl, hinfix.trans (List.suffix_cons c first).isInfix⟩
      | succ n =>
        rw [hcount] at hline
        exact ⟨line, hline, hinfix⟩

/-- Of a line end with two characters the first is not part of the line. -/
theorem infix_dropReturn {line : List Char} (hne : piece ≠ []) (hreturn : '\r' ∉ piece)
    (h : piece <:+: line) :
    piece <:+: if line.getLast? = some '\r' then line.dropLast else line := by
  split_ifs with hlast
  · obtain ⟨before, after, rfl⟩ := h
    rcases List.eq_nil_or_concat after with rfl | ⟨after, c, rfl⟩
    · rw [List.append_nil, List.getLast?_append_of_ne_nil _ hne] at hlast
      exact absurd (List.mem_of_getLast? hlast) hreturn
    · refine ⟨before, after, ?_⟩
      simp [List.concat_eq_append, ← List.append_assoc]
  · exact h

/-- The empty piece behind the last line end is no line. -/
theorem getElem?_dropEnd {pieces : List (List Char)} {line : List Char} {i : Nat}
    (h : pieces[i]? = some line) (hne : line ≠ []) :
    (if pieces.getLast? = some [] then pieces.dropLast else pieces)[i]? = some line := by
  split_ifs with hlast
  · have hi : i ≠ pieces.length - 1 := by
      rintro rfl
      rw [← List.getLast?_eq_getElem?, hlast] at h
      exact hne (Option.some.inj h).symm
    have hbound : i < pieces.length := (List.getElem?_eq_some_iff.1 h).1
    rw [List.getElem?_dropLast, if_pos (by omega), h]
  · exact h

theorem exists_lines_getElem (hne : piece ≠ []) (hfeed : '\n' ∉ piece) (hreturn : '\r' ∉ piece)
    (before after : List Char) :
    ∃ line, (lines (before ++ (piece ++ after)))[before.count '\n']? = some line ∧
      piece <:+: line := by
  obtain ⟨line, hline, hinfix⟩ := exists_splitOn_getElem hfeed before after
  have hlineNe : line ≠ [] := by
    rintro rfl
    exact hne (List.infix_nil.1 hinfix)
  refine ⟨_, ?_, infix_dropReturn hne hreturn hinfix⟩
  rw [lines, List.getElem?_map, getElem?_dropEnd hline hlineNe, Option.map_some]

/-- The line with a number, counted from one. -/
def lineAt? (text : String) : Nat → Option (List Char)
  | 0 => none
  | i + 1 => (lines text.toList)[i]?

end Text

namespace Toml

/-- The number of the line on which a mark is. -/
def Mark.line (text : String) (m : Mark) : Nat :=
  (text.toList.take (text.toList.length - m.ahead.length)).count '\n' + 1

/-- A mark further on is not on an earlier line. -/
theorem line_le_of_suffix {m m' : Mark} (h : m'.ahead <:+ m.ahead) (text : String) :
    m.line text ≤ m'.line text := by
  have hlength := h.length_le
  have htake : text.toList.take (text.toList.length - m.ahead.length) <+:
      text.toList.take (text.toList.length - m'.ahead.length) :=
    List.take_prefix_take_left (by omega)
  exact Nat.succ_le_succ (htake.sublist.count_le '\n')

/-- The line of a mark holds the name of the key, or there is a backslash on it. -/
theorem exists_line_of_mark {text : String} {m : Mark} (h : m.In text.toList) :
    ∃ name line, m.path.getLast? = some name ∧
      Text.lineAt? text (m.line text) = some line ∧
      ('\\' ∈ line ∨ Text.holds name.toList line = true) := by
  obtain ⟨⟨before, hbefore⟩, name, hname, piece, after, hahead, hne, honLine, hspelled⟩ := h
  have hcount : m.line text = before.count '\n' + 1 := by
    rw [Mark.line, ← hbefore, List.length_append, Nat.add_sub_cancel, List.take_left]
  have hplain (c : Char) (hc : isPlainChar c = false) : c ∉ piece := fun hmem => by
    rw [honLine c hmem] at hc
    cases hc
  obtain ⟨line, hline, hinfix⟩ := Text.exists_lines_getElem hne (hplain '\n' (by decide))
    (hplain '\r' (by decide)) before after
  rw [hahead] at hbefore
  refine ⟨name, line, hname, ?_, hspelled.imp ?_ ?_⟩
  · rw [hcount, Text.lineAt?, ← hbefore, hline]
  · exact fun hbackslash => hinfix.subset hbackslash
  · exact fun hnames => Text.holds_iff.2 ((hnames name (by simp)).trans hinfix)

end Toml

namespace Config.Warning

variable {content key : String} {n : Nat}

/-- The line with a number holds a text. -/
def Holds (content key : String) (n : Nat) : Prop :=
  ∃ line, Text.lineAt? content n = some line ∧ Text.holds key.toList line = true

/-- The line that is given is the first one to hold the key. -/
theorem lineOf_eq_some_iff :
    lineOf content key = some n ↔
      Holds content key n ∧ ∀ earlier < n, ¬ Holds content key earlier := by
  have hzero : ¬ Holds content key 0 := by
    rintro ⟨line, hline, -⟩
    cases hline
  cases n with
  | zero => simp [lineOf, hzero]
  | succ i =>
    have hholds (j : Nat) : Holds content key (j + 1) ↔
        ∃ h : j < (Text.lines content.toList).length,
          Text.holds key.toList (Text.lines content.toList)[j] = true := by
      simp only [Holds, Text.lineAt?, List.getElem?_eq_some_iff]
      constructor
      · rintro ⟨_, ⟨h, rfl⟩, hline⟩
        exact ⟨h, hline⟩
      · rintro ⟨h, hline⟩
        exact ⟨_, ⟨h, rfl⟩, hline⟩
    have hfound : lineOf content key = some (i + 1) ↔
        (Text.lines content.toList).findIdx? (Text.holds key.toList) = some i := by
      simp [lineOf]
    rw [hfound, List.findIdx?_eq_some_iff_getElem, hholds]
    constructor
    · rintro ⟨h, hline, hbefore⟩
      refine ⟨⟨h, hline⟩, fun earlier hearlier => ?_⟩
      cases earlier with
      | zero => exact hzero
      | succ j =>
        rw [hholds]
        rintro ⟨_, hj⟩
        exact hbefore j (by omega) hj
    · rintro ⟨⟨h, hline⟩, hbefore⟩
      exact ⟨h, hline, fun j hj hheld =>
        hbefore (j + 1) (by omega) ((hholds j).2 ⟨Nat.lt_trans hj h, hheld⟩)⟩

/-- A text that some line holds has a line. -/
theorem exists_lineOf (h : Holds content key n) : ∃ first ≤ n, lineOf content key = some first := by
  induction n using Nat.strong_induction_on with
  | _ n ih =>
    by_cases hearlier : ∃ earlier < n, Holds content key earlier
    · obtain ⟨earlier, hlt, hheld⟩ := hearlier
      obtain ⟨first, hle, hfirst⟩ := ih earlier hlt hheld
      exact ⟨first, Nat.le_trans hle (Nat.le_of_lt hlt), hfirst⟩
    · exact ⟨n, Nat.le_refl n,
        lineOf_eq_some_iff.2 ⟨h, fun earlier hlt hheld => hearlier ⟨earlier, hlt, hheld⟩⟩⟩

end Config.Warning
end Rollout

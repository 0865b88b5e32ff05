import Mathlib.Data.List.DropRight
import Mathlib.Tactic.Common
import Rollout.Compile.Artifact
import Rollout.Proofs.Text.Split

/-!
# Build targets

The package of a build target is the project root without its beginning of `./`, the slashes that
follow and those at its end. It leads where the root leads, but inside it nothing is tidied: it is
written normally exactly if the root is tidy between these ends (`build_target`).
-/

namespace Rollout

namespace Text

/-- The segments of a text that name something. -/
def parts (cs : List Char) : List String :=
  ((splitOn '/' cs).map String.ofList).filter (!Path.isIdle ·)

theorem parts_slash (cs : List Char) : parts ('/' :: cs) = parts cs := by
  simp [parts, splitOn, Path.isIdle]

theorem parts_current (cs : List Char) : parts ('.' :: '/' :: cs) = parts cs := by
  simp [parts, splitOn, Path.isIdle]

theorem parts_append (xs ys : List Char) : parts (xs ++ '/' :: ys) = parts xs ++ parts ys := by
  rw [parts, splitOn_append, List.map_append, List.filter_append]
  rfl

theorem parts_slash_end (cs : List Char) : parts (cs ++ ['/']) = parts cs := by
  rw [parts_append]
  simp [parts, splitOn, Path.isIdle]

/-- Every segment names something. -/
def AllNamed (cs : List Char) : Prop :=
  ∀ piece ∈ splitOn '/' cs, Path.isIdle (String.ofList piece) = false

/-- No segment is empty or a single dot; the empty text has no segments. -/
def IsNormal (cs : List Char) : Prop := cs = [] ∨ AllNamed cs

instance (cs : List Char) : Decidable (AllNamed cs) := List.decidableBAll _ _

instance (cs : List Char) : Decidable (IsNormal cs) := inferInstanceAs (Decidable (_ ∨ _))

theorem not_allNamed_nil : ¬ AllNamed [] := by decide

theorem allNamed_append (xs ys : List Char) :
    AllNamed (xs ++ '/' :: ys) ↔ AllNamed xs ∧ AllNamed ys := by
  unfold AllNamed
  rw [splitOn_append, List.forall_mem_append]

theorem isNormal_append (xs ys : List Char) :
    IsNormal (xs ++ '/' :: ys) ↔ AllNamed xs ∧ AllNamed ys := by
  simp [IsNormal, allNamed_append]

theorem IsNormal.head? {cs : List Char} (h : IsNormal cs) : cs.head? ≠ some '/' := by
  intro hhead
  obtain ⟨rest, rfl⟩ := List.head?_eq_some_iff.mp hhead
  exact not_allNamed_nil ((isNormal_append [] rest).mp h).1

theorem IsNormal.getLast? {cs : List Char} (h : IsNormal cs) : cs.getLast? ≠ some '/' := by
  intro hlast
  obtain ⟨rest, rfl⟩ := List.getLast?_eq_some_iff.mp hlast
  exact not_allNamed_nil ((isNormal_append rest []).mp h).2

theorem forall_parts (cs : List Char) :
    ∀ name ∈ parts cs, Path.isIdle name = false ∧ '/' ∉ name.toList := by
  intro name hname
  obtain ⟨hname, hnamed⟩ := List.mem_filter.mp hname
  obtain ⟨piece, hpiece, rfl⟩ := List.mem_map.mp hname
  refine ⟨by simpa using hnamed, ?_⟩
  rw [String.toList_ofList]
  exact not_mem_of_mem_splitOn piece hpiece

/-- A normal text is written from the names on its way. -/
theorem IsNormal.eq_joined {cs : List Char} (h : IsNormal cs) :
    String.ofList cs = joined "/" (parts cs) := by
  rcases h with rfl | h
  · rfl
  · have hparts : parts cs = (splitOn '/' cs).map String.ofList := by
      apply List.filter_eq_self.mpr
      simpa [AllNamed] using h
    apply String.toList_inj.mp
    rw [hparts, toList_joined, List.map_map]
    simp [Function.comp_def, joinWith_splitOn]

theorem isNormal_joined {names : List String}
    (h : ∀ name ∈ names, Path.isIdle name = false ∧ '/' ∉ name.toList) :
    IsNormal (joined "/" names).toList := by
  by_cases hnames : names = []
  · subst names
    left
    rfl
  · right
    intro piece hpiece
    rw [toList_joined, splitOn_joinWith (by simpa using hnames)] at hpiece
    · obtain ⟨name, hname, rfl⟩ := List.mem_map.mp hpiece
      rw [String.ofList_toList]
      exact (h name hname).1
    · intro piece hpiece
      obtain ⟨name, hname, rfl⟩ := List.mem_map.mp hpiece
      exact (h name hname).2

/-- A text is normal exactly if it is its parts with single slashes between them. -/
theorem isNormal_iff {s : String} : IsNormal s.toList ↔ s = joined "/" (parts s.toList) := by
  constructor
  · intro h
    rw [← h.eq_joined, String.ofList_toList]
  · intro h
    rw [h]
    exact isNormal_joined (forall_parts s.toList)

end Text

/-- The names on the way of a path. -/
def Path.parts (p : Path) : List String := p.segments.filter (!Path.isIdle ·)

theorem Path.parts_eq (p : Path) : p.parts = Text.parts p.text.toList := by
  unfold Path.parts Path.segments
  by_cases h : p.isAbsolute = true
  · obtain ⟨cs, hcs⟩ : ∃ cs, p.text.toList = '/' :: cs := by
      rw [Path.isAbsolute, decide_eq_true_eq] at h
      exact List.head?_eq_some_iff.mp h
    simp only [h, if_true, hcs, Text.parts_slash]
    rfl
  · simp only [h]
    rfl

namespace Artifact

open Text

/-! ### The inside of a root -/

/-- What is left of a root: its text inside the slashes. -/
def inside (cs : List Char) : List Char :=
  ((dropCurrent cs).dropWhile isSlash).rdropWhile isSlash

theorem packageOf_eq (root : String) :
    packageOf root = String.ofList (inside (trim root).toList) := rfl

theorem parts_dropCurrent (cs : List Char) : parts (dropCurrent cs) = parts cs := by
  fun_induction dropCurrent cs with
  | case1 cs ih => rw [ih, parts_current]
  | case2 cs => rfl

theorem parts_dropWhile (cs : List Char) : parts (cs.dropWhile isSlash) = parts cs := by
  induction cs with
  | nil => rfl
  | cons c cs ih =>
    by_cases hc : c = '/'
    · subst c
      rw [List.dropWhile_cons_of_pos (by decide), ih, parts_slash]
    · rw [List.dropWhile_cons_of_neg (by simp [isSlash, hc])]

theorem parts_rdropWhile (cs : List Char) : parts (cs.rdropWhile isSlash) = parts cs := by
  induction cs using List.reverseRecOn with
  | nil => rfl
  | append_singleton cs c ih =>
    by_cases hc : c = '/'
    · subst c
      rw [List.rdropWhile_concat_pos _ _ _ (by decide), ih, parts_slash_end]
    · rw [List.rdropWhile_concat_neg _ _ _ (by simp [isSlash, hc])]

/-- Nothing that names something is taken away. -/
theorem parts_inside (cs : List Char) : parts (inside cs) = parts cs := by
  rw [inside, parts_rdropWhile, parts_dropWhile, parts_dropCurrent]

theorem head?_inside (cs : List Char) : (inside cs).head? ≠ some '/' := by
  intro h
  obtain ⟨rest, hrest⟩ := List.head?_eq_some_iff.mp h
  obtain ⟨after, hafter⟩ := List.rdropWhile_prefix isSlash ((dropCurrent cs).dropWhile isSlash)
  have hnot := List.head?_dropWhile_not isSlash (dropCurrent cs)
  rw [← hafter, show List.rdropWhile isSlash _ = '/' :: rest from hrest] at hnot
  simp [isSlash] at hnot

theorem getLast?_inside (cs : List Char) : (inside cs).getLast? ≠ some '/' := by
  intro h
  obtain ⟨rest, hrest⟩ := List.getLast?_eq_some_iff.mp h
  have hself : (inside cs).rdropWhile isSlash = inside cs := List.rdropWhile_idempotent _ _
  rw [hrest, List.rdropWhile_concat_pos _ _ _ (by decide)] at hself
  have hlength := (List.rdropWhile_prefix isSlash rest).length_le
  rw [hself, List.length_append] at hlength
  exact absurd hlength (by simp)

/-! ### Tidy roots -/

/-- A text with `./` before it, then slashes, and slashes after it. -/
def padded (dots before after : Nat) (cs : List Char) : List Char :=
  (List.replicate dots ['.', '/']).flatten ++
    (List.replicate before '/' ++ (cs ++ List.replicate after '/'))

/-- The root is normal inside its ends. -/
def Tidy (cs : List Char) : Prop :=
  ∃ dots before after middle, IsNormal middle ∧ cs = padded dots before after middle

theorem exists_dots (cs : List Char) :
    ∃ dots, cs = (List.replicate dots ['.', '/']).flatten ++ dropCurrent cs := by
  fun_induction dropCurrent cs with
  | case1 cs ih =>
    obtain ⟨dots, hdots⟩ := ih
    refine ⟨dots + 1, ?_⟩
    rw [List.replicate_succ, List.flatten_cons, List.append_assoc, ← hdots]
    rfl
  | case2 cs => exact ⟨0, rfl⟩

theorem eq_replicate_of_isSlash (cs : List Char) (h : ∀ c ∈ cs, isSlash c = true) :
    cs = List.replicate cs.length '/' := by
  apply List.eq_replicate_of_mem
  simpa [isSlash] using h

/-- A root is its inside with `./` and slashes around it. -/
theorem exists_padded (cs : List Char) :
    ∃ dots before after, cs = padded dots before after (inside cs) := by
  obtain ⟨dots, hdots⟩ := exists_dots cs
  have hbefore := eq_replicate_of_isSlash ((dropCurrent cs).takeWhile isSlash)
    fun c hc => List.mem_takeWhile_imp hc
  have hafter := eq_replicate_of_isSlash
    (((dropCurrent cs).dropWhile isSlash).rtakeWhile isSlash)
    fun c hc => List.mem_rtakeWhile_imp hc
  refine ⟨dots, ((dropCurrent cs).takeWhile isSlash).length,
    (((dropCurrent cs).dropWhile isSlash).rtakeWhile isSlash).length, ?_⟩
  rw [padded, ← hbefore, ← hafter, inside, List.rdropWhile_append_rtakeWhile,
    List.takeWhile_append_dropWhile]
  exact hdots

theorem dropCurrent_dots (dots : Nat) (cs : List Char) :
    dropCurrent ((List.replicate dots ['.', '/']).flatten ++ cs) = dropCurrent cs := by
  induction dots with
  | zero => rfl
  | succ dots ih =>
    rw [List.replicate_succ, List.flatten_cons, List.append_assoc]
    exact ih

theorem dropCurrent_of_not_prefix {cs : List Char} (h : ¬ ['.', '/'] <+: cs) :
    dropCurrent cs = cs := by
  unfold dropCurrent
  split
  · rename_i rest
    exact absurd ⟨rest, rfl⟩ h
  · rfl

/-- A normal text with slashes around it does not begin with `./`. -/
theorem not_prefix_slashes {cs : List Char} (h : IsNormal cs) (before after : Nat) :
    ¬ ['.', '/'] <+: List.replicate before '/' ++ (cs ++ List.replicate after '/') := by
  cases before with
  | succ before => simp [List.replicate_succ]
  | zero =>
    rw [List.replicate_zero, List.nil_append]
    rcases h with rfl | h
    · cases after <;> simp [List.replicate_succ]
    · rintro ⟨rest, hrest⟩
      -- The first segment would be the dot, whether the text ends there or goes on.
      match cs with
      | [] => exact not_allNamed_nil h
      | [c] =>
        obtain rfl : '.' = c := (List.cons.inj hrest).1
        exact absurd h (by decide)
      | c :: d :: cs =>
        obtain ⟨rfl, htail⟩ := List.cons.inj hrest
        obtain rfl : '/' = d := (List.cons.inj htail).1
        exact absurd ((allNamed_append ['.'] cs).mp h).1 (by decide)

theorem isSlash_of_mem_replicate (n : Nat) : ∀ c ∈ List.replicate n '/', isSlash c = true := by
  simp [isSlash]

theorem rdropWhile_slashes (cs : List Char) (n : Nat) :
    (cs ++ List.replicate n '/').rdropWhile isSlash = cs.rdropWhile isSlash := by
  rw [List.rdropWhile, List.reverse_append, List.reverse_replicate,
    List.dropWhile_append_of_pos (isSlash_of_mem_replicate n), List.rdropWhile]

theorem inside_padded {cs : List Char} (h : IsNormal cs) (dots before after : Nat) :
    inside (padded dots before after cs) = cs := by
  rw [inside, padded, dropCurrent_dots,
    dropCurrent_of_not_prefix (not_prefix_slashes h before after),
    List.dropWhile_append_of_pos (isSlash_of_mem_replicate before)]
  cases cs with
  | nil => simp [isSlash]
  | cons c cs =>
    have hhead : ¬ isSlash c = true := by
      simpa [isSlash] using h.head?
    have hlast : (c :: cs).rdropWhile isSlash = c :: cs := by
      apply List.rdropWhile_eq_self_iff.mpr
      intro hne
      simpa [isSlash, List.getLast?_eq_some_getLast hne] using h.getLast?
    rw [List.cons_append, List.dropWhile_cons_of_neg hhead, ← List.cons_append,
      rdropWhile_slashes, hlast]

theorem tidy_iff {cs : List Char} : Tidy cs ↔ IsNormal (inside cs) := by
  constructor
  · rintro ⟨dots, before, after, middle, hmiddle, rfl⟩
    rw [inside_padded hmiddle]
    exact hmiddle
  · intro h
    obtain ⟨dots, before, after, hcs⟩ := exists_padded cs
    exact ⟨dots, before, after, inside cs, h, hcs⟩

/-! ### The package of a target -/

/-- The names of the directory that a root leads to. -/
def directoryOf (root : String) : List String := (⟨trim root⟩ : Path).parts

/-- The names from a project to the entry of its program. -/
def entryOf (language : String) : List String :=
  if language = "go" then ["cmd", "server"] else []

/-- The package with the folder of the entry. -/
def withEntry (package : List Char) : List Char :=
  if package = [] then "cmd/server".toList else package ++ '/' :: "cmd/server".toList

/-- The package of a target: what stands between its `//` and its name. -/
def packageFor (root language : String) : String :=
  if language = "go" then String.ofList (withEntry (packageOf root).toList) else packageOf root

theorem targetOf_eq (root language : String) :
    targetOf root language = "//" ++ packageFor root language ++ ":image" := by
  unfold targetOf packageFor withEntry
  by_cases hlanguage : language = "go"
  · by_cases hempty : packageOf root = ""
    · simp [hlanguage, hempty]
    · simp [hlanguage, hempty]
  · simp [hlanguage]

theorem parts_withEntry (package : List Char) :
    parts (withEntry package) = parts package ++ ["cmd", "server"] := by
  unfold withEntry
  split
  · rename_i h
    rw [h]
    decide
  · rw [parts_append]
    congr 1

theorem isNormal_withEntry {package : List Char} :
    IsNormal (withEntry package) ↔ IsNormal package := by
  unfold withEntry
  split
  · rename_i h
    rw [h]
    decide
  · rename_i h
    rw [isNormal_append, IsNormal, or_iff_right h]
    exact and_iff_left (by decide)

theorem head?_withEntry {package : List Char} (h : package.head? ≠ some '/') :
    (withEntry package).head? ≠ some '/' := by
  unfold withEntry
  cases package with
  | nil => decide
  | cons c package => simpa using h

theorem getLast?_withEntry (package : List Char) :
    (withEntry package).getLast? ≠ some '/' := by
  unfold withEntry
  split
  · decide
  · have hlast : ('/' :: "cmd/server".toList).getLast? = some 'r' := by decide
    rw [List.getLast?_append, hlast, Option.some_or]
    decide

theorem toList_packageOf (root : String) :
    (packageOf root).toList = inside (trim root).toList := by
  rw [packageOf_eq, String.toList_ofList]

theorem toList_packageFor (root language : String) :
    (packageFor root language).toList =
      if language = "go" then withEntry (inside (trim root).toList)
      else inside (trim root).toList := by
  unfold packageFor
  split
  · rw [String.toList_ofList, toList_packageOf]
  · exact toList_packageOf root

theorem parts_packageFor (root language : String) :
    parts (packageFor root language).toList = directoryOf root ++ entryOf language := by
  rw [toList_packageFor, directoryOf, Path.parts_eq, entryOf]
  split
  · rw [parts_withEntry, parts_inside]
  · rw [parts_inside, List.append_nil]

theorem isNormal_packageFor (root language : String) :
    IsNormal (packageFor root language).toList ↔ Tidy (trim root).toList := by
  rw [toList_packageFor, tidy_iff]
  split
  · exact isNormal_withEntry
  · rfl

/-- The target of a package says which package it is of. -/
theorem packageFor_eq_of_targetOf {root other language : String}
    (h : targetOf other language = targetOf root language) :
    packageFor other language = packageFor root language := by
  rw [targetOf_eq, targetOf_eq] at h
  simpa using h

theorem directoryOf_eq_of_targetOf {root other language : String}
    (h : targetOf other language = targetOf root language) :
    directoryOf other = directoryOf root := by
  have hparts := parts_packageFor other language
  rw [packageFor_eq_of_targetOf h, parts_packageFor] at hparts
  exact (List.append_cancel_right hparts).symm

/-- A root is tidy exactly if the package is its directory, written with single slashes. -/
theorem tidy_iff_packageFor {root language : String} :
    Tidy (trim root).toList ↔
      packageFor root language = joined "/" (directoryOf root ++ entryOf language) := by
  rw [← isNormal_packageFor root language, isNormal_iff, parts_packageFor]

/-- The target of a tidy root is the target of the tidy roots that lead to the same directory. -/
theorem targetOf_eq_iff_of_tidy {root other language : String} (h : Tidy (trim root).toList) :
    targetOf other language = targetOf root language ↔
      directoryOf other = directoryOf root ∧ Tidy (trim other).toList := by
  constructor
  · intro htarget
    refine ⟨directoryOf_eq_of_targetOf htarget, ?_⟩
    rw [← isNormal_packageFor other language, packageFor_eq_of_targetOf htarget,
      isNormal_packageFor]
    exact h
  · rintro ⟨hdirectory, hother⟩
    rw [targetOf_eq, targetOf_eq, tidy_iff_packageFor.mp hother, tidy_iff_packageFor.mp h,
      hdirectory]

theorem head?_packageFor (root language : String) :
    (packageFor root language).toList.head? ≠ some '/' := by
  rw [toList_packageFor]
  split
  · exact head?_withEntry (head?_inside _)
  · exact head?_inside _

theorem getLast?_packageFor (root language : String) :
    (packageFor root language).toList.getLast? ≠ some '/' := by
  rw [toList_packageFor]
  split
  · exact getLast?_withEntry _
  · exact getLast?_inside _

/-- The package of a target leads where the root leads, with the entry of the language after it,
and no slash stands at its ends. It is written normally exactly if the root is tidy; then the same
target is that of the tidy roots that lead there and of no others. -/
theorem build_target (root language : String) :
    targetOf root language = "//" ++ packageFor root language ++ ":image" ∧
      (packageFor root language).toList.head? ≠ some '/' ∧
      (packageFor root language).toList.getLast? ≠ some '/' ∧
      (⟨packageFor root language⟩ : Path).parts = directoryOf root ++ entryOf language ∧
      (IsNormal (packageFor root language).toList ↔ Tidy (trim root).toList) ∧
      (Tidy (trim root).toList ↔
        packageFor root language = joined "/" (directoryOf root ++ entryOf language)) ∧
      ∀ other,
        (targetOf other language = targetOf root language →
          directoryOf other = directoryOf root) ∧
        (Tidy (trim root).toList →
          (targetOf other language = targetOf root language ↔
            directoryOf other = directoryOf root ∧ Tidy (trim other).toList)) := by
  have hparts : (⟨packageFor root language⟩ : Path).parts =
      directoryOf root ++ entryOf language := by
    rw [Path.parts_eq]
    exact parts_packageFor root language
  exact ⟨targetOf_eq root language, head?_packageFor root language,
    getLast?_packageFor root language, hparts, isNormal_packageFor root language,
    tidy_iff_packageFor, fun _ => ⟨directoryOf_eq_of_targetOf, targetOf_eq_iff_of_tidy⟩⟩

/-- A root that is a single dot leads where `./` leads, but the dot is left in its target. -/
theorem dot_left_in_target :
    directoryOf "." = directoryOf "./" ∧
      targetOf "." "go" = "//./cmd/server:image" ∧ targetOf "./" "go" = "//cmd/server:image" ∧
      ¬ IsNormal (packageFor "." "go").toList := by
  decide

end Artifact
end Rollout

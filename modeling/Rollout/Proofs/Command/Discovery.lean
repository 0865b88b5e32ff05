import Mathlib.Data.List.Infix
import Mathlib.Tactic.Common
import Rollout.Command.Discovery
import Rollout.Proofs.FileTree.Ancestors

/-!
# Where the workspace is found

The folder of a workspace is the nearest marked one from a path upward (`Nearest`). It is the same
from every path on the way up to it (`Nearest.onWay`), so a command finds it wherever between it
and the current folder the command is run (`found_from_anywhere`).
-/

namespace Rollout.Command

open Location

/-! ### Marks -/

/-- A folder holds an entry under a name. -/
def Holds (v : View) (folder : Path) (name : String) (e : Entry) : Prop :=
  ∃ l, v.locate (folder.child name) = .ok l ∧ v.tree.get? l = some e

/-- A folder holds the document or a configuration as a file, or anything as its repository. -/
def Marked (v : View) (document : String) (folder : Path) : Prop :=
  (∃ content, Holds v folder document (.file content)) ∨
    (∃ content, Holds v folder Config.fileName (.file content)) ∨
    ∃ e, Holds v folder repositoryName e

section

variable {v : View} {document : String}

theorem isFile_child_iff {folder : Path} {name : String} :
    v.isFile (folder.child name) ↔ ∃ content, Holds v folder name (.file content) := by
  rw [View.isFile_eq_true]
  refine exists_congr fun content => ⟨fun ⟨hl, hfile⟩ => ⟨_, hl, hfile⟩, fun ⟨l, hl, hfile⟩ => ?_⟩
  obtain rfl := View.locate_eq_spot hl
  exact ⟨hl, hfile⟩

theorem exists?_child_iff {folder : Path} {name : String} :
    v.exists? (folder.child name) ↔ ∃ e, Holds v folder name e := by
  constructor
  · intro h
    have hl := View.exists?_eq_true h
    obtain ⟨e, he⟩ := Option.ne_none_iff_exists'.1 (View.locate_eq_ok hl).2
    exact ⟨e, _, hl, he⟩
  · rintro ⟨e, l, hl, -⟩
    rw [View.exists?, hl]
    rfl

theorem isMarked_iff {folder : Path} : isMarked v document folder ↔ Marked v document folder := by
  rw [isMarked, Bool.or_eq_true, Bool.or_eq_true, isFile_child_iff, isFile_child_iff,
    exists?_child_iff, or_assoc]
  rfl

/-! ### The nearest one -/

/-- The nearest marked folder, so many folders above a path. -/
structure Nearest (v : View) (document : String) (start : Path) (n : Nat) (d : Path) : Prop where
  above : start.above? n = some d
  marked : Marked v document d
  unmarked : ∀ m < n, ∀ q, start.above? m = some q → ¬ Marked v document q

/-- On the way up to the nearest marked folder it is the nearest one too. -/
theorem Nearest.onWay {start d q : Path} {m n : Nat} (h : Nearest v document start n d)
    (hmn : m ≤ n) (hq : start.above? m = some q) : Nearest v document q (n - m) d where
  above := by
    have habove := h.above
    rwa [← Nat.add_sub_of_le hmn, Path.above?_add, hq, Option.bind_some] at habove
  marked := h.marked
  unmarked k hk q' hq' := by
    refine h.unmarked (m + k) (by omega) q' ?_
    rw [Path.above?_add, hq, Option.bind_some, hq']

theorem find?_ancestors_eq_some_iff {start d : Path} :
    start.ancestors.find? (isMarked v document) = some d ↔ ∃ n, Nearest v document start n d := by
  rw [List.find?_eq_some_iff_getElem]
  constructor
  · rintro ⟨hd, n, hn, hget, hbefore⟩
    refine ⟨n, ⟨?_, isMarked_iff.1 hd, fun m hm q hq hmarked => ?_⟩⟩
    · rw [← Path.getElem?_ancestors, List.getElem?_eq_getElem hn, hget]
    · rw [← Path.getElem?_ancestors, List.getElem?_eq_getElem (hm.trans hn)] at hq
      have hnot := hbefore m hm
      rw [Option.some.inj hq, isMarked_iff.2 hmarked] at hnot
      cases hnot
  · rintro ⟨n, h⟩
    have habove := h.above
    rw [← Path.getElem?_ancestors] at habove
    obtain ⟨hn, hget⟩ := List.getElem?_eq_some_iff.1 habove
    refine ⟨isMarked_iff.2 h.marked, n, hn, hget, fun m hm => ?_⟩
    have hlt : m < start.ancestors.length := hm.trans hn
    have hnot := h.unmarked m hm start.ancestors[m]
      (by rw [← Path.getElem?_ancestors, List.getElem?_eq_getElem])
    rwa [← isMarked_iff, Bool.not_eq_true, ← Bool.not_eq_true'] at hnot

theorem Nearest.discover {start d : Path} {n : Nat} (h : Nearest v document start n d) :
    discover v document start = d := by
  rw [Command.discover, find?_ancestors_eq_some_iff.2 ⟨n, h⟩, Option.getD_some]

/-- Either some folder is the nearest, or no folder is marked. -/
theorem discover_cases (v : View) (document : String) (start : Path) :
    (∃ n d, Nearest v document start n d) ∨
      (∀ n q, start.above? n = some q → ¬ Marked v document q) ∧
        discover v document start = start := by
  rw [discover]
  cases hfind : start.ancestors.find? (isMarked v document) with
  | some d =>
    obtain ⟨n, h⟩ := find?_ancestors_eq_some_iff.1 hfind
    exact .inl ⟨n, d, h⟩
  | none =>
    refine .inr ⟨fun n q hq hmarked => ?_, rfl⟩
    rw [← Path.getElem?_ancestors] at hq
    exact List.find?_eq_none.1 hfind q (List.mem_of_getElem? hq) (isMarked_iff.2 hmarked)

end

/-! ### From the current folder -/

section

variable {v : View} {document : String} {c l : Location}

theorem isAbsolute_child {p : Path} (h : p.isAbsolute) (name : String) :
    (p.child name).isAbsolute := by
  by_cases hname : (Path.mk name).isAbsolute
  · rw [Path.child, Path.join, if_pos (.inl hname)]
    exact hname
  · rw [Path.child, Path.isAbsolute_join p (by simpa using hname), h]

theorem root_find (v : View) (env : Config.Environment) (json : Bool) :
    (Context.find v env none json).root =
      discover v (markingDocument env) (.ofSegments true v.current) := by
  simp only [Context.find, Option.getD_none, currentFolder]

/-- What an absolute path leads to does not depend on the current folder. -/
theorem locate_of_isAbsolute {p : Path} (h : p.isAbsolute) (v : View) (c : Location) :
    View.locate { v with current := c } p = v.locate p := by
  simp only [View.locate, View.start, h, if_true]

theorem marked_of_isAbsolute {folder : Path} (h : folder.isAbsolute) :
    Marked { v with current := c } document folder ↔ Marked v document folder := by
  simp only [Marked, Holds, locate_of_isAbsolute (isAbsolute_child h _)]

/-- The nearest marked folder of a location, by the locations from it down to there. -/
theorem nearest_ofSegments (hc : ∀ n ∈ c, Path.IsName n) (hl : l <+: c)
    (hmarked : Marked v document (.ofSegments true l))
    (hunmarked : ∀ k, l <+: k → k <+: c → Marked v document (.ofSegments true k) → k = l) :
    Nearest v document (.ofSegments true c) (c.length - l.length) (.ofSegments true l) := by
  obtain ⟨r, rfl⟩ := hl
  rw [List.length_append, Nat.add_sub_cancel_left]
  refine ⟨Path.above?_ofSegments hc, hmarked, fun m hm q hq hq' => ?_⟩
  obtain ⟨k, s, hsplit, hs, rfl⟩ := Path.exists_of_above?_ofSegments hc hq
  have hk : k <+: l ++ r := ⟨s, hsplit.symm⟩
  have hlength := congrArg List.length hsplit
  rw [List.length_append, List.length_append, hs] at hlength
  have hlk : l <+: k := List.prefix_of_prefix_length_le (List.prefix_append l r) hk (by omega)
  obtain rfl := hunmarked k hlk hk hq'
  omega

end

/-- The folder of a workspace is the nearest marked one from a path upward, and from every path on
the way to it; without a marked one it is the path itself. So a command that is run in a folder
between the nearest marked one and the current folder finds the same folder. -/
theorem found_from_anywhere :
    (∀ (v : View) (document : String) (start : Path),
      (∃ n d, Nearest v document start n d ∧
        ∀ m ≤ n, ∀ q, start.above? m = some q → discover v document q = d) ∨
      (∀ n q, start.above? n = some q → ¬ Marked v document q) ∧
        discover v document start = start) ∧
    ∀ (v : View) (env : Config.Environment) (json : Bool) (l : Location), v.Proper →
      l <+: v.current → Marked v (markingDocument env) (.ofSegments true l) →
      (∀ k, l <+: k → k <+: v.current →
        Marked v (markingDocument env) (.ofSegments true k) → k = l) →
      ∀ c, l <+: c → c <+: v.current →
        (Context.find { v with current := c } env none json).root = .ofSegments true l := by
  refine ⟨fun v document start => ?_, fun v env json l hv hl hmarked hunmarked c hlc hc => ?_⟩
  · rcases discover_cases v document start with ⟨n, d, h⟩ | h
    · exact .inl ⟨n, d, h, fun m hm q hq => (h.onWay hm hq).discover⟩
    · exact .inr h
  · have hnames : ∀ n ∈ c, Path.IsName n := fun n hn => hv n (hc.subset hn)
    have habsolute (k : Location) : (Path.ofSegments true k).isAbsolute :=
      Disk.isAbsolute_ofSegments k
    rw [root_find]
    refine (nearest_ofSegments hnames hlc ((marked_of_isAbsolute (habsolute l)).2 hmarked)
      fun k hlk hkc hk => ?_).discover
    exact hunmarked k hlk (hkc.trans hc) ((marked_of_isAbsolute (habsolute k)).1 hk)

/-- A configured folder in a repository, seen from a folder below it. -/
def configuredInRepository : View where
  tree := ⟨[("r", .folder [(".git", .folder []), ("w", .folder [
    ("apps", .folder [("api", .folder [])]), ("keel.toml", .file (.text ""))])])]⟩
  current := ["r", "w", "apps", "api"]

/-- On the way to it the configured folder is found, not the repository's above it. -/
theorem configured_found :
    (Context.find { configuredInRepository with current := ["r", "w", "apps"] } (fun _ => none)
      none false).root = ⟨"/r/w"⟩ := by
  have honly : ∀ k ∈ configuredInRepository.current.inits, ["r", "w"] <+: k →
      isMarked configuredInRepository "keel.json" (.ofSegments true k) → k = ["r", "w"] := by
    decide +kernel
  exact found_from_anywhere.2 configuredInRepository (fun _ => none) false ["r", "w"] (by decide)
    (by decide) (isMarked_iff.1 (by decide +kernel))
    (fun k hlk hk hmarked => honly k ((List.mem_inits k _).2 hk) hlk (isMarked_iff.2 hmarked))
    ["r", "w", "apps"] (by decide) (by decide)

end Rollout.Command

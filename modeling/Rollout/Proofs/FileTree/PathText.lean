import Rollout.FileTree.Disk
import Rollout.Proofs.FileTree.Walk
import Rollout.Proofs.Text.Split

/-!
# Paths as texts

What the operations on the text of a path do to the location that it leads to: joining appends
to the walk (`spot_join`), the folder of a path leads one step less far (`spot_folder`), and a
path seen from the top leads where it led before (`spot_fromTop`).
-/

namespace Rollout

open Location

namespace Path

/-- What the name of an entry can be. -/
def IsName (name : String) : Prop :=
  name ≠ "" ∧ name ≠ "." ∧ name ≠ ".." ∧ '/' ∉ name.toList

instance (name : String) : Decidable (IsName name) :=
  inferInstanceAs (Decidable (_ ∧ _ ∧ _ ∧ _))

theorem IsName.step {name : String} (h : IsName name) (l : Location) :
    Location.step l name = l ++ [name] := by
  obtain ⟨h₁, h₂, h₃, -⟩ := h
  simp [Location.step, isIdle, h₁, h₂, h₃]

theorem walk_names {l : Location} {names : List String} (h : ∀ n ∈ names, IsName n) :
    walk l names = l ++ names := by
  induction names generalizing l with
  | nil => simp
  | cons n names ih =>
    rw [walk_cons, (h n (by simp)).step, ih fun m hm => h m (by simp [hm])]
    simp

/-- The text whose pieces are the segments. -/
def body (p : Path) : List Char := if p.isAbsolute then p.text.toList.drop 1 else p.text.toList

theorem segments_eq (p : Path) : p.segments = (Text.splitOn '/' p.body).map String.ofList := rfl

theorem segments_of_text_eq_empty {p : Path} (h : p.text = "") : p.segments = [""] := by
  rw [segments_eq, body, isAbsolute, h]
  rfl

theorem segments_ne_nil (p : Path) : p.segments ≠ [] := by
  simp [segments_eq, Text.splitOn_ne_nil]

theorem not_mem_segments {p : Path} : ∀ s ∈ p.segments, '/' ∉ s.toList := by
  intro s hs
  obtain ⟨piece, hp, rfl⟩ := List.mem_map.1 (p.segments_eq ▸ hs)
  simpa using Text.not_mem_of_mem_splitOn piece hp

theorem toList_eq (p : Path) :
    p.text.toList = (if p.isAbsolute then ['/'] else []) ++ p.body := by
  unfold body isAbsolute
  cases h : p.text.toList with
  | nil => simp
  | cons c cs =>
    by_cases hc : c = '/' <;> simp [hc]

theorem joinWith_segments (p : Path) :
    Text.joinWith '/' (p.segments.map String.toList) = p.body := by
  have h : p.segments.map String.toList = Text.splitOn '/' p.body := by
    rw [segments_eq, List.map_map]
    exact (List.map_congr_left fun x _ => String.toList_ofList).trans (List.map_id _)
  rw [h, Text.joinWith_splitOn]

/-- A path is made up of its segments. -/
theorem ofSegments_segments (p : Path) : ofSegments p.isAbsolute p.segments = p := by
  cases p with
  | mk text =>
    unfold ofSegments
    congr 1
    apply String.toList_inj.1
    rw [String.toList_append, Text.toList_joined, joinWith_segments]
    refine Eq.trans ?_ (toList_eq ⟨text⟩).symm
    split <;> rfl

/-- The segments of a path that is made up of them. A relative path does not start with an
empty one. -/
theorem segments_ofSegments {absolute : Bool} {names : List String} (hne : names ≠ [])
    (h : ∀ n ∈ names, '/' ∉ n.toList) (hrel : absolute = false → names.head? ≠ some "") :
    (ofSegments absolute names).segments = names ∧
      (ofSegments absolute names).isAbsolute = absolute := by
  have htext : (ofSegments absolute names).text.toList =
      (if absolute then ['/'] else []) ++ Text.joinWith '/' (names.map String.toList) := by
    unfold ofSegments
    rw [String.toList_append, Text.toList_joined]
    cases absolute <;> rfl
  have habs : (ofSegments absolute names).isAbsolute = absolute := by
    unfold isAbsolute
    rw [htext]
    cases absolute with
    | true => simp
    | false =>
      obtain ⟨n, ns, rfl⟩ := List.exists_cons_of_ne_nil hne
      have hn : n.toList ≠ [] := by
        intro hn
        exact hrel rfl (by simpa using hn)
      obtain ⟨c, cs, hc⟩ := List.exists_cons_of_ne_nil hn
      have : c ≠ '/' := by
        rintro rfl
        exact h n (by simp) (by simp [hc])
      cases ns <;> simp [Text.joinWith, hc, this]
  refine ⟨?_, habs⟩
  have hbody : (ofSegments absolute names).body = Text.joinWith '/' (names.map String.toList) := by
    unfold body
    rw [habs, htext]
    cases absolute <;> simp
  rw [segments_eq, hbody, Text.splitOn_joinWith (by simpa using hne)]
  · simp [Function.comp_def]
  · simpa using h

/-! ### Joining -/

/-- A relative path is written after a slash, unless there is nothing before it or a slash is
there already. -/
theorem body_join (p : Path) {rel : Path} (h : rel.isAbsolute = false) :
    (p.join rel).isAbsolute = p.isAbsolute ∧
      (p.body = [] ∧ (p.join rel).body = rel.body ∨
        ∃ b, (p.body = b ∨ p.body = b ++ ['/']) ∧ (p.join rel).body = b ++ '/' :: rel.body) := by
  have hrel : rel.text.toList.head? ≠ some '/' := by simpa [isAbsolute] using h
  unfold join
  by_cases hp : p.text = ""
  · have hbody : p.body = [] := by simp [body, isAbsolute, hp]
    have habs : p.isAbsolute = false := by simp [isAbsolute, hp]
    rw [if_pos (.inr hp)]
    exact ⟨h.trans habs.symm, .inl ⟨hbody, rfl⟩⟩
  · rw [if_neg (by simp [h, hp])]
    have hne : p.text.toList ≠ [] := by simpa using hp
    split
    · rename_i hslash
      obtain ⟨q, hq⟩ : ∃ q, p.text.toList = q ++ ['/'] := by
        rcases List.eq_nil_or_concat p.text.toList with hn | ⟨q, c, hq⟩
        · exact absurd hn hne
        · rw [hq] at hslash
          exact ⟨q, by simpa [hq] using hslash⟩
      cases q with
      | nil => simp [isAbsolute, body, hq, hrel]
      | cons c q =>
        by_cases hc : c = '/'
        · simp [isAbsolute, body, hq, hrel, hc]
        · simp only [isAbsolute, body, hq, hrel, String.toList_append]
          simp [hc]
          exact ⟨c :: q, rfl, rfl⟩
    · obtain ⟨c, q, hq⟩ := List.exists_cons_of_ne_nil hne
      by_cases hc : c = '/' <;> simp [isAbsolute, body, hq, hrel, hc]

/-- The segments of a joined path: those of the first, an empty one at the end aside, and then
those of the second. -/
theorem segments_join (p : Path) {rel : Path} (h : rel.isAbsolute = false) :
    ∃ xs ys, p.segments = xs ++ ys ∧ (∀ y ∈ ys, isIdle y) ∧
      (p.join rel).segments = xs ++ rel.segments := by
  rcases (body_join p h).2 with ⟨hp, hj⟩ | ⟨b, hp, hj⟩
  · refine ⟨[], [""], ?_, by simp [isIdle], ?_⟩
    · simp [segments_eq, hp, Text.splitOn]
    · simp [segments_eq, hj]
  · have hj : (p.join rel).segments = (Text.splitOn '/' b).map String.ofList ++ rel.segments := by
      simp [segments_eq, hj, Text.splitOn_append]
    rcases hp with hp | hp
    · exact ⟨_, [], by simp [segments_eq, hp], by simp, hj⟩
    · refine ⟨_, [""], ?_, by simp [isIdle], hj⟩
      simp [segments_eq, hp, Text.splitOn_append, Text.splitOn]

theorem isAbsolute_join (p : Path) {rel : Path} (h : rel.isAbsolute = false) :
    (p.join rel).isAbsolute = p.isAbsolute := (body_join p h).1

theorem origin_join (p : Path) {rel : Path} (h : rel.isAbsolute = false) (c : Location) :
    (p.join rel).origin c = p.origin c := by
  simp only [origin, isAbsolute_join p h]

/-- What stands between a path and a relative one that is joined to it. -/
def separator (p : Path) : String := if p.text.toList.getLast? = some '/' then "" else "/"

theorem text_join_relative {p q : Path} (hp : p.text ≠ "") (hq : q.isAbsolute = false) :
    (p.join q).text = p.text ++ p.separator ++ q.text := by
  unfold join separator
  rw [if_neg (by simp [hp, hq])]
  split <;> simp

theorem text_join_ne (p : Path) {q : Path} (h : q.text ≠ "") : (p.join q).text ≠ "" := by
  unfold join
  split_ifs <;> simp [h]

theorem getLast?_separated (p : Path) :
    (p.text ++ p.separator).toList.getLast? = some '/' := by
  unfold separator
  split
  · rename_i h
    simpa using h
  · simp

/-- Joining paths one by one is joining to the first what the others make. -/
theorem join_assoc (p q r : Path) : (p.join q).join r = p.join (q.join r) := by
  by_cases hr : r.isAbsolute
  · simp [join, hr]
  have hr : r.isAbsolute = false := by simpa using hr
  by_cases hq : q.isAbsolute
  · have hqr : (q.join r).isAbsolute := by rw [isAbsolute_join q hr, hq]
    simp [join.eq_def p, hq, hqr]
  have hq : q.isAbsolute = false := by simpa using hq
  by_cases hp : p.text = ""
  · simp [join.eq_def p, hp]
  have hqr : (q.join r).isAbsolute = false := by rw [isAbsolute_join q hr, hq]
  have hpq := text_join_relative hp hq
  have hpq' : (p.join q).text ≠ "" := by
    intro h
    rw [hpq] at h
    simp [hp] at h
  refine congrArg Path.mk (?_ : ((p.join q).join r).text = (p.join (q.join r)).text)
  rw [text_join_relative hpq' hr, text_join_relative hp hqr]
  by_cases hqe : q.text = ""
  · have hlast : (p.join q).separator = "" := by
      rw [separator, hpq, hqe, String.append_empty, if_pos (getLast?_separated p)]
    rw [hlast, hpq, hqe, join.eq_def q, if_pos (.inr hqe)]
    simp
  · have hlast : (p.join q).separator = q.separator := by
      have hne : q.text.toList ≠ [] := by simpa using hqe
      rw [separator, separator, hpq, String.toList_append, List.getLast?_append, List.getLast?_eq_some_getLast hne, Option.some_or]
    rw [hlast, hpq, text_join_relative hqe hr]
    simp only [String.append_assoc]

/-- Where a path leads to a folder, what is joined to it leads on from there. -/
theorem follow_join {t : Tree} {dest rel : Path} (h : rel.isAbsolute = false) {c l : Location}
    (hl : t.follow (dest.origin c) dest.segments = .ok l) :
    t.follow ((dest.join rel).origin c) (dest.join rel).segments = t.follow l rel.segments := by
  obtain ⟨xs, ys, hdest, hys, hjoin⟩ := segments_join dest h
  rw [hdest, Tree.follow_append] at hl
  rw [origin_join dest h, hjoin, Tree.follow_append]
  cases hxs : t.follow (dest.origin c) xs with
  | error e =>
    rw [hxs] at hl
    cases hl
  | ok l' =>
    rw [hxs] at hl
    obtain rfl : l = l' := (Tree.follow_eq_ok hl).1.trans (walk_idle hys)
    rfl

/-- A joined path leads on from where the first leads. -/
theorem spot_join (p : Path) {rel : Path} (h : rel.isAbsolute = false) (c : Location) :
    (p.join rel).spot c = walk (p.spot c) rel.segments := by
  obtain ⟨xs, ys, hp, hys, hj⟩ := segments_join p h
  rw [spot, spot, origin_join p h, hj, hp, walk_append, walk_append, walk_idle hys]

theorem mem_trail_idle {l s : Location} {names : List String} (h : ∀ n ∈ names, isIdle n)
    (hs : s ∈ trail l names) : s = l := by
  induction names generalizing l with
  | nil => simp [trail] at hs
  | cons n names ih =>
    have hn : step l n = l := if_pos (h n (by simp))
    rw [trail, hn] at hs
    rcases List.mem_cons.1 hs with rfl | hs
    · rfl
    · exact ih (fun m hm => h m (by simp [hm])) hs

/-- The trail of a joined path is that of the first and then that of the second. -/
theorem mem_trail_join (p : Path) {rel : Path} (h : rel.isAbsolute = false) (c s : Location) :
    (s ∈ trail ((p.join rel).origin c) (p.join rel).segments →
        s ∈ trail (p.origin c) p.segments ∨ s ∈ trail (p.spot c) rel.segments) ∧
      (s ∈ trail (p.origin c) p.segments →
        s ∈ trail ((p.join rel).origin c) (p.join rel).segments ∨ s = p.spot c) ∧
      (s ∈ trail (p.spot c) rel.segments →
        s ∈ trail ((p.join rel).origin c) (p.join rel).segments) := by
  obtain ⟨xs, ys, hp, hys, hj⟩ := segments_join p h
  have hspot : p.spot c = walk (p.origin c) xs := by
    rw [spot, hp, walk_append, walk_idle hys]
  rw [origin_join p h, hj, hp, trail_append, trail_append, ← hspot]
  refine ⟨fun hs => ?_, fun hs => ?_, fun hs => List.mem_append_right _ hs⟩
  · rcases List.mem_append.1 hs with hs | hs
    · exact .inl (List.mem_append_left _ hs)
    · exact .inr hs
  · rcases List.mem_append.1 hs with hs | hs
    · exact .inl (List.mem_append_left _ hs)
    · exact .inr (mem_trail_idle hys hs)

section Child

variable {name : String} (h : IsName name)
include h

theorem isAbsolute_name : (Path.mk name).isAbsolute = false := by
  obtain ⟨-, -, -, h⟩ := h
  cases hc : name.toList with
  | nil => simp [isAbsolute, hc]
  | cons c cs => simp [isAbsolute, hc, show c ≠ '/' by rintro rfl; exact h (by simp [hc])]

theorem segments_name : (Path.mk name).segments = [name] := by
  rw [segments_eq, body, isAbsolute_name h]
  simp [Text.splitOn_of_not_mem h.2.2.2]

theorem spot_child (p : Path) (c : Location) : (p.child name).spot c = p.spot c ++ [name] := by
  rw [child, spot_join p (isAbsolute_name h), segments_name h, walk_cons, h.step, walk_nil]

theorem trail_child (p : Path) (c s : Location) :
    (s ∈ trail ((p.child name).origin c) (p.child name).segments ↔
      s ∈ trail (p.origin c) p.segments ∨ s = p.spot c) := by
  obtain ⟨h₁, h₂, h₃⟩ := mem_trail_join p (isAbsolute_name h) c s
  rw [segments_name h] at h₁ h₃
  constructor
  · intro hs
    simpa [trail] using h₁ hs
  · rintro (hs | rfl)
    · rcases h₂ hs with hs | rfl
      · exact hs
      · exact h₃ (by simp [trail])
    · exact h₃ (by simp [trail])

end Child

/-! ### Folders of paths -/

theorem dropIdleEnd_eq (absolute : Bool) (names : List String) :
    ∃ idle, names = idle ++ dropIdleEnd absolute names ∧ ∀ n ∈ idle, isIdle n := by
  induction names with
  | nil => exact ⟨[], rfl, by simp⟩
  | cons name rest ih =>
    obtain ⟨idle, hrest, hidle⟩ := ih
    cases rest with
    | nil =>
      rw [dropIdleEnd]
      split
      · rename_i h
        refine ⟨[name], rfl, ?_⟩
        rcases h with rfl | ⟨rfl, -⟩ <;> simp [isIdle]
      · exact ⟨[], rfl, by simp⟩
    | cons m rest =>
      rw [dropIdleEnd]
      · split
        · rename_i h
          refine ⟨name :: idle, by rw [List.cons_append, ← hrest], ?_⟩
          simpa [h] using hidle
        · exact ⟨[], rfl, by simp⟩
      · simp

theorem dropIdleEnd_cons {absolute : Bool} {name : String} (h : isIdle name = false)
    (names : List String) : dropIdleEnd absolute (name :: names) = name :: names := by
  have : name ≠ "" ∧ name ≠ "." := by simpa [isIdle] using h
  cases names <;> simp [dropIdleEnd, h, this]

theorem head?_segments {p : Path} (h : p.isAbsolute = false) (hp : p.text ≠ "") :
    p.segments.head? ≠ some "" := by
  have hne : p.text.toList ≠ [] := by simpa using hp
  obtain ⟨c, cs, hc⟩ := List.exists_cons_of_ne_nil hne
  have hc' : c ≠ '/' := by simpa [isAbsolute, hc] using h
  rw [segments_eq, body, if_neg (by simp [h]), hc, Text.splitOn, if_neg hc']
  cases hs : Text.splitOn '/' cs with
  | nil => exact absurd hs (Text.splitOn_ne_nil _ _)
  | cons piece rest => simp

/-- The first segments of a path make up a path on their own. -/
theorem segments_ofSegments_of_append {p : Path} (hp : p.text ≠ "") {kept rest : List String}
    (h : p.segments = kept ++ rest) (hk : kept ≠ []) :
    (ofSegments p.isAbsolute kept).segments = kept ∧
      (ofSegments p.isAbsolute kept).isAbsolute = p.isAbsolute ∧
      (ofSegments p.isAbsolute kept).text ≠ "" := by
  have hmem : ∀ n ∈ kept, '/' ∉ n.toList := fun n hn =>
    not_mem_segments (p := p) n (h ▸ List.mem_append_left _ hn)
  have hhead : p.isAbsolute = false → kept.head? ≠ some "" := by
    intro habs
    have hfirst := head?_segments habs hp
    obtain ⟨n, ns, rfl⟩ := List.exists_cons_of_ne_nil hk
    rw [h] at hfirst
    simpa using hfirst
  obtain ⟨hsegs, habs⟩ := segments_ofSegments hk hmem hhead
  refine ⟨hsegs, habs, fun he => ?_⟩
  have hempty := segments_of_text_eq_empty he
  have hrelative : p.isAbsolute = false := by
    rw [← habs, isAbsolute, he]
    rfl
  rw [hsegs] at hempty
  exact hhead hrelative (by simp [hempty])

/-- The folder above a path that ends in a name has the segments before that, idle ones at the
end aside. -/
theorem parent?_eq {p : Path} {names slashes : List String} {last : String}
    (h : p.segments = names ++ last :: slashes) (hslashes : ∀ s ∈ slashes, s = "")
    (hlast : isIdle last = false) :
    p.parent? = some (ofSegments p.isAbsolute (dropIdleEnd p.isAbsolute names.reverse).reverse) := by
  have hdrop (xs : List String) (hxs : ∀ s ∈ xs, s = "") :
      dropIdleEnd p.isAbsolute (xs ++ last :: names.reverse) = last :: names.reverse := by
    induction xs with
    | nil => exact dropIdleEnd_cons hlast _
    | cons x xs ih =>
      obtain rfl : x = "" := hxs x (by simp)
      obtain ⟨y, ys, hys⟩ := List.exists_cons_of_ne_nil (l := xs ++ last :: names.reverse) (by simp)
      rw [List.cons_append, hys, dropIdleEnd, if_pos (by decide), ← hys,
        ih fun s hs => hxs s (by simp [hs])]
      simp
  have hreverse : p.segments.reverse = slashes.reverse ++ last :: names.reverse := by simp [h]
  rw [parent?, hreverse, hdrop _ (by simpa using hslashes)]

/-- The folder of a path has the segments before the last, idle ones at the end aside. -/
theorem segments_folder {p : Path} (hp : p.text ≠ "") {names : List String} {last : String}
    (h : p.segments = names ++ [last]) (hlast : isIdle last = false) :
    ∃ kept idle rest, names = kept ++ idle ∧ p.folder.segments = kept ++ rest ∧
      (∀ n ∈ idle, isIdle n) ∧ (∀ n ∈ rest, isIdle n) ∧
      p.folder.isAbsolute = p.isAbsolute := by
  obtain ⟨idle, hnames, hidle⟩ := dropIdleEnd_eq p.isAbsolute names.reverse
  have hparent := parent?_eq h (by simp) hlast
  generalize (dropIdleEnd p.isAbsolute names.reverse) = dropped at hnames hparent
  generalize hkept : dropped.reverse = kept at hparent
  have hsplit : names = kept ++ idle.reverse := by
    rw [← hkept, ← List.reverse_append, ← hnames, List.reverse_reverse]
  have hfolder : p.folder =
      if (ofSegments p.isAbsolute kept).text = "" then ⟨"."⟩ else ofSegments p.isAbsolute kept := by
    rw [folder, hparent]
  refine ⟨kept, idle.reverse, ?_⟩
  have hidle : ∀ n ∈ idle.reverse, isIdle n := by simpa using hidle
  by_cases hk : kept = []
  · subst hk
    rw [hfolder]
    cases p.isAbsolute with
    | true => exact ⟨[""], hsplit, rfl, hidle, by simp [isIdle], rfl⟩
    | false => exact ⟨["."], hsplit, rfl, hidle, by simp [isIdle], rfl⟩
  · rw [hsplit, List.append_assoc] at h
    obtain ⟨hsegs, habs, hne⟩ := segments_ofSegments_of_append hp h hk
    rw [hfolder, if_neg hne]
    exact ⟨[], hsplit, by rw [hsegs, List.append_nil], hidle, by simp, habs⟩

/-- The folder of a path leads where the names before the last of the path lead. -/
theorem spot_folder {p : Path} (hp : p.text ≠ "") {names : List String} {last : String}
    (h : p.segments = names ++ [last]) (hlast : isIdle last = false) (c : Location) :
    p.folder.spot c = walk (p.origin c) names ∧
      ∀ s ∈ trail (p.folder.origin c) p.folder.segments, s ∈ trail (p.origin c) p.segments := by
  obtain ⟨kept, idle, rest, hnames, hsegs, hidle, hrest, habs⟩ := segments_folder hp h hlast
  have ho : p.folder.origin c = p.origin c := by simp only [origin, habs]
  refine ⟨?_, fun s hs => ?_⟩
  · rw [spot, ho, hsegs, hnames, walk_append, walk_append, walk_idle hrest, walk_idle hidle]
  · rw [ho, hsegs, trail_append] at hs
    rw [h, hnames, List.append_assoc, trail_append]
    rcases List.mem_append.1 hs with hs | hs
    · exact List.mem_append_left _ hs
    · rw [mem_trail_idle hrest hs]
      refine List.mem_append_right _ ?_
      cases idle <;> simp [trail]

/-- Where the names before the last of a path lead to a folder, the folder of the path leads
there. -/
theorem follow_folder {t : Tree} {p : Path} (hp : p.text ≠ "") {names : List String}
    {last : String} (h : p.segments = names ++ [last]) (hlast : isIdle last = false)
    {c l : Location} (hl : t.follow (p.origin c) names = .ok l) (hfolder : t.isFolder l) :
    t.follow (p.folder.origin c) p.folder.segments = .ok l := by
  obtain ⟨kept, idle, rest, rfl, hsegs, hidle, hrest, habs⟩ := segments_folder hp h hlast
  have ho : p.folder.origin c = p.origin c := by simp only [origin, habs]
  rw [Tree.follow_append] at hl
  rw [ho, hsegs, Tree.follow_append]
  cases hkept : t.follow (p.origin c) kept with
  | error e =>
    rw [hkept] at hl
    cases hl
  | ok k =>
    rw [hkept] at hl
    obtain rfl : l = k := (Tree.follow_eq_ok hl).1.trans (walk_idle hidle)
    exact Tree.follow_idle hfolder hrest

/-- The folder above a path has the segments before the last named one, idle ones at the end aside,
or none but an empty one. -/
theorem segments_of_parent? {p q : Path} (h : p.parent? = some q) :
    ∃ last rest, dropIdleEnd p.isAbsolute p.segments.reverse = last :: rest ∧
      q.isAbsolute = p.isAbsolute ∧
      (q.segments = [""] ∨ q.segments = (dropIdleEnd p.isAbsolute rest).reverse) := by
  obtain ⟨idle, hsegs, -⟩ := dropIdleEnd_eq p.isAbsolute p.segments.reverse
  rw [parent?] at h
  generalize dropIdleEnd p.isAbsolute p.segments.reverse = kept at h hsegs
  cases kept with
  | nil => cases h
  | cons last rest =>
    obtain ⟨idle', hrest, -⟩ := dropIdleEnd_eq p.isAbsolute rest
    simp only [Option.some.injEq] at h
    refine ⟨last, rest, rfl, ?_⟩
    generalize dropIdleEnd p.isAbsolute rest = names at h hrest
    have hstart : p.segments = names.reverse ++ (idle'.reverse ++ last :: idle.reverse) := by
      rw [← List.reverse_reverse p.segments, hsegs, hrest]
      simp
    rw [← h]
    by_cases hnames : names = []
    · subst hnames
      have habsolute : (ofSegments p.isAbsolute [].reverse).isAbsolute = p.isAbsolute := by
        cases p.isAbsolute <;> rfl
      have hempty : (ofSegments p.isAbsolute [].reverse).segments = [""] := by
        cases p.isAbsolute <;> rfl
      exact ⟨habsolute, .inl hempty⟩
    · have htext : p.text ≠ "" := by
        intro htext
        have hlength := congrArg List.length (hstart.symm.trans (segments_of_text_eq_empty htext))
        obtain ⟨n, ns, rfl⟩ := List.exists_cons_of_ne_nil hnames
        simp at hlength
        omega
      obtain ⟨hkept, habsolute, -⟩ :=
        segments_ofSegments_of_append htext hstart (by simpa using hnames)
      exact ⟨habsolute, .inr hkept⟩

/-- The folder above a path has no other names than the path. -/
theorem mem_segments_parent? {p q : Path} (h : p.parent? = some q) :
    ∀ n ∈ q.segments, n ∈ p.segments ∨ n = "" := by
  obtain ⟨last, rest, hkept, -, hq | hq⟩ := segments_of_parent? h
  · intro n hn
    rw [hq] at hn
    exact .inr (List.mem_singleton.1 hn)
  · obtain ⟨idle, hsegs, -⟩ := dropIdleEnd_eq p.isAbsolute p.segments.reverse
    obtain ⟨idle', hrest, -⟩ := dropIdleEnd_eq p.isAbsolute rest
    intro n hn
    rw [hq, List.mem_reverse] at hn
    have hmem : n ∈ p.segments.reverse := by
      rw [hsegs, hkept, hrest]
      simp [hn]
    exact .inl (List.mem_reverse.1 hmem)

/-- The folder of an entry of a folder with a plain name is that folder. -/
theorem parent?_child_child {name inner : String} (h : IsName name) (hi : IsName inner) (p : Path) :
    ((p.child name).child inner).parent? = some (p.child name) := by
  have hidle {s : String} (h : IsName s) : isIdle s = false := by
    obtain ⟨h₁, h₂, -⟩ := h
    simp [isIdle, h₁, h₂]
  obtain ⟨xs, ys, -, -, hsegs⟩ := segments_join p (isAbsolute_name h)
  rw [segments_name h, ← child] at hsegs
  obtain ⟨xs', ys', hsplit, hys, hsegs'⟩ := segments_join (p.child name) (isAbsolute_name hi)
  rw [segments_name hi, ← child] at hsegs'
  have hxs : xs' = xs ++ [name] := by
    rcases List.eq_nil_or_concat ys' with rfl | ⟨zs, y, rfl⟩
    · rw [← hsegs, hsplit, List.append_nil]
    · exfalso
      rw [hsegs, List.concat_eq_append, ← List.append_assoc] at hsplit
      have hy : name = y := by simpa using (List.append_inj' hsplit rfl).2
      have := hys y (by simp)
      rw [← hy, hidle h] at this
      cases this
  have habs : ((p.child name).child inner).isAbsolute = (p.child name).isAbsolute :=
    isAbsolute_join _ (isAbsolute_name hi)
  rw [parent?, habs, hsegs', hxs, List.reverse_append,
    List.reverse_singleton, List.singleton_append, dropIdleEnd_cons (hidle hi),
    List.reverse_append, List.reverse_singleton, List.singleton_append]
  simp only [dropIdleEnd_cons (hidle h)]
  rw [List.reverse_cons, List.reverse_reverse, ← hsegs, ofSegments_segments]

/-! ### The last name of a path -/

/-- The segments of a path without the slashes at its end, the last one first. -/
def ending (p : Path) : List String := p.segments.reverse.dropWhile (· = "")

/-- The last segment of a path, slashes at its end aside. -/
def last? (p : Path) : Option String := p.ending.head?

/-- The segments before the last one. -/
def lead (p : Path) : List String := p.ending.tail.reverse

section Last

variable {p : Path} {last : String}

theorem ending_eq (h : p.last? = some last) : p.ending = last :: p.lead.reverse := by
  obtain ⟨rest, hrest⟩ := List.head?_eq_some_iff.1 h
  simp [lead, hrest]

theorem last?_ne (h : p.last? = some last) : last ≠ "" := by
  rintro rfl
  have hhead := List.head?_dropWhile_not (· = "") p.segments.reverse
  rw [← ending, ← last?, h] at hhead
  simp at hhead

theorem segments_lead (h : p.last? = some last) :
    ∃ slashes, p.segments = p.lead ++ last :: slashes ∧ ∀ s ∈ slashes, s = "" := by
  have hsplit := List.takeWhile_append_dropWhile (p := (· = "")) (l := p.segments.reverse)
  have hslashes := List.all_takeWhile (p := (· = "")) (l := p.segments.reverse)
  rw [← ending, ending_eq h] at hsplit
  refine ⟨(p.segments.reverse.takeWhile (· = "")).reverse, ?_, fun s hs => ?_⟩
  · simpa using (congrArg List.reverse hsplit).symm
  · simpa using List.all_eq_true.1 hslashes s (by simpa using hs)

theorem last?_eq {before after : List String} (h : p.segments = before ++ last :: after)
    (hafter : ∀ s ∈ after, s = "") (hlast : last ≠ "") :
    p.last? = some last ∧ p.lead = before := by
  have hending : p.ending = last :: before.reverse := by
    have hreverse : p.segments.reverse = after.reverse ++ (last :: before.reverse) := by simp [h]
    rw [ending, hreverse, List.dropWhile_append_of_pos (by simpa using hafter)]
    simp [hlast]
  simp [last?, lead, hending]

/-- A path with a last name leads to an entry with that name. -/
theorem spot_lead (h : p.last? = some last) (hidle : isIdle last = false) (hup : last ≠ "..")
    (c : Location) : p.spot c = walk (p.origin c) p.lead ++ [last] := by
  obtain ⟨slashes, hsegs, hslashes⟩ := segments_lead h
  have hidles : ∀ s ∈ slashes, isIdle s := fun s hs => by simp [hslashes s hs, isIdle]
  rw [spot, hsegs, walk_append, walk_cons, step_into _ (by simp [hidle]) hup, walk_idle hidles]

end Last

end Path

/-! ### Paths from the top -/

/-- The names of the current folder can be names of entries. -/
def View.Proper (v : View) : Prop := ∀ n ∈ v.current, Path.IsName n

instance (v : View) : Decidable v.Proper :=
  inferInstanceAs (Decidable (∀ n ∈ v.current, Path.IsName n))

/-- Where a path leads from there, the names can be names of entries too. -/
theorem View.Proper.isName_spot {v : View} (h : v.Proper) (p : Path) :
    ∀ n ∈ p.spot v.current, Path.IsName n := by
  have hwalk (names : List String) (hnames : ∀ n ∈ names, '/' ∉ n.toList) {l : Location}
      (hl : ∀ n ∈ l, Path.IsName n) : ∀ n ∈ walk l names, Path.IsName n := by
    induction names generalizing l with
    | nil => exact hl
    | cons name names ih =>
      refine ih (fun n hn => hnames n (by simp [hn])) fun n hn => ?_
      unfold Location.step at hn
      split_ifs at hn with hidle hup
      · exact hl n hn
      · exact hl n (List.dropLast_subset l hn)
      · rcases List.mem_append.1 hn with hn | hn
        · exact hl n hn
        · obtain rfl := List.mem_singleton.1 hn
          simp only [Path.isIdle, Bool.or_eq_true, decide_eq_true_eq, not_or] at hidle
          exact ⟨hidle.1, hidle.2, hup, hnames n (by simp)⟩
  refine hwalk p.segments Path.not_mem_segments fun n hn => ?_
  unfold Path.origin at hn
  split at hn
  · cases hn
  · exact h n hn

namespace Disk

theorem isAbsolute_ofSegments (names : List String) : (Path.ofSegments true names).isAbsolute := by
  simp [Path.isAbsolute, Path.ofSegments]

theorem isAbsolute_fromTop (v : View) (p : Path) : (fromTop v p).isAbsolute := by
  unfold fromTop
  split
  · assumption
  · rename_i h
    rw [Path.isAbsolute_join _ (by simpa using h)]
    exact isAbsolute_ofSegments _

/-- The text of a location leads there. -/
theorem spot_current {v : View} (h : v.Proper) (c : Location) :
    (Path.ofSegments true v.current).spot c = v.current := by
  have ho : (Path.ofSegments true v.current).origin c = [] := if_pos (isAbsolute_ofSegments _)
  rw [Path.spot, ho]
  cases hc : v.current with
  | nil => rfl
  | cons n ns =>
    have hnames : ∀ m ∈ n :: ns, Path.IsName m := by
      rw [← hc]
      exact h
    rw [(Path.segments_ofSegments (by simp) (fun m hm => (hnames m hm).2.2.2) (by simp)).1,
      Path.walk_names hnames, List.nil_append]

/-- A path leads where it led before, when it is seen from the top. -/
theorem spot_fromTop {v : View} (h : v.Proper) (p : Path) (c : Location) :
    (fromTop v p).spot c = p.spot v.current := by
  unfold fromTop
  by_cases hp : p.isAbsolute
  · rw [if_pos hp, Path.spot, Path.spot, Path.origin, Path.origin, if_pos hp, if_pos hp]
  · have hrel : p.isAbsolute = false := by simpa using hp
    rw [if_neg hp, Path.spot_join _ hrel, spot_current h, Path.spot, Path.origin, if_neg hp]

theorem trail_fromTop {v : View} (h : v.Proper) (p : Path) (c : Location) :
    ∀ s ∈ trail (p.origin v.current) p.segments,
      s ∈ trail ((fromTop v p).origin c) (fromTop v p).segments := by
  intro s hs
  unfold fromTop
  by_cases hp : p.isAbsolute
  · rwa [if_pos hp, Path.origin, if_pos hp] at *
  · have hrel : p.isAbsolute = false := by simpa using hp
    rw [if_neg hp]
    refine (Path.mem_trail_join _ hrel c s).2.2 ?_
    rwa [spot_current h, ← show p.origin v.current = v.current from if_neg hp]

end Disk
end Rollout

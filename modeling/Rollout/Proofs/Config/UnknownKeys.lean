import Mathlib.Data.List.Flatten
import Mathlib.Data.List.Forall2
import Mathlib.Data.List.Nodup
import Mathlib.Tactic.Common
import Rollout.Config.Document
import Rollout.Proofs.Config.Lines

/-!
# Warnings and the keys they are about

A configuration file that is read has a warning for each key that means nothing, where the file
has it as a key of the document or of a section, and for a date in the place of a section one
about a key that the file does not have. The key and the line of a warning are taken from texts:
the key is what comes after the last dot of the path, the line is the first one to hold this. So a
warning points to its key exactly if the key has no dot and no earlier line holds it
(`unknown_keys_reported`).
-/

namespace Rollout.Config

open Toml (Item Entries Listed Mark DistinctKeys pathsOf below)

/-! ### Unknown keys -/

/-- The fields of a section. -/
def fieldsOf? : String → Option (List String)
  | "compile" => some ["platform", "registry"]
  | "workspace" => some ["file"]
  | "output" => some ["json"]
  | _ => none

/-- A key of the document or of a section that means nothing, by its path. -/
def isUnknown : List String → Bool
  | [key] => !(["compile", "charts", "workspace", "output"].contains key)
  | [sec, key] => (fieldsOf? sec).any (!·.contains key)
  | _ => false

/-- A key of the document or of a section. -/
def isOuter : List String → Bool
  | [] => true
  | [_] => true
  | [sec, _] => (fieldsOf? sec).isSome
  | _ => false

/-- The paths that are reported for an entry of the document. -/
def reportsOf (e : String × Item) : List (List String) :=
  match fieldsOf? e.1 with
  | some fields =>
    ((((entriesOf? e.2).getD []).map (·.1)).filter (!fields.contains ·)).map fun key => [e.1, key]
  | none => if e.1 = "charts" then [] else [[e.1]]

/-- What is reported: a key that is unknown and written, unless it stands in an array of tables, and
the name under which a date stands for a section. -/
inductive Reported (written : List (List String)) (es : Entries) : List String → Prop
  | key {key : String} (hkey : [key] ∈ written) (hunknown : isUnknown [key] = true) :
    Reported written es [key]
  | field {sec key : String} (hkey : [sec, key] ∈ written)
    (hunknown : isUnknown [sec, key] = true)
    (hsection : ∀ elements, es.get? sec ≠ some (.tables elements)) : Reported written es [sec, key]
  | date {sec normal : String} (hsection : (fieldsOf? sec).isSome)
    (hdate : es.get? sec = some (.moment normal)) : Reported written es [sec, momentKey]

/-- A path as text. -/
def dotted (path : List String) : String := Text.joined "." path

variable {es : Entries} {written : List (List String)} {path : List String} {sec key : String}
  {item : Item}

theorem keys_of_section? {fields keys : List String} {get : String → Option Item}
    (h : section? fields item = some (get, keys)) :
    keys = (((entriesOf? item).getD []).map (·.1)).filter (!fields.contains ·) := by
  unfold section? at h
  split at h
  · rename_i entries hentries
    cases h
    rw [hentries, Option.getD_some]
  · rename_i hentries
    obtain ⟨items, -, heq⟩ := Option.map_eq_some_iff.1 h
    cases heq
    rw [hentries]
    rfl

theorem map_dotted (sec : String) (keys : List String) :
    (keys.map fun key => [sec, key]).map dotted = keys.map fun key => sec ++ "." ++ key := by
  rw [List.map_map]
  refine List.map_congr_left fun key _ => ?_
  simp [dotted, Text.joined, String.intercalate_cons_cons]

/-- A section reports the keys that it does not know. -/
theorem reportsOf_section {fields keys : List String} {get : String → Option Item}
    (hfields : fieldsOf? sec = some fields) (h : section? fields item = some (get, keys)) :
    (reportsOf (sec, item)).map dotted = keys.map fun key => sec ++ "." ++ key := by
  rw [reportsOf, hfields, ← map_dotted, keys_of_section? h]

/-- An entry that is taken adds its reports. -/
theorem take?_reports {found found' : Found} {e : String × Item}
    (h : take? found e = some found') : found'.2 = found.2 ++ (reportsOf e).map dotted := by
  obtain ⟨c, unknown⟩ := found
  obtain ⟨key, item⟩ := e
  simp only [take?, bind, pure] at h
  split_ifs at h with hcompile hcharts hworkspace houtput
  · subst hcompile
    simp only [Option.bind_eq_some_iff] at h
    obtain ⟨⟨get, keys⟩, hsection, platform, -, registry, -, heq⟩ := h
    cases heq
    rw [reportsOf_section rfl hsection]
  · subst hcharts
    simp only [Option.bind_eq_some_iff] at h
    obtain ⟨entries, -, charts, -, heq⟩ := h
    cases heq
    exact (List.append_nil _).symm
  · subst hworkspace
    simp only [Option.bind_eq_some_iff] at h
    obtain ⟨⟨get, keys⟩, hsection, document, -, heq⟩ := h
    cases heq
    rw [reportsOf_section rfl hsection]
  · subst houtput
    simp only [Option.bind_eq_some_iff] at h
    obtain ⟨⟨get, keys⟩, hsection, json, -, heq⟩ := h
    cases heq
    rw [reportsOf_section rfl hsection]
  · cases h
    have hfields : fieldsOf? key = none := by
      unfold fieldsOf?
      split
      all_goals simp_all
    simp [reportsOf, hfields, hcharts, dotted, Text.joined]

theorem ofEntries?_reports {found found' : Found} (h : es.foldlM take? found = some found') :
    found'.2 = found.2 ++ (es.flatMap reportsOf).map dotted := by
  induction es generalizing found with
  | nil =>
    cases h
    exact (List.append_nil _).symm
  | cons e es ih =>
    rw [List.foldlM_cons] at h
    obtain ⟨between, hfirst, hrest⟩ := Option.bind_eq_some_iff.1 h
    rw [ih hrest, take?_reports hfirst, List.flatMap_cons, List.map_append, List.append_assoc]

/-! ### Reports and written keys -/

theorem mem_pathsOf : path ∈ pathsOf es ↔ ∃ e ∈ es, path ∈ below e.1 e.2.paths := by
  rw [Toml.pathsOf_eq_flatMap, List.mem_flatMap]

theorem key_mem_pathsOf : [key] ∈ pathsOf es ↔ ∃ item, (key, item) ∈ es := by
  rw [mem_pathsOf]
  constructor
  · rintro ⟨⟨k, item⟩, hmem, hpath⟩
    obtain rfl : key = k := by
      rcases Toml.mem_below.1 hpath with heq | ⟨_, -, heq⟩
      · exact (List.cons.inj heq).1
      · exact (List.cons.inj heq).1
    exact ⟨item, hmem⟩
  · rintro ⟨item, hmem⟩
    exact ⟨(key, item), hmem, Toml.mem_below.2 (.inl rfl)⟩

theorem field_mem_pathsOf :
    [sec, key] ∈ pathsOf es ↔ ∃ item, (sec, item) ∈ es ∧ [key] ∈ item.paths := by
  simp [mem_pathsOf, Toml.mem_below]

theorem isUnknown_key_iff : isUnknown [sec] = true ↔ fieldsOf? sec = none ∧ sec ≠ "charts" := by
  have hknown : fieldsOf? sec = none ↔ sec ≠ "compile" ∧ sec ≠ "workspace" ∧ sec ≠ "output" := by
    unfold fieldsOf?
    split
    all_goals simp_all
  rw [hknown]
  simp only [isUnknown, List.contains_cons, List.contains_nil, Bool.or_false, Bool.not_eq_true',
    Bool.or_eq_false_iff, beq_eq_false_iff_ne]
  tauto

theorem isUnknown_field_iff :
    isUnknown [sec, key] = true ↔ ∃ fields, fieldsOf? sec = some fields ∧ key ∉ fields := by
  simp [isUnknown, Option.any_eq_true]

theorem mem_reportsOf : path ∈ reportsOf (sec, item) ↔
    (path = [sec] ∧ isUnknown [sec] = true) ∨
      ∃ key entries, path = [sec, key] ∧ isUnknown [sec, key] = true ∧
        entriesOf? item = some entries ∧ key ∈ entries.map (·.1) := by
  simp only [isUnknown_key_iff, isUnknown_field_iff]
  unfold reportsOf
  cases hfields : fieldsOf? sec with
  | none => simp [and_comm]
  | some fields =>
    constructor
    · intro hpath
      obtain ⟨key, hkey, rfl⟩ := List.mem_map.1 hpath
      obtain ⟨hmem, hnot⟩ := List.mem_filter.1 hkey
      cases hentries : entriesOf? item with
      | none => simp [hentries] at hmem
      | some entries =>
        rw [hentries, Option.getD_some] at hmem
        exact .inr ⟨key, entries, rfl, ⟨fields, rfl, by simpa using hnot⟩, rfl, hmem⟩
    · rintro (⟨-, hnone, -⟩ | ⟨key, entries, rfl, ⟨_, hsome, hnot⟩, hentries, hmem⟩)
      · cases hnone
      · cases hsome
        rw [hentries, Option.getD_some]
        exact List.mem_map.2 ⟨key, List.mem_filter.2 ⟨hmem, by simpa using hnot⟩, rfl⟩

/-- No section has a field of this name. -/
theorem isUnknown_momentKey (h : (fieldsOf? sec).isSome) : isUnknown [sec, momentKey] = true := by
  obtain ⟨fields, hfields⟩ := Option.isSome_iff_exists.1 h
  refine isUnknown_field_iff.2 ⟨fields, hfields, ?_⟩
  unfold fieldsOf? at hfields
  split at hfields
  all_goals cases hfields
  all_goals decide

theorem reported_of_mem (h : DistinctKeys es) (hlisted : Listed written (pathsOf es))
    (hpath : path ∈ es.flatMap reportsOf) : Reported written es path := by
  obtain ⟨⟨sec, item⟩, hmem, hreport⟩ := List.mem_flatMap.1 hpath
  rcases mem_reportsOf.1 hreport with ⟨rfl, hunknown⟩ |
    ⟨key, entries, rfl, hunknown, hentries, hkey⟩
  · exact .key ((hlisted.members _).1 (key_mem_pathsOf.2 ⟨item, hmem⟩)) hunknown
  · have hget := (Entries.get?_eq_some_iff h).2 hmem
    cases item with
    | table kind inner =>
      obtain rfl : inner = entries := Option.some.inj hentries
      obtain ⟨e, he, rfl⟩ := List.mem_map.1 hkey
      have hinner : [e.1] ∈ (Item.table kind inner).paths := by
        rw [Item.paths]
        exact key_mem_pathsOf.2 ⟨e.2, he⟩
      refine .field ((hlisted.members _).1 (field_mem_pathsOf.2 ⟨_, hmem, hinner⟩)) hunknown ?_
      simp [hget]
    | moment normal =>
      cases hentries
      obtain rfl : key = momentKey := by simpa using hkey
      obtain ⟨fields, hfields, -⟩ := isUnknown_field_iff.1 hunknown
      exact .date (by simp [hfields]) hget
    | _ => cases hentries

theorem mem_of_reported (h : DistinctKeys es) (hlisted : Listed written (pathsOf es))
    (hpath : Reported written es path) : path ∈ es.flatMap reportsOf := by
  rcases hpath with ⟨hkey, hunknown⟩ | ⟨hkey, hunknown, hsection⟩ | ⟨hsection, hdate⟩
  · obtain ⟨item, hmem⟩ := key_mem_pathsOf.1 ((hlisted.members _).2 hkey)
    exact List.mem_flatMap.2 ⟨_, hmem, mem_reportsOf.2 (.inl ⟨rfl, hunknown⟩)⟩
  · obtain ⟨item, hmem, hinner⟩ := field_mem_pathsOf.1 ((hlisted.members _).2 hkey)
    cases item with
    | table kind inner =>
      rw [Item.paths] at hinner
      obtain ⟨value, hvalue⟩ := key_mem_pathsOf.1 hinner
      exact List.mem_flatMap.2 ⟨_, hmem, mem_reportsOf.2
        (.inr ⟨_, inner, rfl, hunknown, rfl, List.mem_map_of_mem hvalue⟩)⟩
    | tables elements => exact absurd ((Entries.get?_eq_some_iff h).2 hmem) (hsection elements)
    | _ => simp [Item.paths] at hinner
  · exact List.mem_flatMap.2 ⟨_, (Entries.get?_eq_some_iff h).1 hdate, mem_reportsOf.2
      (.inr ⟨_, _, rfl, isUnknown_momentKey hsection, rfl, by simp⟩)⟩

theorem head?_of_mem_reportsOf {e : String × Item} (h : path ∈ reportsOf e) :
    path.head? = some e.1 := by
  rcases mem_reportsOf.1 h with ⟨rfl, -⟩ | ⟨key, entries, rfl, -⟩
  · rfl
  · rfl

theorem nodup_reportsOf {e : String × Item} (h : e.2.Distinct) : (reportsOf e).Nodup := by
  unfold reportsOf
  split
  · refine List.Nodup.map (fun key other heq => by simpa using heq) (List.Nodup.filter _ ?_)
    obtain ⟨key, item⟩ := e
    cases item with
    | table kind entries =>
      exact (Toml.distinctKeys_iff.1 (Toml.distinct_table.1 h)).1
    | moment normal => exact List.nodup_singleton _
    | _ => exact List.nodup_nil
  · split_ifs
    · exact List.nodup_nil
    · exact List.nodup_singleton _

theorem nodup_reports (h : DistinctKeys es) : (es.flatMap reportsOf).Nodup := by
  obtain ⟨hkeys, hall⟩ := Toml.distinctKeys_iff.1 h
  refine List.nodup_flatMap.2 ⟨fun e he => nodup_reportsOf (hall e he), ?_⟩
  refine (List.pairwise_map.1 hkeys).imp fun {e e'} hne path hpath hpath' => ?_
  have heq := (head?_of_mem_reportsOf hpath).symm.trans (head?_of_mem_reportsOf hpath')
  exact hne (Option.some.inj heq)

/-! ### Order -/

theorem prefixClosed_isOuter : Toml.PrefixClosed isOuter := by
  intro path rest h
  match path, h with
  | [], _ => rfl
  | [_], _ => rfl
  | [sec, key], h =>
    cases rest with
    | nil => exact h
    | cons => cases h
  | _ :: _ :: _ :: _, h => cases h

theorem keys_sublist (es : Entries) : (es.map fun e => [e.1]).Sublist (pathsOf es) := by
  rw [Toml.pathsOf_eq_flatMap, List.map_eq_flatMap]
  exact List.Sublist.flatMap_right es fun e _ =>
    List.singleton_sublist.2 (Toml.mem_below.2 (.inl rfl))

/-- The keys of a section are written below it. -/
theorem fields_sublist (kind : Toml.TableKind) (entries : Entries) (h : (fieldsOf? sec).isSome) :
    ((entries.map (·.1)).map fun key => [sec, key]).Sublist
      ((below sec (Item.table kind entries).paths).filter isOuter) := by
  have hkeys : ((entries.map (·.1)).map fun key => [sec, key]).Sublist
      ((pathsOf entries).map (sec :: ·)) := by
    have hmap := (keys_sublist entries).map (sec :: ·)
    rwa [List.map_map] at hmap ⊢
  have hbelow := (hkeys.trans (List.sublist_cons_self [sec] _)).filter isOuter
  rw [List.filter_eq_self.2 fun path hpath => ?_] at hbelow
  · rwa [Item.paths, below]
  · obtain ⟨key, -, rfl⟩ := List.mem_map.1 hpath
    exact h

/-- Below a date nothing is written. -/
theorem field_not_mem_pathsOf {normal : String} (h : DistinctKeys es)
    (hdate : (sec, .moment normal) ∈ es) (key : String) : [sec, key] ∉ pathsOf es := by
  intro hwritten
  obtain ⟨item, hitem, hinner⟩ := field_mem_pathsOf.1 hwritten
  have hget := (Entries.get?_eq_some_iff h).2 hdate
  rw [(Entries.get?_eq_some_iff h).2 hitem] at hget
  obtain rfl : item = .moment normal := Option.some.inj hget
  simp [Item.paths] at hinner

/-- What is reported for an entry and written is written for the entry, in this order. -/
theorem reportsOf_sublist {e : String × Item} (h : DistinctKeys es) (he : e ∈ es) :
    ((reportsOf e).filter ((pathsOf es).contains ·)).Sublist
      ((below e.1 e.2.paths).filter isOuter) := by
  obtain ⟨sec, item⟩ := e
  unfold reportsOf
  cases hfields : fieldsOf? sec with
  | none =>
    have hfirst : [[sec]].Sublist ((below sec item.paths).filter isOuter) := by
      rw [below, List.filter_cons_of_pos rfl]
      exact .cons_cons _ (List.nil_sublist _)
    simp only
    split_ifs
    · exact List.nil_sublist _
    · exact List.filter_sublist.trans hfirst
  | some fields =>
    simp only
    cases item with
    | table kind entries =>
      exact List.filter_sublist.trans
        ((List.filter_sublist.map _).trans (fields_sublist kind entries (by simp [hfields])))
    | moment normal =>
      rw [List.filter_eq_nil_iff.2 fun path hpath => ?_]
      · exact List.nil_sublist _
      · obtain ⟨key, -, rfl⟩ := List.mem_map.1 hpath
        simpa using field_not_mem_pathsOf h he key
    | _ => exact List.nil_sublist _

theorem sublist_reports (h : DistinctKeys es) (hlisted : Listed written (pathsOf es))
    (hnodup : (written.filter isOuter).Nodup) :
    ((es.flatMap reportsOf).filter (written.contains ·)).Sublist written := by
  have hcontains : (es.flatMap reportsOf).filter (written.contains ·) =
      (es.flatMap reportsOf).filter ((pathsOf es).contains ·) := by
    refine List.filter_congr fun path _ => ?_
    simp [hlisted.members path]
  have houter : ((es.flatMap reportsOf).filter ((pathsOf es).contains ·)).Sublist
      ((pathsOf es).filter isOuter) := by
    rw [List.filter_flatMap, Toml.pathsOf_eq_flatMap, List.filter_flatMap]
    rw [← Toml.pathsOf_eq_flatMap]
    exact List.Sublist.flatMap_right es fun e he => reportsOf_sublist h he
  rw [hlisted.order isOuter prefixClosed_isOuter hnodup] at houter
  rw [hcontains]
  exact houter.trans List.filter_sublist

/-! ### Warnings -/

namespace Warning

theorem lastPart_append (before after : String) :
    lastPart (before ++ "." ++ after) = lastPart after := by
  have hlist : (before ++ "." ++ after).toList = before.toList ++ '.' :: after.toList := by simp
  rw [lastPart, hlist, Text.splitOn_append,
    List.getLast?_append_of_ne_nil _ (Text.splitOn_ne_nil '.' after.toList), lastPart]

theorem lastPart_dotted {name : String} (h : path.getLast? = some name) :
    lastPart (dotted path) = lastPart name := by
  induction path with
  | nil => cases h
  | cons key path ih =>
    cases path with
    | nil =>
      obtain rfl : key = name := Option.some.inj h
      simp [dotted, Text.joined]
    | cons next path =>
      have hcons : dotted (key :: next :: path) = key ++ "." ++ dotted (next :: path) :=
        String.intercalate_cons_cons
      rw [hcons, lastPart_append, ih h]

/-- A name is its own last part if it has no dot. -/
theorem lastPart_eq_self_iff {name : String} : lastPart name = name ↔ '.' ∉ name.toList := by
  constructor
  · intro heq hdot
    obtain ⟨piece, hpiece⟩ := Option.ne_none_iff_exists'.1
      (mt List.getLast?_eq_none_iff.1 (Text.splitOn_ne_nil '.' name.toList))
    rw [lastPart, hpiece, Option.getD_some] at heq
    rw [← heq, String.toList_ofList] at hdot
    exact Text.not_mem_of_mem_splitOn _ (List.mem_of_getLast? hpiece) hdot
  · intro hdot
    rw [lastPart, Text.splitOn_of_not_mem hdot]
    simp

end Warning

open Warning (Holds)

/-- A warning about the key with a path. It names the key if this has no dot, and gives the first
line to hold what it names. So it points to the place of the key if the key has no dot and no
earlier line holds it. -/
structure Warns (file : Path) (content : String) (path : List String) (w : Warning) : Prop where
  file : w.file = file
  name : ∀ name, path.getLast? = some name → (w.key = name ↔ '.' ∉ name.toList)
  line : ∀ n, w.line = some n ↔
    Holds content w.key n ∧ ∀ earlier < n, ¬ Holds content w.key earlier
  found : ∀ n, Holds content w.key n → ∃ first ≤ n, w.line = some first
  right : ∀ m ∈ Toml.marksOf content, m.path = path → ∀ name, path.getLast? = some name →
    ((w.key = name ∧ w.line = some (m.line content)) ↔ '.' ∉ name.toList ∧
      Holds content name (m.line content) ∧
      ∀ earlier < m.line content, ¬ Holds content name earlier)

theorem key_make {name : String} (h : path.getLast? = some name) (file : Path) (content : String) :
    (Warning.make file content (dotted path)).key = name ↔ '.' ∉ name.toList := by
  rw [Warning.make, Warning.lastPart_dotted h]
  exact Warning.lastPart_eq_self_iff

theorem warns_make (file : Path) (content : String) (path : List String) :
    Warns file content path (Warning.make file content (dotted path)) where
  file := rfl
  name _ hname := key_make hname file content
  line _ := Warning.lineOf_eq_some_iff
  found _ := Warning.exists_lineOf
  right m _ _ name hname := by
    rw [← key_make hname file content, ← Warning.lineOf_eq_some_iff]
    exact and_congr_right fun heq => by rw [← heq]; rfl

/-- The paths of the keys of a document, as they are written. -/
def writtenKeys (content : String) : List (List String) := (Toml.marksOf content).map Mark.path

/-- Of a file that is read the warnings are about the keys that are unknown and written, one about
each, and about dates for sections. They are in the order of the file if no key of the document or
of a section is written again. Every key that is written stands on its line as it is, or there is a
backslash on the line. -/
theorem unknown_keys_reported {file : Path} {content : String} {c : Config}
    {warnings : List Warning} (h : read? file content = some (c, warnings)) :
    ∃ es reports, Toml.read? content = some es ∧ reports.Nodup ∧
      (∀ path, path ∈ reports ↔ Reported (writtenKeys content) es path) ∧
      List.Forall₂ (Warns file content) reports warnings ∧
      (((writtenKeys content).filter isOuter).Nodup →
        (reports.filter ((writtenKeys content).contains ·)).Sublist (writtenKeys content)) ∧
      (Toml.marksOf content).Pairwise (fun m m' => m.line content ≤ m'.line content) ∧
      ∀ m ∈ Toml.marksOf content, ∃ name line, m.path.getLast? = some name ∧
        Text.lineAt? content (m.line content) = some line ∧
        ('\\' ∈ line ∨ Text.holds name.toList line = true) := by
  simp only [read?, bind, pure, Option.bind_eq_some_iff] at h
  obtain ⟨es, hes, ⟨c', unknown⟩, hfound, heq⟩ := h
  cases heq
  obtain ⟨hdistinct, hmarks⟩ := Toml.marked_document hes
  have hunknown := ofEntries?_reports hfound
  rw [List.nil_append] at hunknown
  refine ⟨es, es.flatMap reportsOf, hes, nodup_reports hdistinct,
    fun path => ⟨reported_of_mem hdistinct hmarks.listed, mem_of_reported hdistinct hmarks.listed⟩,
    ?_, sublist_reports hdistinct hmarks.listed,
    hmarks.ordered.imp fun h => Toml.line_le_of_suffix h content,
    fun m hm => Toml.exists_line_of_mark (hmarks.inside m hm)⟩
  simp only at hunknown
  rw [hunknown, List.map_map, List.forall₂_map_right_iff, List.forall₂_same]
  exact fun path _ => warns_make file content path

/-- The key of the document is reported where it is written. -/
theorem retries_reported : ∃ reports w, ["retries"] ∈ reports ∧
    List.Forall₂ (Warns ⟨"keel.toml"⟩ "# build\nretries = 3\n[compile]\nplatform = \"host\"\n")
      reports [w] ∧ w.key = "retries" ∧ w.line = some 2 := by
  have hread : read? ⟨"keel.toml"⟩ "# build\nretries = 3\n[compile]\nplatform = \"host\"\n" =
      some ({}, [⟨"retries", ⟨"keel.toml"⟩, some 2, none⟩]) := by decide +kernel
  obtain ⟨es, reports, -, -, hreports, hwarns, -⟩ := unknown_keys_reported hread
  exact ⟨reports, _, (hreports _).2 (.key (by decide +kernel) (by decide)), hwarns, rfl, rfl⟩

/-- A comment holds the key first, and a key with a dot is cut. -/
theorem comment_takes_line :
    (read? ⟨"keel.toml"⟩ "# retries\n[compile]\nretries = 3\n\"x.y\" = 2\n").map
        (fun found => found.2.map fun w => (w.key, w.line)) =
      some [("retries", some 1), ("y", some 4)] ∧
    (Toml.marksOf "# retries\n[compile]\nretries = 3\n\"x.y\" = 2\n").map
        (fun m => (m.path, m.line "# retries\n[compile]\nretries = 3\n\"x.y\" = 2\n")) =
      [(["compile"], 2), (["compile", "retries"], 3), (["compile", "x.y"], 4)] := by
  decide +kernel

/-- A table that is defined after its own tables is reported last. -/
example : (read? ⟨"keel.toml"⟩ "[first.inner]\n[second]\n[first]\n").map
    (fun found => found.2.map Warning.key) = some ["second", "first"] := by decide +kernel

end Rollout.Config

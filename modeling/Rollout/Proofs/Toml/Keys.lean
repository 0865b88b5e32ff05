import Mathlib.Data.List.Nodup
import Mathlib.Tactic.Common
import Rollout.Toml.Basic

/-!
# The keys of a document

A key has a path: the keys of the tables around it, from the outermost, and then itself. The
statements of a document write paths one after the other, and some of them again. The table of the
document has the paths that are written, each table has a key once, and as long as no path is
written again the table has them in the order in which they are written (`adds_ofStatements?`).
-/

namespace Rollout.Toml

/-! ### Paths -/

/-- A key and what is below it. -/
def below (key : String) (paths : List (List String)) : List (List String) :=
  [key] :: paths.map (key :: ·)

mutual

/-- The paths of the keys in an item, as the item has them. The elements of an array of tables have
no place in a path. -/
def Item.paths : Item → List (List String)
  | .table _ entries => pathsOf entries
  | .tables elements => pathsOfAll elements
  | _ => []

def pathsOf : List (String × Item) → List (List String)
  | [] => []
  | (key, item) :: rest => below key item.paths ++ pathsOf rest

def pathsOfAll : List (List (String × Item)) → List (List String)
  | [] => []
  | entries :: rest => pathsOf entries ++ pathsOfAll rest

end

mutual

/-- Every table has a key once. -/
def Item.Distinct : Item → Prop
  | .table _ entries => DistinctKeys entries
  | .tables elements => AllDistinct elements
  | _ => True

def DistinctKeys : List (String × Item) → Prop
  | [] => True
  | (key, item) :: rest => key ∉ rest.map (·.1) ∧ item.Distinct ∧ DistinctKeys rest

def AllDistinct : List (List (String × Item)) → Prop
  | [] => True
  | entries :: rest => DistinctKeys entries ∧ AllDistinct rest

end

variable {es es' before after : Entries} {key : String} {item old : Item}
  {paths written found new sub : List (List String)}

theorem pathsOf_eq_flatMap (es : Entries) :
    pathsOf es = es.flatMap fun e => below e.1 e.2.paths := by
  induction es with
  | nil => rfl
  | cons e es ih => rw [pathsOf, ih, List.flatMap_cons]

theorem pathsOf_append (es es' : Entries) : pathsOf (es ++ es') = pathsOf es ++ pathsOf es' := by
  induction es with
  | nil => rfl
  | cons e es ih => rw [List.cons_append, pathsOf, ih, pathsOf, List.append_assoc]

theorem pathsOf_singleton (key : String) (item : Item) :
    pathsOf [(key, item)] = below key item.paths := by
  rw [pathsOf, pathsOf, List.append_nil]

theorem pathsOfAll_append (elements others : List Entries) :
    pathsOfAll (elements ++ others) = pathsOfAll elements ++ pathsOfAll others := by
  induction elements with
  | nil => rfl
  | cons es elements ih => rw [List.cons_append, pathsOfAll, ih, pathsOfAll, List.append_assoc]

theorem pathsOfAll_singleton (es : Entries) : pathsOfAll [es] = pathsOf es := by
  rw [pathsOfAll, pathsOfAll, List.append_nil]

theorem distinctKeys_iff :
    DistinctKeys es ↔ (es.map (·.1)).Nodup ∧ ∀ e ∈ es, e.2.Distinct := by
  induction es with
  | nil => simp [DistinctKeys]
  | cons e es ih =>
    rw [DistinctKeys, ih, List.map_cons, List.nodup_cons, List.forall_mem_cons]
    tauto

theorem allDistinct_iff {elements : List Entries} :
    AllDistinct elements ↔ ∀ es ∈ elements, DistinctKeys es := by
  induction elements with
  | nil => simp [AllDistinct]
  | cons es elements ih => rw [AllDistinct, ih, List.forall_mem_cons]

/-! ### Paths as written and as found -/

/-- With a path its beginnings are kept. -/
def PrefixClosed (keep : List String → Bool) : Prop :=
  ∀ path rest, keep (path ++ rest) = true → keep path = true

/-- The paths are found that were written, and in this order as long as none was written again;
this holds for any part of the paths that has the beginnings of its paths. -/
structure Listed (written found : List (List String)) : Prop where
  members : ∀ path, path ∈ found ↔ path ∈ written
  order : ∀ keep, PrefixClosed keep → (written.filter keep).Nodup →
    found.filter keep = written.filter keep

namespace Listed

theorem refl (paths : List (List String)) : Listed paths paths where
  members _ := Iff.rfl
  order _ _ _ := rfl

theorem trans {between : List (List String)} (h : Listed written between)
    (h' : Listed between found) : Listed written found where
  members path := (h'.members path).trans (h.members path)
  order keep hkeep hnodup := by
    have heq := h.order keep hkeep hnodup
    rw [h'.order keep hkeep (heq ▸ hnodup), heq]

theorem append {written' found' : List (List String)} (h : Listed written found)
    (h' : Listed written' found') : Listed (written ++ written') (found ++ found') where
  members path := by rw [List.mem_append, List.mem_append, h.members, h'.members]
  order keep hkeep hnodup := by
    rw [List.filter_append] at hnodup
    have hparts := List.nodup_append.1 hnodup
    rw [List.filter_append, List.filter_append, h.order keep hkeep hparts.1,
      h'.order keep hkeep hparts.2.1]

/-- What is listed below a key is listed there with the path to it. -/
theorem under (path : List String) (h : Listed written found) :
    Listed (written.map (path ++ ·)) (found.map (path ++ ·)) where
  members p := by simp only [List.mem_map, h.members]
  order keep hkeep hnodup := by
    have hinner : PrefixClosed (keep ∘ (path ++ ·)) := fun p rest hp =>
      hkeep (path ++ p) rest (by rwa [List.append_assoc])
    rw [List.filter_map] at hnodup ⊢
    rw [List.filter_map, h.order _ hinner hnodup.of_map]

theorem underKey (key : String) (h : Listed written found) :
    Listed (below key written) (below key found) :=
  (refl [[key]]).append (h.under [key])

end Listed

theorem mem_below {path : List String} :
    path ∈ below key paths ↔ path = [key] ∨ ∃ rest ∈ paths, path = key :: rest := by
  simp [below, eq_comm]

theorem mem_below_append {path : List String} {others : List (List String)} :
    path ∈ below key (paths ++ others) ↔ path ∈ below key paths ∨ path ∈ below key others := by
  simp only [mem_below, List.mem_append, or_and_right, exists_or]
  exact or_or_distrib_left

theorem filter_below {keep : List String → Bool} (hkeep : PrefixClosed keep)
    (hkey : keep [key] = false) (paths : List (List String)) :
    (below key paths).filter keep = [] := by
  rw [List.filter_eq_nil_iff]
  intro path hpath hkept
  have hbegin : keep [key] = true := by
    rcases mem_below.1 hpath with rfl | ⟨rest, -, rfl⟩
    · exact hkept
    · exact hkeep [key] rest hkept
  rw [hkey] at hbegin
  cases hbegin

/-- Where a key is written again only the members count. -/
theorem Listed.again (hkey : [key] ∈ paths)
    (hmembers : ∀ path, path ∈ found ↔ path ∈ paths ∨ path ∈ below key sub)
    (hothers : ∀ keep, PrefixClosed keep → keep [key] = false →
      found.filter keep = paths.filter keep) :
    Listed (paths ++ below key sub) found where
  members path := by rw [hmembers, List.mem_append]
  order keep hkeep hnodup := by
    rw [List.filter_append] at hnodup ⊢
    cases hkept : keep [key] with
    | false => rw [hothers keep hkeep hkept, filter_below hkeep hkept, List.append_nil]
    | true =>
      have hagain : [key] ∈ below key sub := mem_below.2 (.inl rfl)
      exact absurd rfl ((List.nodup_append.1 hnodup).2.2 _ (List.mem_filter.2 ⟨hkey, hkept⟩) _
        (List.mem_filter.2 ⟨hagain, hkept⟩))

/-! ### Changes of one entry -/

/-- New paths are added to a table. -/
structure Adds (new : List (List String)) (es es' : Entries) : Prop where
  distinct : DistinctKeys es'
  listed : Listed (pathsOf es ++ new) (pathsOf es')

theorem Adds.refl (h : DistinctKeys es) : Adds [] es es where
  distinct := h
  listed := by rw [List.append_nil]; exact .refl _

theorem Adds.trans {new' : List (List String)} {es'' : Entries} (h : Adds new es es')
    (h' : Adds new' es' es'') : Adds (new ++ new') es es'' where
  distinct := h'.distinct
  listed := by
    rw [← List.append_assoc]
    exact (h.listed.append (.refl new')).trans h'.listed

theorem mem_pathsOf_middle {path : List String} :
    path ∈ pathsOf (before ++ (key, item) :: after) ↔
      path ∈ below key item.paths ∨ path ∈ pathsOf (before ++ after) := by
  simp only [pathsOf_append, pathsOf, List.mem_append]
  tauto

theorem distinctKeys_middle : DistinctKeys (before ++ (key, item) :: after) ↔
    key ∉ (before ++ after).map (·.1) ∧ item.Distinct ∧ DistinctKeys (before ++ after) := by
  have hperm : (before ++ (key, item) :: after).Perm ((key, item) :: (before ++ after)) :=
    List.perm_middle
  rw [← DistinctKeys, distinctKeys_iff, distinctKeys_iff, (hperm.map _).nodup_iff]
  simp only [hperm.mem_iff]

theorem filter_pathsOf_middle {keep : List String → Bool} (hkeep : PrefixClosed keep)
    (hkey : keep [key] = false) :
    (pathsOf (before ++ (key, item) :: after)).filter keep =
      (pathsOf (before ++ after)).filter keep := by
  rw [pathsOf_append, pathsOf, pathsOf_append, List.filter_append, List.filter_append,
    filter_below hkeep hkey, List.nil_append, List.filter_append]

/-- A key that is new comes last. -/
theorem adds_add (h : DistinctKeys es) (hget : es.get? key = none) (hitem : item.Distinct)
    (hlisted : Listed sub item.paths) : Adds (below key sub) es (es.add key item) where
  distinct := by
    have hkey : key ∉ es.map (·.1) := by
      intro hmem
      obtain ⟨e, he, rfl⟩ := List.mem_map.1 hmem
      simpa using List.lookup_eq_none_iff.1 hget e he
    rw [Entries.add, distinctKeys_middle, List.append_nil]
    exact ⟨hkey, hitem, h⟩
  listed := by
    rw [Entries.add, pathsOf_append, pathsOf_singleton]
    exact (Listed.refl _).append (hlisted.underKey key)

/-- A key that is there gets another item, in its place or at another one. -/
theorem adds_again {before' after' : Entries} (hrest : before' ++ after' = before ++ after)
    (h : DistinctKeys (before ++ (key, old) :: after)) (hitem : item.Distinct)
    (hlisted : Listed (old.paths ++ sub) item.paths) :
    Adds (below key sub) (before ++ (key, old) :: after) (before' ++ (key, item) :: after') where
  distinct := by
    obtain ⟨hkey, -, hothers⟩ := distinctKeys_middle.1 h
    rw [distinctKeys_middle, hrest]
    exact ⟨hkey, hitem, hothers⟩
  listed := by
    refine .again ?_ (fun path => ?_) fun keep hkeep hkey => ?_
    · exact mem_pathsOf_middle.2 (.inl (mem_below.2 (.inl rfl)))
    · rw [mem_pathsOf_middle, mem_pathsOf_middle, hrest, (hlisted.underKey key).members,
        mem_below_append]
      tauto
    · rw [filter_pathsOf_middle hkeep hkey, filter_pathsOf_middle hkeep hkey, hrest]

namespace Entries

/-- An entry that is found stands at one place only. -/
theorem exists_split (h : DistinctKeys es) (hget : es.get? key = some old) :
    ∃ before after, es = before ++ (key, old) :: after ∧
      (∀ item, es.replace key item = before ++ (key, item) :: after) ∧
      es.filter (·.1 ≠ key) = before ++ after := by
  obtain ⟨before, after, rfl, -⟩ := List.lookup_eq_some_iff.1 hget
  have hother : ∀ e ∈ before ++ after, e.1 ≠ key := by
    intro e he heq
    exact (distinctKeys_middle.1 h).1 (heq ▸ List.mem_map_of_mem he)
  refine ⟨before, after, rfl, fun item => ?_, ?_⟩
  · have hkept (kept : Entries) (hkept : ∀ e ∈ kept, e.1 ≠ key) : replace kept key item = kept := by
      refine (List.map_congr_left fun e he => ?_).trans (List.map_id kept)
      simp [hkept e he]
    have happend : replace (before ++ (key, old) :: after) key item =
        replace before key item ++ (key, item) :: replace after key item := by
      simp [replace]
    rw [happend, hkept before fun e he => hother e (List.mem_append_left _ he),
      hkept after fun e he => hother e (List.mem_append_right _ he)]
  · rw [List.filter_append, List.filter_cons_of_neg (by simp), ← List.filter_append,
      List.filter_eq_self.2 fun e he => by simpa using hother e he]

theorem get?_eq_some_iff (h : DistinctKeys es) : es.get? key = some item ↔ (key, item) ∈ es := by
  constructor
  · intro hget
    obtain ⟨before, after, rfl, -⟩ := exists_split h hget
    simp
  · intro hmem
    obtain ⟨before, after, rfl⟩ := List.append_of_mem hmem
    have hkey := (distinctKeys_middle.1 h).1
    refine List.lookup_eq_some_iff.2 ⟨before, after, rfl, fun e he => ?_⟩
    rw [bne_iff_ne]
    rintro rfl
    exact hkey (List.mem_map_of_mem (List.mem_append_left _ he))

end Entries

theorem adds_replace (h : DistinctKeys es) (hget : es.get? key = some old) (hitem : item.Distinct)
    (hlisted : Listed (old.paths ++ sub) item.paths) :
    Adds (below key sub) es (es.replace key item) := by
  obtain ⟨before, after, rfl, hreplace, -⟩ := Entries.exists_split h hget
  rw [hreplace]
  exact adds_again rfl h hitem hlisted

theorem adds_move (h : DistinctKeys es) (hget : es.get? key = some old) (hitem : item.Distinct)
    (hlisted : Listed (old.paths ++ sub) item.paths) :
    Adds (below key sub) es (Entries.add (es.filter (·.1 ≠ key)) key item) := by
  obtain ⟨before, after, rfl, -, hfilter⟩ := Entries.exists_split h hget
  rw [hfilter]
  exact adds_again (List.append_nil _) h hitem hlisted

theorem distinct_of_get? (h : DistinctKeys es) (hget : es.get? key = some item) :
    item.Distinct := by
  obtain ⟨before, after, rfl, -⟩ := Entries.exists_split h hget
  exact (distinctKeys_middle.1 h).2.1

/-! ### Changes along a path -/

/-- The keys of a path, and below its end what else is written there. -/
def reach : List String → List (List String) → List (List String)
  | [], sub => sub
  | key :: path, sub => below key (reach path sub)

theorem reach_append (path rest : List String) (sub : List (List String)) :
    reach (path ++ rest) sub = reach path (reach rest sub) := by
  induction path with
  | nil => rfl
  | cons key path ih => rw [List.cons_append, reach, ih, reach]

/-- What is written below the end of a path comes after the path. -/
theorem reach_eq (path : List String) (sub : List (List String)) :
    reach path sub = reach path [] ++ sub.map (path ++ ·) := by
  induction path with
  | nil => simp [reach]
  | cons key path ih => simp [reach, below, ih, Function.comp_def]

theorem onLast_eq_some {f : Entries → Option Entries} {elements elements' : List Entries}
    (h : Entries.onLast f elements = some elements') :
    ∃ front last last', elements = front ++ [last] ∧ f last = some last' ∧
      elements' = front ++ [last'] := by
  induction elements generalizing elements' with
  | nil => cases h
  | cons x xs ih =>
    cases xs with
    | nil =>
      obtain ⟨y, hy, rfl⟩ := Option.map_eq_some_iff.1 h
      exact ⟨[], x, y, rfl, hy, rfl⟩
    | cons x' xs =>
      obtain ⟨rest, hrest, rfl⟩ := Option.map_eq_some_iff.1 h
      obtain ⟨front, last, last', hfront, hlast, rfl⟩ := ih hrest
      exact ⟨x :: front, last, last', by rw [hfront]; rfl, hlast, rfl⟩

/-- Changing the last element of an array of tables adds to the paths of the array. -/
theorem adds_onLast {f : Entries → Option Entries} {elements elements' : List Entries}
    (hf : ∀ es es', DistinctKeys es → f es = some es' → Adds sub es es')
    (hdistinct : (Item.tables elements).Distinct) (h : Entries.onLast f elements = some elements') :
    (Item.tables elements').Distinct ∧
      Listed ((Item.tables elements).paths ++ sub) (Item.tables elements').paths := by
  obtain ⟨front, last, last', rfl, hlast, rfl⟩ := onLast_eq_some h
  have hall := allDistinct_iff.1 hdistinct
  have hadds := hf last last' (hall last (by simp)) hlast
  refine ⟨allDistinct_iff.2 fun es hes => ?_, ?_⟩
  · rcases List.mem_append.1 hes with hes | hes
    · exact hall es (List.mem_append_left _ hes)
    · rw [List.mem_singleton.1 hes]
      exact hadds.distinct
  · rw [Item.paths, Item.paths, pathsOfAll_append, pathsOfAll_append, pathsOfAll_singleton,
      pathsOfAll_singleton, List.append_assoc]
    exact (Listed.refl _).append hadds.listed

theorem distinct_table {kind : TableKind} : (Item.table kind es).Distinct ↔ DistinctKeys es := by
  rw [Item.Distinct]

/-- A new table has what is added to an empty one. -/
theorem adds_table (kind : TableKind) (h : DistinctKeys es) (hget : es.get? key = none)
    {inner : Entries} (hinner : Adds sub [] inner) :
    Adds (below key sub) es (es.add key (.table kind inner)) :=
  adds_add h hget (distinct_table.2 hinner.distinct) (by rw [Item.paths]; exact hinner.listed)

/-- A table that is there gets what is added to it. -/
theorem adds_inner (kind kind' : TableKind) (h : DistinctKeys es) {inner inner' : Entries}
    (hget : es.get? key = some (.table kind inner))
    (hinner : DistinctKeys inner → Adds sub inner inner') :
    Adds (below key sub) es (es.replace key (.table kind' inner')) := by
  have hadds := hinner (distinct_table.1 (distinct_of_get? h hget))
  exact adds_replace h hget (distinct_table.2 hadds.distinct)
    (by rw [Item.paths, Item.paths]; exact hadds.listed)

theorem distinctKeys_nil : DistinctKeys [] := by
  rw [DistinctKeys]
  trivial

theorem adds_addDotted (hitem : item.Distinct) (path : List String) (h : DistinctKeys es)
    (hadd : Entries.addDotted key item path es = some es') :
    Adds (reach (path ++ [key]) item.paths) es es' := by
  induction path generalizing es es' with
  | nil =>
    rw [Entries.addDotted] at hadd
    cases hget : es.get? key with
    | some old => simp [hget] at hadd
    | none =>
      rw [hget] at hadd
      cases hadd
      exact adds_add h hget hitem (.refl _)
  | cons name path ih =>
    rw [Entries.addDotted] at hadd
    rw [List.cons_append, reach]
    split at hadd
    · rename_i hget
      obtain ⟨inner, hinner, rfl⟩ := Option.map_eq_some_iff.1 hadd
      exact adds_table .dotted h hget (ih distinctKeys_nil hinner)
    · rename_i inner hget
      obtain ⟨inner', hinner, rfl⟩ := Option.map_eq_some_iff.1 hadd
      exact adds_inner _ _ h hget fun hdistinct => ih hdistinct hinner
    · rename_i inner hget
      split_ifs at hadd
      obtain ⟨inner', hinner, rfl⟩ := Option.map_eq_some_iff.1 hadd
      exact adds_inner _ _ h hget fun hdistinct => ih hdistinct hinner
    · rename_i elements hget
      split_ifs at hadd
      obtain ⟨elements', helements, rfl⟩ := Option.map_eq_some_iff.1 hadd
      obtain ⟨hdistinct, hlisted⟩ := adds_onLast (fun _ _ hdistinct hlast => ih hdistinct hlast)
        (distinct_of_get? h hget) helements
      exact adds_replace h hget hdistinct hlisted
    · cases hadd

theorem adds_along {f : Entries → Option Entries} (path : List String)
    (hf : ∀ es es', DistinctKeys es → f es = some es' → Adds sub es es') (h : DistinctKeys es)
    (halong : Entries.along f path es = some es') : Adds (reach path sub) es es' := by
  induction path generalizing es es' with
  | nil => exact hf es es' h halong
  | cons name path ih =>
    rw [Entries.along] at halong
    rw [reach]
    split at halong
    · rename_i hget
      obtain ⟨inner, hinner, rfl⟩ := Option.map_eq_some_iff.1 halong
      exact adds_table .implied h hget (ih distinctKeys_nil hinner)
    · cases halong
    · rename_i kind inner _ hget
      obtain ⟨inner', hinner, rfl⟩ := Option.map_eq_some_iff.1 halong
      exact adds_inner _ _ h hget fun hdistinct => ih hdistinct hinner
    · rename_i elements hget
      obtain ⟨elements', helements, rfl⟩ := Option.map_eq_some_iff.1 halong
      obtain ⟨hdistinct, hlisted⟩ := adds_onLast (fun _ _ hdistinct hlast => ih hdistinct hlast)
        (distinct_of_get? h hget) helements
      exact adds_replace h hget hdistinct hlisted
    · cases halong

/-! ### Statements -/

/-- The paths that a pair writes. -/
def Pair.writes (p : Pair) : List (List String) := reach (p.path ++ [p.key]) p.value.paths

theorem adds_addPairs {pairs : List Pair} (hvalues : ∀ p ∈ pairs, p.value.Distinct)
    (h : DistinctKeys es) (hadd : Entries.addPairs pairs es = some es') :
    Adds (pairs.flatMap Pair.writes) es es' := by
  unfold Entries.addPairs at hadd
  induction pairs generalizing es with
  | nil =>
    cases hadd
    exact .refl h
  | cons p pairs ih =>
    rw [List.foldlM_cons] at hadd
    obtain ⟨es₁, hfirst, hrest⟩ := Option.bind_eq_some_iff.1 hadd
    have hp := adds_addDotted (hvalues p List.mem_cons_self) p.path h hfirst
    rw [List.flatMap_cons]
    exact hp.trans (ih (fun q hq => hvalues q (List.mem_cons_of_mem _ hq)) hp.distinct hrest)

/-- A header writes its key, and below it what its pairs write. -/
theorem adds_addTable {header : Header} {pairs : List Pair}
    (hvalues : ∀ p ∈ pairs, p.value.Distinct) (h : DistinctKeys es)
    (hadd : Entries.addTable header pairs es = some es') :
    Adds (reach (header.path ++ [header.key]) (pairs.flatMap Pair.writes)) es es' := by
  rw [reach_append]
  refine adds_along header.path (fun es es' hes hstep => ?_) h hadd
  rw [reach, reach]
  split at hstep
  · rename_i hget _
    obtain ⟨inner, hinner, rfl⟩ := Option.map_eq_some_iff.1 hstep
    exact adds_table .header hes hget (adds_addPairs hvalues distinctKeys_nil hinner)
  · rename_i inner hget _
    obtain ⟨inner', hinner, rfl⟩ := Option.map_eq_some_iff.1 hstep
    have hadds := adds_addPairs hvalues (distinct_table.1 (distinct_of_get? hes hget)) hinner
    exact adds_move hes hget (distinct_table.2 hadds.distinct)
      (by rw [Item.paths, Item.paths]; exact hadds.listed)
  · rename_i hget _
    obtain ⟨inner, hinner, rfl⟩ := Option.map_eq_some_iff.1 hstep
    have hadds := adds_addPairs hvalues distinctKeys_nil hinner
    refine adds_add hes hget (allDistinct_iff.2 (by simpa using hadds.distinct)) ?_
    rw [Item.paths, pathsOfAll_singleton]
    exact hadds.listed
  · rename_i elements hget _
    obtain ⟨inner, hinner, rfl⟩ := Option.map_eq_some_iff.1 hstep
    have hadds := adds_addPairs hvalues distinctKeys_nil hinner
    have helements := allDistinct_iff.1 (distinct_of_get? hes hget)
    refine adds_replace hes hget (allDistinct_iff.2 fun element helement => ?_) ?_
    · rcases List.mem_append.1 helement with helement | helement
      · exact helements element helement
      · rw [List.mem_singleton.1 helement]
        exact hadds.distinct
    · rw [Item.paths, Item.paths, pathsOfAll_append, pathsOfAll_singleton]
      exact (Listed.refl _).append hadds.listed
  · cases hstep

/-- The paths that statements write, below the header that stands before them. -/
def writesOf : List String → List Statement → List (List String)
  | _, [] => []
  | under, .pair p :: rest => p.writes.map (under ++ ·) ++ writesOf under rest
  | _, .header h :: rest => reach (h.path ++ [h.key]) [] ++ writesOf (h.path ++ [h.key]) rest

/-- Header by header the same paths are written. -/
theorem writesOf_eq (under : List String) (statements : List Statement) :
    writesOf under statements =
      ((Entries.sections statements).1.flatMap Pair.writes).map (under ++ ·) ++
        (Entries.sections statements).2.flatMap fun e =>
          reach (e.1.path ++ [e.1.key]) (e.2.flatMap Pair.writes) := by
  induction statements generalizing under with
  | nil => rfl
  | cons statement statements ih =>
    cases statement with
    | pair p => simp [writesOf, Entries.sections, ih]
    | header h =>
      rw [writesOf, ih, Entries.sections]
      simp [reach_eq _ (List.flatMap _ _)]

theorem adds_tables {tables : List (Header × List Pair)}
    (hvalues : ∀ e ∈ tables, ∀ p ∈ e.2, p.value.Distinct) (h : DistinctKeys es)
    (hadd : tables.foldlM (fun es (h, pairs) => Entries.addTable h pairs es) es = some es') :
    Adds (tables.flatMap fun e => reach (e.1.path ++ [e.1.key]) (e.2.flatMap Pair.writes))
      es es' := by
  induction tables generalizing es with
  | nil =>
    cases hadd
    exact .refl h
  | cons e tables ih =>
    rw [List.foldlM_cons] at hadd
    obtain ⟨es₁, hfirst, hrest⟩ := Option.bind_eq_some_iff.1 hadd
    have hadds := adds_addTable (hvalues e List.mem_cons_self) h hfirst
    rw [List.flatMap_cons]
    exact hadds.trans
      (ih (fun e' he' => hvalues e' (List.mem_cons_of_mem _ he')) hadds.distinct hrest)

/-- The pairs of all sections are those of the statements. -/
theorem mem_sections {statements : List Statement} {p : Pair} :
    (p ∈ (Entries.sections statements).1 ∨ ∃ e ∈ (Entries.sections statements).2, p ∈ e.2) ↔
      .pair p ∈ statements := by
  induction statements with
  | nil => simp [Entries.sections]
  | cons statement statements ih =>
    cases statement with
    | pair q => simp [Entries.sections, ← ih, or_assoc]
    | header h => simp [Entries.sections, ← ih]

/-- The table of a document has the paths that its statements write. -/
theorem adds_ofStatements? {statements : List Statement}
    (hvalues : ∀ p, .pair p ∈ statements → p.value.Distinct)
    (h : Entries.ofStatements? statements = some es) : Adds (writesOf [] statements) [] es := by
  obtain ⟨es₁, hpairs, htables⟩ := Option.bind_eq_some_iff.1 h
  have hfirst := adds_addPairs (fun p hp => hvalues p (mem_sections.1 (.inl hp))) distinctKeys_nil
    hpairs
  have hrest := adds_tables
    (fun e he p hp => hvalues p (mem_sections.1 (.inr ⟨e, he, hp⟩))) hfirst.distinct htables
  rw [writesOf_eq]
  simpa using hfirst.trans hrest

end Rollout.Toml

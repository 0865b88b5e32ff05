import Mathlib.Data.List.Induction
import Rollout.Proofs.Options.Flattened
import Rollout.Workspace.Basic

/-!
# Layers of options

Of layers over one another the uppermost that has a key counts for it (`get?_layered`), and it is
all the same which of them are put together first (`Bracketing.merged_eq`). What flattening lifts
is layered in this way too, from the maps among the options in the order of their keys; so what
counts for a key once options are flattened is the own value, unless that is a map, and else the
value in the last map that has the key (`get?_flatten_eq_iff`). All of this is about options with
sorted keys, as they are read (`sorted_of_ofSource?`).
-/

namespace Rollout

/-- The entries of a value that is a map. -/
def OptionValue.entries? : OptionValue → Option OptionMap
  | .map entries => some entries
  | _ => none

theorem OptionValue.entries?_eq_some_iff {v : OptionValue} {entries : OptionMap} :
    v.entries? = some entries ↔ v = .map entries := by
  cases v <;> simp [entries?]

namespace OptionMap

variable {o lower middle : OptionMap} {upper : Option OptionMap} {key : String}

/-! ### Two layers -/

/-- Options that are those of one layer over another: the upper layer wins, and there are no
others. -/
structure IsUnion (lower : OptionMap) (upper : Option OptionMap) (o : OptionMap) : Prop where
  sorted : o.Sorted
  get? : ∀ key, o.get? key = (upper.bind (Dict.get? key)).or (lower.get? key)
  keys : ∀ key, key ∈ o.keys ↔ (∃ layer, upper = some layer ∧ key ∈ layer.keys) ∨ key ∈ lower.keys

theorem sorted_merge (h : lower.Sorted) (upper : Option OptionMap) : (lower.merge upper).Sorted :=
  Dict.sorted_overlay h _

theorem get?_merge_some (h : o.Sorted) (key : String) :
    (lower.merge (some o)).get? key = (o.get? key).or (lower.get? key) := by
  rw [merge, Option.getD_some, Dict.get?_overlay, Dict.get?_reverse h.nodup_keys]

/-- The upper layer is asked first, and then the lower one. -/
theorem get?_merge (h : ∀ layer ∈ upper, Dict.Sorted layer) (key : String) :
    (lower.merge upper).get? key = (upper.bind (Dict.get? key)).or (lower.get? key) := by
  cases upper with
  | none => rfl
  | some layer => exact get?_merge_some (h layer rfl) key

theorem isUnion_merge (hlower : lower.Sorted) (hupper : ∀ layer ∈ upper, Dict.Sorted layer) :
    IsUnion lower upper (lower.merge upper) where
  sorted := sorted_merge hlower upper
  get? := get?_merge hupper
  keys key := by
    rw [merge, Dict.mem_keys_overlay]
    cases upper <;> simp [Dict.keys]

theorem merge_assoc (hlower : lower.Sorted) (hmiddle : middle.Sorted)
    (hupper : ∀ layer ∈ upper, Dict.Sorted layer) :
    (lower.merge (some middle)).merge upper = lower.merge (some (middle.merge upper)) := by
  refine Dict.eq_of_get? (sorted_merge (sorted_merge hlower _) _) (sorted_merge hlower _)
    fun key => ?_
  rw [get?_merge hupper, get?_merge_some hmiddle, get?_merge_some (sorted_merge hmiddle upper),
    get?_merge hupper, Option.or_assoc]

theorem merge_self (h : o.Sorted) : o.merge (some o) = o := by
  refine Dict.eq_of_get? (sorted_merge h _) h fun key => ?_
  rw [get?_merge_some h, Option.or_self]

/-- The same layer again changes nothing. -/
theorem merge_merge_self (hlower : lower.Sorted) (hupper : ∀ layer ∈ upper, Dict.Sorted layer) :
    (lower.merge upper).merge upper = lower.merge upper := by
  cases upper with
  | none => rfl
  | some layer =>
    have hlayer : Dict.Sorted layer := hupper layer rfl
    rw [merge_assoc hlower hlayer hupper, merge_self hlayer]

/-! ### Any number of layers -/

/-- Layers put over one another in their order, the last on top. -/
def layered (layers : List OptionMap) : OptionMap :=
  layers.foldl (fun o layer => o.merge (some layer)) []

theorem layered_concat (layers : List OptionMap) (top : OptionMap) :
    layered (layers ++ [top]) = (layered layers).merge (some top) :=
  List.foldl_concat _ _ _ _

theorem layered_singleton (h : o.Sorted) : layered [o] = o := Dict.ofEntries_eq_self h

theorem sorted_layered (layers : List OptionMap) : (layered layers).Sorted := by
  induction layers using List.reverseRecOn with
  | nil => exact Dict.sorted_nil
  | append_singleton layers top ih => exact layered_concat layers top ▸ sorted_merge ih _

/-- The uppermost layer that has a key counts for it. -/
theorem get?_layered {layers : List OptionMap} (h : ∀ layer ∈ layers, Dict.Sorted layer)
    (key : String) : (layered layers).get? key = layers.reverse.findSome? (Dict.get? key) := by
  induction layers using List.reverseRecOn with
  | nil => rfl
  | append_singleton layers top ih =>
    obtain ⟨hlayers, htop⟩ := List.forall_mem_append.1 h
    rw [layered_concat, get?_merge_some (htop top List.mem_cons_self), ih hlayers,
      List.reverse_concat, List.findSome?_cons]
    cases Dict.get? key top <;> rfl

theorem layered_append {front back : List OptionMap}
    (h : ∀ layer ∈ front ++ back, Dict.Sorted layer) :
    layered (front ++ back) = (layered front).merge (some (layered back)) := by
  obtain ⟨hfront, hback⟩ := List.forall_mem_append.1 h
  refine Dict.eq_of_get? (sorted_layered _) (sorted_merge (sorted_layered _) _) fun key => ?_
  rw [get?_layered h, get?_merge_some (sorted_layered back), get?_layered hfront,
    get?_layered hback, List.reverse_append, List.findSome?_append]

/-- Layers with brackets that say which of them are put together first. -/
inductive Bracketing where
  | layer (o : OptionMap)
  | pair (lower upper : Bracketing)

namespace Bracketing

def layers : Bracketing → List OptionMap
  | .layer o => [o]
  | .pair lower upper => lower.layers ++ upper.layers

def merged : Bracketing → OptionMap
  | .layer o => o
  | .pair lower upper => lower.merged.merge (some upper.merged)

/-- The brackets are of no account. -/
theorem merged_eq {b : Bracketing} (h : ∀ layer ∈ b.layers, Dict.Sorted layer) :
    b.merged = layered b.layers := by
  induction b with
  | layer o => exact (layered_singleton (h o List.mem_cons_self)).symm
  | pair lower upper hlower hupper =>
    obtain ⟨hfront, hback⟩ := List.forall_mem_append.1 h
    rw [merged, hlower hfront, hupper hback, layers, layered_append h]

end Bracketing

/-! ### The maps among options -/

/-- The maps among the options, in the order of their keys. -/
def maps (o : OptionMap) : List OptionMap := o.filterMap (·.2.entries?)

theorem lifted_eq_layered (o : OptionMap) : o.lifted = layered o.maps := by
  rw [lifted, layered, maps, List.foldl_filterMap]
  congr
  funext acc e
  obtain ⟨name, v⟩ := e
  cases v <;> rfl

/-- In options that were read the keys are sorted, and so they are in the maps among them. -/
theorem sorted_of_ofSource? {room : Nat} {source : Json.Source}
    (h : ofSource? (room + 1) source = some o) :
    o.Sorted ∧ ∀ entries ∈ o.maps, Dict.Sorted entries := by
  obtain ⟨hsorted, hread⟩ := ofSource?_eq_some h
  refine ⟨hsorted, fun entries hentries => ?_⟩
  obtain ⟨e, he, hmap⟩ := List.mem_filterMap.1 hentries
  obtain ⟨source, hvalue⟩ := hread e he
  rw [OptionValue.entries?_eq_some_iff.1 hmap] at hvalue
  obtain ⟨-, -, hinside, -⟩ := OptionValue.ofSource?_eq_map hvalue
  exact hinside

/-- The map at `name` gives `key` the value `v`, and it is the last of the maps that has the key. -/
structure LastGiving (o : OptionMap) (key name : String) (v : OptionValue) : Prop where
  gives : ∃ entries, o.get? name = some (.map entries) ∧ Dict.get? key entries = some v
  last : ∀ later entries, name < later → o.get? later = some (.map entries) →
    Dict.get? key entries = none

section

variable {name name' : String} {v v' : OptionValue}

theorem LastGiving.unique (h : LastGiving o key name v) (h' : LastGiving o key name' v') :
    v = v' := by
  obtain ⟨entries, hget, hv⟩ := h.gives
  obtain ⟨entries', hget', hv'⟩ := h'.gives
  have hnot : ¬ name < name' := fun hlt => by
    rw [h.last name' entries' hlt hget'] at hv'
    cases hv'
  have hnot' : ¬ name' < name := fun hlt => by
    rw [h'.last name entries hlt hget] at hv
    cases hv
  obtain rfl : name = name' := String.le_antisymm (String.not_lt.1 hnot') (String.not_lt.1 hnot)
  obtain rfl := OptionValue.map.inj (Option.some.inj (hget.symm.trans hget'))
  exact Option.some.inj (hv.symm.trans hv')

variable (hsorted : o.Sorted) (hmaps : ∀ entries ∈ o.maps, Dict.Sorted entries)

include hmaps in
theorem get?_lifted (key : String) :
    o.lifted.get? key = o.reverse.findSome? fun e => e.2.entries?.bind (Dict.get? key) := by
  rw [lifted_eq_layered, get?_layered hmaps, maps, ← List.filterMap_reverse, ← List.head?_filterMap,
    List.filterMap_filterMap, List.head?_filterMap]

include hsorted hmaps

/-- The last entry that gives the key is told from those behind it by their order. -/
theorem exists_lastGiving (h : o.lifted.get? key = some v) : ∃ name, LastGiving o key name v := by
  rw [get?_lifted hmaps] at h
  obtain ⟨behind, ⟨name, w⟩, front, hsplit, hw, hbehind⟩ := List.findSome?_eq_some_iff.1 h
  obtain ⟨entries, hentries, hv⟩ := Option.bind_eq_some_iff.1 hw
  obtain rfl := OptionValue.entries?_eq_some_iff.1 hentries
  have ho : o = front.reverse ++ (name, .map entries) :: behind.reverse := by
    rw [← List.reverse_reverse o, hsplit, List.reverse_append, List.reverse_cons,
      List.append_assoc, List.singleton_append]
  refine ⟨name, ⟨entries, (Dict.get?_eq_some_iff hsorted).2 (by simp [ho]), hv⟩,
    fun later entries' hlt hget => ?_⟩
  have hlater : (later, OptionValue.map entries') ∈ behind.reverse :=
    Dict.mem_of_lt (ho ▸ hsorted) hlt (ho ▸ Dict.mem_of_get? hget)
  exact hbehind _ (List.mem_reverse.1 hlater)

theorem get?_lifted_eq_none_iff :
    o.lifted.get? key = none ↔
      ∀ name entries, o.get? name = some (.map entries) → Dict.get? key entries = none := by
  rw [get?_lifted hmaps, List.findSome?_eq_none_iff]
  constructor
  · intro h name entries hget
    exact h _ (List.mem_reverse.2 (Dict.mem_of_get? hget))
  · rintro h ⟨name, w⟩ hmem
    refine Option.bind_eq_none_iff.2 fun entries hentries => h name entries ?_
    obtain rfl := OptionValue.entries?_eq_some_iff.1 hentries
    exact (Dict.get?_eq_some_iff hsorted).2 (List.mem_reverse.1 hmem)

theorem get?_lifted_eq_some_iff :
    o.lifted.get? key = some v ↔ ∃ name, LastGiving o key name v := by
  refine ⟨exists_lastGiving hsorted hmaps, fun ⟨name, hlast⟩ => ?_⟩
  cases hget : o.lifted.get? key with
  | none =>
    obtain ⟨entries, hname, hv⟩ := hlast.gives
    rw [(get?_lifted_eq_none_iff hsorted hmaps).1 hget name entries hname] at hv
    cases hv
  | some w =>
    obtain ⟨name', hlast'⟩ := exists_lastGiving hsorted hmaps hget
    exact congrArg some (hlast'.unique hlast)

end

/-! ### What counts once options are flattened -/

/-- What counts for a key: the own value unless that is a map, else the value in the last of the
maps that has the key, else nothing. -/
inductive Counts (o : OptionMap) (key : String) : Option OptionValue → Prop
  | own {v : OptionValue} (hget : o.get? key = some v) (hv : v.isMap = false) :
      Counts o key (some v)
  | lifted {name : String} {v : OptionValue} (hown : ∀ v, o.get? key = some v → v.isMap = true)
      (hlast : LastGiving o key name v) : Counts o key (some v)
  | nothing (hown : ∀ v, o.get? key = some v → v.isMap = true)
      (hmaps : ∀ name entries, o.get? name = some (.map entries) → Dict.get? key entries = none) :
      Counts o key none

theorem get?_flatten_of_own (hsorted : o.Sorted) {v : OptionValue} (hget : o.get? key = some v)
    (hv : v.isMap = false) : o.flatten.get? key = some v := by
  rw [get?_flatten hsorted, hget, Option.filter_some_pos (by rw [hv, Bool.not_false]),
    Option.some_or]

theorem get?_flatten_of_not_own (hsorted : o.Sorted)
    (hown : ∀ v, o.get? key = some v → v.isMap = true) :
    o.flatten.get? key = o.lifted.get? key := by
  have hnone : (o.get? key).filter (!·.isMap) = none :=
    Option.filter_eq_none_iff.2 fun v hget => by simp [hown v hget]
  rw [get?_flatten hsorted, hnone, Option.none_or]

theorem get?_flatten_eq_iff (hsorted : o.Sorted)
    (hmaps : ∀ entries ∈ o.maps, Dict.Sorted entries) {r : Option OptionValue} :
    o.flatten.get? key = r ↔ Counts o key r := by
  constructor
  · rintro rfl
    by_cases hown : ∀ v, o.get? key = some v → v.isMap = true
    · rw [get?_flatten_of_not_own hsorted hown]
      cases hlifted : o.lifted.get? key with
      | none => exact .nothing hown ((get?_lifted_eq_none_iff hsorted hmaps).1 hlifted)
      | some v =>
        obtain ⟨name, hlast⟩ := (get?_lifted_eq_some_iff hsorted hmaps).1 hlifted
        exact .lifted hown hlast
    · push Not at hown
      obtain ⟨v, hget, hv⟩ := hown
      rw [get?_flatten_of_own hsorted hget (Bool.eq_false_iff.2 hv)]
      exact .own hget (Bool.eq_false_iff.2 hv)
  · intro h
    cases h with
    | own hget hv => exact get?_flatten_of_own hsorted hget hv
    | lifted hown hlast =>
      rw [get?_flatten_of_not_own hsorted hown]
      exact (get?_lifted_eq_some_iff hsorted hmaps).2 ⟨_, hlast⟩
    | nothing hown hnone =>
      rw [get?_flatten_of_not_own hsorted hown]
      exact (get?_lifted_eq_none_iff hsorted hmaps).2 hnone

end OptionMap

/-- The layers of which the options in a configuration are made up. -/
def Spec.layers (s : Spec) (key : String) : List OptionMap :=
  s.options :: (s.configurations.get? key).toList

theorem Spec.layered_layers {s : Spec} (h : s.options.Sorted) (key : String) :
    OptionMap.layered (s.layers key) = s.optionsFor key := by
  rw [layers, optionsFor]
  cases s.configurations.get? key with
  | none => exact OptionMap.layered_singleton h
  | some configuration =>
    exact congrArg (OptionMap.merge · (some configuration)) (OptionMap.layered_singleton h)

namespace OptionMap

variable {o lower middle : OptionMap} {upper : Option OptionMap}

/-- Options are flattened by what counts for each key. One layer over another is their union in
which the upper one wins; a layer that is empty or absent adds nothing, nor does one that is there
already, and layers may be put together in any order of brackets, as those of an instance: the
options of its project, those in the configuration and its own. -/
theorem layering_laws (ho : o.Sorted) (hmaps : ∀ entries ∈ o.maps, Dict.Sorted entries)
    (hlower : lower.Sorted) (hmiddle : middle.Sorted)
    (hupper : ∀ layer ∈ upper, Dict.Sorted layer) :
    (∀ key r, o.flatten.get? key = r ↔ Counts o key r) ∧
      IsUnion lower upper (lower.merge upper) ∧
      lower.merge none = lower ∧ lower.merge (some []) = lower ∧
      (lower.merge (some middle)).merge upper = lower.merge (some (middle.merge upper)) ∧
      lower.merge (some lower) = lower ∧ (lower.merge upper).merge upper = lower.merge upper ∧
      ∀ (spec : Spec) (key : String) (own : OptionMap) (b : Bracketing),
        (∀ layer ∈ b.layers, Dict.Sorted layer) → b.layers = spec.layers key ++ [own] →
          b.merged = (spec.optionsFor key).merge (some own) := by
  refine ⟨fun key r => get?_flatten_eq_iff ho hmaps, isUnion_merge hlower hupper, rfl, rfl,
    merge_assoc hlower hmiddle hupper, merge_self hlower, merge_merge_self hlower hupper,
    fun spec key own b hsorted hlayers => ?_⟩
  have hoptions : spec.options.Sorted := hsorted _ (hlayers ▸ List.mem_cons_self)
  rw [Bracketing.merged_eq hsorted, hlayers, layered_concat, Spec.layered_layers hoptions]

namespace Small

/-- Groups of options, of which one is named like an option in another. -/
def groups : OptionMap :=
  [("a", .map [("port", .text "80"), ("zone", .text "east")]),
    ("b", .map [("a", .bool true), ("port", .text "81")]),
    ("port", .map [("zone", .text "north")]), ("zone", .text "south")]

def configuration : OptionMap := [("namespace", .text "dev"), ("port", .text "81")]

def spec : Spec where
  tool := "helm"
  options := [("chartPath", .text "chart"), ("port", .text "80")]
  configurations := [("dev", configuration)]
  defaultConfiguration := none

/-- The options of an instance. -/
def own : OptionMap := [("port", .text "82")]

/-- The options of an instance, its own put over those in the configuration first. -/
def bracketing : Bracketing :=
  .pair (.layer spec.options) (.pair (.layer configuration) (.layer own))

end Small

/-- The last group that has a port counts for it, the own zone for that of any group, and nothing
for the name of a group. The options of an instance may be put together from the top. -/
theorem groups_layered :
    (Small.groups.Sorted ∧ ∀ entries ∈ Small.groups.maps, Dict.Sorted entries) ∧
      (Counts Small.groups "port" (some (.text "81")) ∧
        Counts Small.groups "zone" (some (.text "south")) ∧ Counts Small.groups "b" none) ∧
      (∀ layer ∈ Small.bracketing.layers, Dict.Sorted layer) ∧
      Small.bracketing.layers = Small.spec.layers "dev" ++ [Small.own] ∧
      Small.bracketing.merged = (Small.spec.optionsFor "dev").merge (some Small.own) := by
  have hgroups : Small.groups.Sorted := by decide
  have hmaps : ∀ entries ∈ Small.groups.maps, Dict.Sorted entries := by
    simp only [Small.groups, maps, OptionValue.entries?, List.filterMap_cons, List.filterMap_nil,
      List.forall_mem_cons]
    decide
  have hlayers : ∀ layer ∈ Small.bracketing.layers, Dict.Sorted layer := by
    simp only [Small.bracketing, Bracketing.layers, List.cons_append, List.nil_append,
      List.forall_mem_cons]
    decide
  obtain ⟨hcounts, -, -, -, -, -, -, hinstance⟩ :=
    layering_laws hgroups hmaps (show Small.spec.options.Sorted by decide)
      (show Small.configuration.Sorted by decide)
      (show ∀ layer ∈ some Small.own, Dict.Sorted layer by decide)
  exact ⟨⟨hgroups, hmaps⟩, ⟨(hcounts _ _).1 rfl, (hcounts _ _).1 rfl, (hcounts _ _).1 rfl⟩,
    hlayers, rfl, hinstance _ _ _ _ hlayers rfl⟩

end OptionMap
end Rollout

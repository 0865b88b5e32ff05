import Mathlib.Tactic.Common
import Rollout.Options.Layering
import Rollout.Proofs.Options.Written

/-!
# How deep options are nested

What an option is read as does not hang on the room for its levels, as long as there is enough of
it (`OptionValue.ofSource?_depth`). Options that were read are therefore read again wherever they
are put, exactly if the room there is enough for the deepest of them
(`OptionMap.ofSource?_toJson_of_room`, `OptionMap.depth_le_of_ofSource?`).
-/

namespace Rollout

open Json (Source)

namespace Json.Source

mutual

/-- How many lists and objects are opened one in another. -/
def depth : Source → Nat
  | .null => 0
  | .bool _ => 0
  | .number _ => 0
  | .text _ => 0
  | .array items => depthOfItems items + 1
  | .object members => depthOfMembers members + 1

def depthOfItems : List Source → Nat
  | [] => 0
  | item :: items => max item.depth (depthOfItems items)

def depthOfMembers : List (Option String × Source) → Nat
  | [] => 0
  | (_, item) :: members => max item.depth (depthOfMembers members)

end

end Json.Source

namespace OptionValue

mutual

/-- A value is read with just the room that its text takes, and with any more. -/
theorem ofSource?_depth {room : Nat} {v : OptionValue} :
    ∀ {source : Source}, ofSource? room source = some v →
      source.depth ≤ room ∧ ∀ room', source.depth ≤ room' → ofSource? room' source = some v
  | .null, h => by cases h
  | .bool _, h => ⟨Nat.zero_le _, fun _ _ => h⟩
  | .number _, h => ⟨Nat.zero_le _, fun _ _ => h⟩
  | .text _, h => ⟨Nat.zero_le _, fun _ _ => h⟩
  | .array items, h => by
    cases room with
    | zero => cases h
    | succ room =>
      obtain ⟨vs, hvs, rfl⟩ := Option.map_eq_some_iff.1 h
      obtain ⟨hroom, hmore⟩ := ofItems?_depth hvs
      refine ⟨Nat.succ_le_succ hroom, fun room' hroom' => ?_⟩
      cases room' with
      | zero => cases hroom'
      | succ room' => exact congrArg (Option.map list) (hmore room' (Nat.le_of_succ_le_succ hroom'))
  | .object members, h => by
    cases room with
    | zero => cases h
    | succ room =>
      obtain ⟨entries, hentries, rfl⟩ := Option.map_eq_some_iff.1 h
      obtain ⟨hroom, hmore⟩ := ofMembers?_depth hentries
      refine ⟨Nat.succ_le_succ hroom, fun room' hroom' => ?_⟩
      cases room' with
      | zero => cases hroom'
      | succ room' =>
        exact congrArg (Option.map fun entries => map (Dict.ofEntries entries))
          (hmore room' (Nat.le_of_succ_le_succ hroom'))

theorem ofItems?_depth {room : Nat} {vs : List OptionValue} :
    ∀ {items : List Source}, ofItems? room items = some vs →
      Source.depthOfItems items ≤ room ∧
        ∀ room', Source.depthOfItems items ≤ room' → ofItems? room' items = some vs
  | [], h => ⟨Nat.zero_le _, fun _ _ => h⟩
  | item :: items, h => by
    simp only [ofItems?, bind, Option.bind_eq_some_iff] at h
    obtain ⟨v, hv, rest, hrest, hvs⟩ := h
    cases hvs
    obtain ⟨hroom, hmore⟩ := ofSource?_depth hv
    obtain ⟨hrooms, hmores⟩ := ofItems?_depth hrest
    refine ⟨Nat.max_le.2 ⟨hroom, hrooms⟩, fun room' hroom' => ?_⟩
    obtain ⟨hhead, htail⟩ := Nat.max_le.1 hroom'
    rw [ofItems?, hmore room' hhead, hmores room' htail]
    rfl

theorem ofMembers?_depth {room : Nat} {entries : List (String × OptionValue)} :
    ∀ {members : List (Option String × Source)}, ofMembers? room members = some entries →
      Source.depthOfMembers members ≤ room ∧
        ∀ room', Source.depthOfMembers members ≤ room' → ofMembers? room' members = some entries
  | [], h => ⟨Nat.zero_le _, fun _ _ => h⟩
  | (key, item) :: members, h => by
    simp only [ofMembers?, bind, Option.bind_eq_some_iff] at h
    obtain ⟨k, rfl, v, hv, rest, hrest, hentries⟩ := h
    cases hentries
    obtain ⟨hroom, hmore⟩ := ofSource?_depth hv
    obtain ⟨hrooms, hmores⟩ := ofMembers?_depth hrest
    refine ⟨Nat.max_le.2 ⟨hroom, hrooms⟩, fun room' hroom' => ?_⟩
    obtain ⟨hhead, htail⟩ := Nat.max_le.1 hroom'
    rw [ofMembers?, hmore room' hhead, hmores room' htail]
    rfl

end

/-- The levels of a value as it is written. -/
def depth (v : OptionValue) : Nat := v.toJson.toSource.depth

/-- A value that some text stands for. -/
def Readable (v : OptionValue) : Prop := ∃ room source, ofSource? room source = some v

theorem readable_text (s : String) : (text s).Readable := ⟨0, .text (some s), rfl⟩

theorem exists_source_of_mem {room : Nat} {entries : List (String × OptionValue)} :
    ∀ {members : List (Option String × Source)}, ofMembers? room members = some entries →
      ∀ e ∈ entries, ∃ source, ofSource? room source = some e.2
  | [], h, e, he => by
    cases h
    cases he
  | (key, item) :: members, h, e, he => by
    simp only [ofMembers?, bind, Option.bind_eq_some_iff] at h
    obtain ⟨k, -, v, hv, rest, hrest, hentries⟩ := h
    cases hentries
    rcases List.mem_cons.1 he with rfl | he
    · exact ⟨item, hv⟩
    · exact exists_source_of_mem hrest e he

/-- The entries of a map are sorted, and they were read with one level less. -/
theorem ofSource?_eq_map {room : Nat} {source : Source} {entries : List (String × OptionValue)}
    (h : ofSource? room source = some (map entries)) :
    ∃ inside, room = inside + 1 ∧ Dict.Sorted entries ∧
      ∀ e ∈ entries, ∃ source, ofSource? inside source = some e.2 := by
  cases source with
  | object members =>
    cases room with
    | zero => cases h
    | succ room =>
      obtain ⟨read, hread, heq⟩ := Option.map_eq_some_iff.1 h
      obtain rfl := map.inj heq
      exact ⟨room, rfl, Dict.sorted_ofEntries read, fun e he =>
        exists_source_of_mem hread e (Dict.mem_of_mem_ofEntries he)⟩
  | array items =>
    cases room with
    | zero => cases h
    | succ room =>
      obtain ⟨_, _, heq⟩ := Option.map_eq_some_iff.1 h
      cases heq
  | number n =>
    obtain ⟨n, -, hn⟩ := Option.bind_eq_some_iff.1 h
    cases n with
    | integer n =>
      rw [ofNumber?] at hn
      split at hn
      · cases hn
      · obtain ⟨_, _, heq⟩ := Option.map_eq_some_iff.1 hn
        cases heq
    | real x => cases hn
  | text content =>
    obtain ⟨_, _, heq⟩ := Option.map_eq_some_iff.1 h
    cases heq
  | null => cases h
  | bool b => cases h

theorem Readable.entry {entries : List (String × OptionValue)} (h : (map entries).Readable) :
    ∀ e ∈ entries, e.2.Readable := by
  intro e he
  obtain ⟨room, source, h⟩ := h
  obtain ⟨inside, -, -, hentries⟩ := ofSource?_eq_map h
  exact ⟨inside, hentries e he⟩

/-- A value that was read is read again with any room that is enough for it, -/
theorem Readable.ofSource?_toJson {v : OptionValue} (h : v.Readable) (hf : v.toJson.Faithful)
    {room : Nat} (hroom : v.depth ≤ room) : ofSource? room v.toJson.toSource = some v := by
  obtain ⟨_, _, hread⟩ := h
  exact (ofSource?_depth (OptionValue.ofSource?_toJson hread hf)).2 room hroom

/-- and with no less. -/
theorem depth_le_of_ofSource? {v u : OptionValue} {room : Nat}
    (h : ofSource? room v.toJson.toSource = some u) : v.depth ≤ room :=
  (ofSource?_depth h).1

end OptionValue

namespace OptionMap

/-- Options that were read are sorted, and each was read with one level less. -/
theorem ofSource?_eq_some {room : Nat} {source : Source} {o : OptionMap}
    (h : ofSource? (room + 1) source = some o) :
    o.Sorted ∧ ∀ e ∈ o, ∃ source, OptionValue.ofSource? room source = some e.2 := by
  rw [ofSource?] at h
  split at h
  · rename_i entries hmap
    cases h
    obtain ⟨inside, hroom, hsorted, hentries⟩ := OptionValue.ofSource?_eq_map hmap
    obtain rfl : room = inside := Nat.succ.inj hroom
    exact ⟨hsorted, hentries⟩
  · cases h

/-- Sorted options are read again where the room inside is enough for each of them. -/
theorem ofSource?_toJson_of_room {o : OptionMap} (hsorted : o.Sorted)
    (hread : ∀ e ∈ o, e.2.Readable) (hf : o.toJson.Faithful) {room : Nat}
    (hroom : ∀ e ∈ o, e.2.depth ≤ room) : ofSource? (room + 1) o.toJson.toSource = some o := by
  have hmembers := OptionValue.ofMembers?_toSourceMembers fun e he =>
    (hread e he).ofSource?_toJson (OptionValue.faithful_member hf e he) (hroom e he)
  have hback : OptionValue.ofSource? (room + 1) o.toJson.toSource = some (.map o) :=
    (congrArg (Option.map fun entries => OptionValue.map (Dict.ofEntries entries)) hmembers).trans
      (congrArg (some ∘ OptionValue.map) (Dict.ofEntries_eq_self hsorted))
  rw [ofSource?, hback]

theorem depth_le_of_mem {o : OptionMap} : ∀ e ∈ o,
    e.2.depth ≤ Source.depthOfMembers (Json.toSourceMembers (OptionValue.toJsonMembers o)) := by
  induction o with
  | nil => nofun
  | cons head rest ih =>
    intro e he
    rw [OptionValue.toJsonMembers, Json.toSourceMembers, Source.depthOfMembers]
    rcases List.mem_cons.1 he with rfl | he
    · exact Nat.le_max_left _ _
    · exact (ih e he).trans (Nat.le_max_right _ _)

theorem depth_le_of_ofSource? {o o' : OptionMap} {room : Nat}
    (h : ofSource? (room + 1) o.toJson.toSource = some o') : ∀ e ∈ o, e.2.depth ≤ room := by
  intro e he
  obtain ⟨v, hv⟩ : ∃ v, OptionValue.ofSource? (room + 1) o.toJson.toSource = some v := by
    rw [ofSource?] at h
    split at h
    · rename_i hmap
      exact ⟨_, hmap⟩
    · cases h
  exact (depth_le_of_mem e he).trans (Nat.le_of_succ_le_succ (OptionValue.ofSource?_depth hv).1)

/-! ### Flattened options -/

/-- What holds of the lifted entries of no map, and of more of them with one more map, holds of
the lifted entries. -/
theorem lifted_induction {P : OptionMap → Prop} (o : OptionMap) (hempty : P [])
    (hmap : ∀ key entries acc, (key, OptionValue.map entries) ∈ o → P acc →
      P (Dict.overlay acc entries)) : P o.lifted := by
  unfold lifted
  generalize ([] : OptionMap) = acc at hempty
  induction o generalizing acc with
  | nil => exact hempty
  | cons head rest ih =>
    obtain ⟨key, v⟩ := head
    refine ih (fun key entries acc hmem => hmap key entries acc (List.mem_cons_of_mem _ hmem)) _ ?_
    cases v with
    | map entries => exact hmap key entries acc List.mem_cons_self hempty
    | _ => exact hempty

theorem sorted_flatten (o : OptionMap) : o.flatten.Sorted :=
  Dict.sorted_overlay (o.lifted_induction Dict.sorted_nil fun _ entries _ _ h =>
    Dict.sorted_overlay h entries) o.plain

/-- A flattened option is one of the options or an entry of a map among them. -/
theorem readable_flatten {o : OptionMap} (h : ∀ e ∈ o, e.2.Readable) :
    ∀ e ∈ o.flatten, e.2.Readable := by
  have hlifted : ∀ e ∈ o.lifted, e.2.Readable := by
    refine o.lifted_induction (P := fun acc => ∀ e ∈ acc, e.2.Readable) nofun ?_
    intro key entries acc hmem hacc e he
    rcases Dict.mem_of_mem_overlay he with he | he
    · exact (h _ hmem).entry e he
    · exact hacc e he
  intro e he
  rcases Dict.mem_of_mem_overlay he with hplain | he
  · exact h e (List.mem_of_mem_filter hplain)
  · exact hlifted e he

end OptionMap

end Rollout

import Mathlib.Tactic.Common
import Rollout.Options.Value
import Rollout.Proofs.Json.Faithful

/-!
# Options that are read back

An option value that was read comes back, kind and all, from the structure of the text as which
it is written (`OptionValue.ofSource?_toJson`). Integers are read as such where they fit 64
bits with a sign, and the others are floating point numbers from the start.
-/

namespace Rollout

open Json (Source)

namespace OptionValue

theorem toJsonItems_eq_map (vs : List OptionValue) : toJsonItems vs = vs.map toJson := by
  induction vs with
  | nil => rfl
  | cons v vs ih => rw [toJsonItems, ih, List.map_cons]

theorem toJsonMembers_eq_map (entries : List (String × OptionValue)) :
    toJsonMembers entries = entries.map fun e => (e.1, e.2.toJson) := by
  induction entries with
  | nil => rfl
  | cons e entries ih => rw [toJsonMembers, ih, List.map_cons]

theorem toInt_ofInt {n : Int} (h : isInt64 n = true) : (Int64.ofInt n).toInt = n := by
  simp only [isInt64, Bool.and_eq_true, decide_eq_true_eq] at h
  exact Int64.toInt_ofInt_of_le h.1 h.2

/-- A number that was read as an option is written as a number with the same value. -/
theorem ofSource?_number {room : Nat} {m : Json.Numeral} {v : OptionValue}
    (h : ofSource? room (.number m) = some v) (hv : v.toJson.Faithful) :
    ofSource? room v.toJson.toSource = some v := by
  obtain ⟨n, hn, hof⟩ := Option.bind_eq_some_iff.1 h
  have hreal {x : Number.Binary64} (hx : Json.Faithful (.number (.real x))) :
      ofSource? room (Json.number (.real x)).toSource = some (.real x) :=
    congrArg (Option.bind · ofNumber?) (Json.readsBack_iff.1 (hx x List.mem_cons_self))
  cases n with
  | integer n =>
    rw [ofNumber?] at hof
    split at hof
    · rename_i hrange
      cases hof
      have hvalue := Json.Number.value?_numeral_integer hn
      change ((Json.Number.integer (Int64.ofInt n).toInt).numeral.value?).bind ofNumber? = _
      rw [toInt_ofInt hrange, hvalue, Option.bind_some, ofNumber?, if_pos hrange]
    · obtain ⟨x, -, rfl⟩ := Option.map_eq_some_iff.1 hof
      exact hreal hv
  | real x =>
    cases hof
    exact hreal hv

theorem ofItems?_toSources {room : Nat} {vs : List OptionValue}
    (h : ∀ v ∈ vs, ofSource? room v.toJson.toSource = some v) :
    ofItems? room (Json.toSources (toJsonItems vs)) = some vs := by
  induction vs with
  | nil => rfl
  | cons v vs ih =>
    rw [toJsonItems, Json.toSources, ofItems?, h v List.mem_cons_self,
      ih fun v hv => h v (List.mem_cons_of_mem _ hv)]
    rfl

theorem ofMembers?_toSourceMembers {room : Nat} {entries : List (String × OptionValue)}
    (h : ∀ e ∈ entries, ofSource? room e.2.toJson.toSource = some e.2) :
    ofMembers? room (Json.toSourceMembers (toJsonMembers entries)) = some entries := by
  induction entries with
  | nil => rfl
  | cons e entries ih =>
    rw [toJsonMembers, Json.toSourceMembers, ofMembers?, h e List.mem_cons_self,
      ih fun e he => h e (List.mem_cons_of_mem _ he)]
    rfl

theorem faithful_item {vs : List OptionValue} (h : (toJson (.list vs)).Faithful) :
    ∀ v ∈ vs, v.toJson.Faithful := fun _ hv =>
  h.item _ (toJsonItems_eq_map vs ▸ List.mem_map_of_mem hv)

theorem faithful_member {entries : List (String × OptionValue)}
    (h : (toJson (.map entries)).Faithful) : ∀ e ∈ entries, e.2.toJson.Faithful := fun e he =>
  h.member (e.1, e.2.toJson) (toJsonMembers_eq_map entries ▸
    List.mem_map_of_mem (f := fun e => (e.1, e.2.toJson)) he)

mutual

/-- An option value that was read is read again from what it is written as. -/
theorem ofSource?_toJson {room : Nat} {v : OptionValue} :
    ∀ {source : Source}, ofSource? room source = some v → v.toJson.Faithful →
      ofSource? room v.toJson.toSource = some v
  | .null, h, _ => by cases h
  | .bool b, h, _ => by
    cases h
    rfl
  | .number _, h, hv => ofSource?_number h hv
  | .text content, h, _ => by
    obtain ⟨s, -, rfl⟩ := Option.map_eq_some_iff.1 h
    rfl
  | .array items, h, hv => by
    cases room with
    | zero => cases h
    | succ room =>
      obtain ⟨vs, hvs, rfl⟩ := Option.map_eq_some_iff.1 h
      have hitems := ofItems?_toSources fun v hmem =>
        ofItems?_toJson hvs v hmem (faithful_item hv v hmem)
      exact congrArg (Option.map list) hitems
  | .object members, h, hv => by
    cases room with
    | zero => cases h
    | succ room =>
      obtain ⟨entries, hentries, rfl⟩ := Option.map_eq_some_iff.1 h
      have hmembers := ofMembers?_toSourceMembers fun e he =>
        ofMembers?_toJson hentries e (Dict.mem_of_mem_ofEntries he) (faithful_member hv e he)
      have hsorted := Dict.ofEntries_eq_self (Dict.sorted_ofEntries entries)
      exact (congrArg (Option.map fun entries => map (Dict.ofEntries entries)) hmembers).trans
        (congrArg (some ∘ map) hsorted)

theorem ofItems?_toJson {room : Nat} {vs : List OptionValue} :
    ∀ {items : List Source}, ofItems? room items = some vs →
      ∀ v ∈ vs, v.toJson.Faithful → ofSource? room v.toJson.toSource = some v
  | [], h, v, hv, _ => by
    cases h
    cases hv
  | item :: items, h, v, hv, hj => by
    simp only [ofItems?, bind, Option.bind_eq_some_iff] at h
    obtain ⟨w, hw, ws, hws, hvs⟩ := h
    cases hvs
    rcases List.mem_cons.1 hv with rfl | hv
    · exact ofSource?_toJson hw hj
    · exact ofItems?_toJson hws v hv hj

theorem ofMembers?_toJson {room : Nat} {entries : List (String × OptionValue)} :
    ∀ {members : List (Option String × Source)}, ofMembers? room members = some entries →
      ∀ e ∈ entries, e.2.toJson.Faithful → ofSource? room e.2.toJson.toSource = some e.2
  | [], h, e, he, _ => by
    cases h
    cases he
  | (key, item) :: members, h, e, he, hj => by
    simp only [ofMembers?, bind, Option.bind_eq_some_iff] at h
    obtain ⟨k, -, w, hw, ws, hws, hentries⟩ := h
    cases hentries
    rcases List.mem_cons.1 he with rfl | he
    · exact ofSource?_toJson hw hj
    · exact ofMembers?_toJson hws e he hj

end

end OptionValue

/-- Options that were read are read again from what they are written as. -/
theorem OptionMap.ofSource?_toJson {room : Nat} {source : Source} {o : OptionMap}
    (h : OptionMap.ofSource? room source = some o) (ho : o.toJson.Faithful) :
    OptionMap.ofSource? room o.toJson.toSource = some o := by
  rw [OptionMap.ofSource?] at h
  split at h
  · rename_i entries hmap
    cases h
    have hback : OptionValue.ofSource? room o.toJson.toSource = some (.map o) :=
      OptionValue.ofSource?_toJson hmap ho
    rw [OptionMap.ofSource?, hback]
  · cases h

end Rollout

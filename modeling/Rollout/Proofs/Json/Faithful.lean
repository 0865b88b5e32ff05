import Mathlib.Tactic.Common
import Rollout.Proofs.Dict
import Rollout.Proofs.Json.Written

/-!
# Values that are read back

What a text gives as a value is the value of the text as which it is written (`value?_toSource`),
as long as that is so of its floating point numbers: their digits are the one thing here that
is not exact by construction.
-/

namespace Rollout.Json

open Rollout.Number (Binary64)

/-! ### Floating point numbers -/

mutual

/-- The floating point numbers in a value. -/
def reals : Json → List Binary64
  | .null => []
  | .bool _ => []
  | .number (.integer _) => []
  | .number (.real x) => [x]
  | .text _ => []
  | .array items => realsOfItems items
  | .object members => realsOfMembers members

def realsOfItems : List Json → List Binary64
  | [] => []
  | item :: items => item.reals ++ realsOfItems items

def realsOfMembers : List (String × Json) → List Binary64
  | [] => []
  | (_, item) :: members => item.reals ++ realsOfMembers members

end

/-- A floating point number is read back from its text. -/
def ReadsBack (x : Binary64) : Prop :=
  read? (Json.number (.real x)).compact = some (.number (.real x))

/-- Every floating point number in the value is read back from its text. -/
def Faithful (j : Json) : Prop := ∀ x ∈ j.reals, ReadsBack x

theorem readsBack_iff {x : Binary64} :
    ReadsBack x ↔ (Number.real x).numeral.value? = some (.real x) := by
  have hvalue : read? (Json.number (.real x)).compact =
      (Number.real x).numeral.value?.map .number := by
    rw [read?, read?_compact]
    rfl
  rw [ReadsBack, hvalue, Option.map_eq_some_iff]
  constructor
  · rintro ⟨n, hn, hx⟩
    rw [hn, Json.number.inj hx]
  · exact fun hx => ⟨_, hx, rfl⟩

instance (x : Binary64) : Decidable (ReadsBack x) := decidable_of_iff _ readsBack_iff.symm

instance (j : Json) : Decidable j.Faithful := by
  unfold Faithful
  infer_instance

theorem reals_item {item : Json} {items : List Json} (h : item ∈ items) :
    ∀ x ∈ item.reals, x ∈ realsOfItems items := by
  intro x hx
  induction items with
  | nil => cases h
  | cons head items ih =>
    rw [realsOfItems]
    rcases List.mem_cons.1 h with rfl | h
    · exact List.mem_append_left _ hx
    · exact List.mem_append_right _ (ih h)

theorem reals_member {m : String × Json} {members : List (String × Json)} (h : m ∈ members) :
    ∀ x ∈ m.2.reals, x ∈ realsOfMembers members := by
  intro x hx
  induction members with
  | nil => cases h
  | cons head members ih =>
    rw [realsOfMembers]
    rcases List.mem_cons.1 h with rfl | h
    · exact List.mem_append_left _ hx
    · exact List.mem_append_right _ (ih h)

theorem Faithful.item {items : List Json} (h : (array items).Faithful) :
    ∀ item ∈ items, item.Faithful := fun _ hitem x hx => h x (reals_item hitem x hx)

theorem Faithful.member {members : List (String × Json)} (h : (object members).Faithful) :
    ∀ m ∈ members, m.2.Faithful := fun _ hm x hx => h x (reals_member hm x hx)

/-! ### Structures of values -/

theorem values?_toSources {room : Nat} {items : List Json}
    (h : ∀ item ∈ items, item.toSource.value? room = some item) :
    Source.values? room (toSources items) = some items := by
  induction items with
  | nil => rfl
  | cons item items ih =>
    rw [toSources, Source.values?, h item List.mem_cons_self,
      ih fun item hitem => h item (List.mem_cons_of_mem _ hitem)]
    rfl

theorem members?_toSourceMembers {room : Nat} {members : List (String × Json)}
    (h : ∀ m ∈ members, m.2.toSource.value? room = some m.2) :
    Source.members? room (toSourceMembers members) = some members := by
  induction members with
  | nil => rfl
  | cons m members ih =>
    rw [toSourceMembers, Source.members?, h m List.mem_cons_self,
      ih fun m hm => h m (List.mem_cons_of_mem _ hm)]
    rfl

/-- An object with sorted keys is read from its structure if its members are. -/
theorem value?_toSource_object {room : Nat} {members : List (String × Json)} (hsorted : Dict.Sorted members)
    (h : ∀ m ∈ members, m.2.toSource.value? room = some m.2) :
    (object members).toSource.value? (room + 1) = some (object members) := by
  have hmembers := members?_toSourceMembers h
  exact (congrArg (Option.map fun ms => object (Dict.ofEntries ms)) hmembers).trans
    (congrArg (some ∘ object) (Dict.ofEntries_eq_self hsorted))

mutual

/-- A value that was read is read again from its structure. -/
theorem value?_toSource {room : Nat} {j : Json} :
    ∀ {source : Source}, source.value? room = some j → j.Faithful →
      j.toSource.value? room = some j
  | .null, h, _ => by
    cases h
    rfl
  | .bool b, h, _ => by
    cases h
    rfl
  | .number m, h, hj => by
    obtain ⟨n, hn, rfl⟩ := Option.map_eq_some_iff.1 h
    cases n with
    | integer n => exact congrArg (Option.map number) (Number.value?_numeral_integer hn)
    | real x => exact congrArg (Option.map number) (readsBack_iff.1 (hj x List.mem_cons_self))
  | .text content, h, _ => by
    obtain ⟨s, -, rfl⟩ := Option.map_eq_some_iff.1 h
    rfl
  | .array items, h, hj => by
    cases room with
    | zero => cases h
    | succ room =>
      obtain ⟨vs, hvs, rfl⟩ := Option.map_eq_some_iff.1 h
      have hitems := values?_toSources fun v hv => values?_toSource hvs v hv (hj.item v hv)
      exact congrArg (Option.map array) hitems
  | .object members, h, hj => by
    cases room with
    | zero => cases h
    | succ room =>
      obtain ⟨ms, hms, rfl⟩ := Option.map_eq_some_iff.1 h
      exact value?_toSource_object (Dict.sorted_ofEntries ms) fun m hm =>
        members?_toSource hms m (Dict.mem_of_mem_ofEntries hm) (hj.member m hm)

theorem values?_toSource {room : Nat} {vs : List Json} :
    ∀ {items : List Source}, Source.values? room items = some vs →
      ∀ v ∈ vs, v.Faithful → v.toSource.value? room = some v
  | [], h, v, hv, _ => by
    cases h
    cases hv
  | item :: items, h, v, hv, hj => by
    simp only [Source.values?, bind, Option.bind_eq_some_iff] at h
    obtain ⟨w, hw, ws, hws, hvs⟩ := h
    cases hvs
    rcases List.mem_cons.1 hv with rfl | hv
    · exact value?_toSource hw hj
    · exact values?_toSource hws v hv hj

theorem members?_toSource {room : Nat} {ms : List (String × Json)} :
    ∀ {members : List (Option String × Source)}, Source.members? room members = some ms →
      ∀ m ∈ ms, m.2.Faithful → m.2.toSource.value? room = some m.2
  | [], h, m, hm, _ => by
    cases h
    cases hm
  | (key, item) :: members, h, m, hm, hj => by
    simp only [Source.members?, bind, Option.bind_eq_some_iff] at h
    obtain ⟨k, -, w, hw, ws, hws, hms⟩ := h
    cases hms
    rcases List.mem_cons.1 hm with rfl | hm
    · exact value?_toSource hw hj
    · exact members?_toSource hws m hm hj

end

/-- Reading what is written for a value that was read gives the value again. -/
theorem read?_pretty_of_read {text : String} {j : Json} (h : read? text = some j)
    (hj : j.Faithful) : read? (j.pretty ++ "\n") = some j := by
  obtain ⟨source, -, hvalue⟩ := Option.bind_eq_some_iff.1 h
  rw [read?, read?_pretty]
  exact value?_toSource hvalue hj

end Rollout.Json

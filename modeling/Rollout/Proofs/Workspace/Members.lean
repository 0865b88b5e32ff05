import Mathlib.Tactic.Common
import Rollout.Proofs.Options.Written
import Rollout.Workspace.Document

/-!
# The members of documents

A structure is written as an object with the members that it knows, in order, and then the
others, which are sorted (`Layout`). Each reader of a member finds there what was written for
it (`Layout.field_eq`), and the others are collected again (`Layout.extra?_eq`). A structure whose
parts are read back is then read back itself, which is what `Rereads` says of a reader.
-/

namespace Rollout.Document

open Json (Source)

/-! ### Members of a written object -/

/-- The members of a written object, each with the structure of its value. -/
def sourced (ms : List (String × Json)) : List (String × Source) :=
  ms.map fun m => (m.1, m.2.toSource)

theorem keys_sourced (ms : List (String × Json)) : Dict.keys (sourced ms) = Dict.keys ms := by
  simp [Dict.keys, sourced]

theorem get?_sourced (key : String) (ms : List (String × Json)) :
    Dict.get? key (sourced ms) = (Dict.get? key ms).map Json.toSource :=
  Dict.get?_map Json.toSource key ms

theorem keyed?_toSourceMembers (ms : List (String × Json)) :
    keyed? (Json.toSourceMembers ms) = some (sourced ms) := by
  induction ms with
  | nil => rfl
  | cons m ms ih =>
    rw [Json.toSourceMembers, keyed?, ih]
    rfl

theorem members?_toSource (room : Nat) (ms : List (String × Json)) :
    members? (room + 1) (Json.object ms).toSource = some (room, sourced ms) := by
  rw [Json.toSource, members?, keyed?_toSourceMembers]
  rfl

/-- Reading an object takes one level of the room. -/
theorem room_of_members? {room room' : Nat} {source : Source} {ms : List (String × Source)}
    (h : members? room source = some (room', ms)) : room = room' + 1 := by
  unfold members? at h
  split at h
  · obtain ⟨ms', -, heq⟩ := Option.map_eq_some_iff.1 h
    rw [(Prod.mk.inj heq).1]
  · cases h

theorem inside_le_of_members? {room inside limit : Nat} {source : Source}
    {ms : List (String × Source)} (h : members? room source = some (inside, ms))
    (hroom : room ≤ limit) : inside ≤ limit := by
  rw [room_of_members? h] at hroom
  exact Nat.le_of_succ_le hroom

theorem member?_of_nodup {ms : List (String × Source)} (h : (Dict.keys ms).Nodup) (key : String) :
    member? ms key = some (Dict.get? key ms) := by
  rw [member?, Dict.filter_key h]
  cases Dict.get? key ms <;> rfl

/-! ### Entries -/

section Entries

variable {α : Type} {read : Source → Option α}

/-- Entries are read one by one, each under the key of its member. -/
theorem forall₂_of_mapM {members : List (String × Source)} {entries : List (String × α)}
    (h : (members.mapM fun m => (read m.2).map fun v => (m.1, v)) = some entries) :
    List.Forall₂ (fun m e => m.1 = e.1 ∧ read m.2 = some e.2) members entries := by
  induction members generalizing entries with
  | nil =>
    cases h
    exact .nil
  | cons m members ih =>
    simp only [List.mapM_cons, bind, Option.bind_eq_some_iff] at h
    obtain ⟨e, he, rest, hrest, hentries⟩ := h
    cases hentries
    obtain ⟨v, hv, rfl⟩ := Option.map_eq_some_iff.1 he
    exact .cons ⟨rfl, hv⟩ (ih hrest)

theorem read_of_mem {members : List (String × Source)} {entries : List (String × α)}
    (h : (members.mapM fun m => (read m.2).map fun v => (m.1, v)) = some entries)
    {e : String × α} (he : e ∈ entries) : ∃ source, read source = some e.2 := by
  have hall := forall₂_of_mapM h
  clear h
  induction hall with
  | nil => cases he
  | cons hhead _ ih =>
    rcases List.mem_cons.1 he with rfl | he
    · exact ⟨_, hhead.2⟩
    · exact ih he

theorem read_of_mem_members {members : List (String × Source)} {entries : List (String × α)}
    (h : (members.mapM fun m => (read m.2).map fun v => (m.1, v)) = some entries)
    {m : String × Source} (hm : m ∈ members) : ∃ v, read m.2 = some v ∧ (m.1, v) ∈ entries := by
  have hall := forall₂_of_mapM h
  clear h
  induction hall with
  | nil => cases hm
  | cons hhead _ ih =>
    rcases List.mem_cons.1 hm with rfl | hm
    · exact ⟨_, hhead.2, by rw [hhead.1]; exact List.mem_cons_self⟩
    · obtain ⟨v, hv, hmem⟩ := ih hm
      exact ⟨v, hv, List.mem_cons_of_mem _ hmem⟩

theorem keys_of_mapM {members : List (String × Source)} {entries : List (String × α)}
    (h : (members.mapM fun m => (read m.2).map fun v => (m.1, v)) = some entries) :
    Dict.keys entries = Dict.keys members := by
  have hall := forall₂_of_mapM h
  clear h
  induction hall with
  | nil => rfl
  | cons hhead _ ih => exact congrArg₂ List.cons hhead.1.symm ih

/-- Entries that are read back one by one are read back as a whole. -/
theorem mapM_sourced (read : Source → Option α) (json : α → Json) {entries : List (String × α)}
    (h : ∀ e ∈ entries, read (json e.2).toSource = some e.2) :
    ((sourced (entries.map fun e => (e.1, json e.2))).mapM
      fun m => (read m.2).map fun v => (m.1, v)) = some entries := by
  induction entries with
  | nil => rfl
  | cons e entries ih =>
    have hrest := ih fun e he => h e (List.mem_cons_of_mem _ he)
    rw [sourced] at hrest
    rw [List.map_cons, sourced, List.map_cons, List.mapM_cons, h e List.mem_cons_self, hrest]
    rfl

end Entries

/-! ### The layout of a structure -/

/-- The members of a written structure: those it knows, in order, and then the others. -/
structure Layout (known : List String) (front : List (String × Json)) (extra : Extra) : Prop where
  nodup : known.Nodup
  front : (Dict.keys front).Sublist known
  sorted : extra.Sorted
  others : ∀ key ∈ Dict.keys extra, key ∉ known

namespace Layout

variable {known : List String} {front : List (String × Json)} {extra : Extra}

theorem keys_nodup (h : Layout known front extra) : (Dict.keys (front ++ extra)).Nodup := by
  rw [Dict.keys, List.map_append]
  refine List.nodup_append.2 ⟨h.nodup.sublist h.front, h.sorted.nodup_keys, ?_⟩
  rintro a ha b hb rfl
  exact h.others a hb (h.front.subset ha)

theorem get?_known (h : Layout known front extra) {key : String} (hkey : key ∈ known) :
    Dict.get? key (front ++ extra) = Dict.get? key front := by
  have hextra : Dict.get? key extra = none := by
    by_contra hne
    exact h.others key (Dict.mem_keys_iff.2 hne) hkey
  rw [Dict.get?_append, hextra, Option.or_none]

theorem get?_other (h : Layout known front extra) {key : String} (hkey : key ∉ known) :
    Dict.get? key (front ++ extra) = Dict.get? key extra := by
  have hfront : Dict.get? key front = none := by
    by_contra hne
    exact hkey (h.front.subset (Dict.mem_keys_iff.2 hne))
  rw [Dict.get?_append, hfront, Option.none_or]

/-- A known member is looked for among the known ones only. -/
theorem member?_eq (h : Layout known front extra) {key : String} (hkey : key ∈ known) :
    member? (sourced (front ++ extra)) key = some ((Dict.get? key front).map Json.toSource) := by
  have hnodup : (Dict.keys (sourced (front ++ extra))).Nodup := keys_sourced _ ▸ h.keys_nodup
  rw [member?_of_nodup hnodup, get?_sourced, h.get?_known hkey]

theorem filter_others (h : Layout known front extra) :
    (sourced (front ++ extra)).filter (fun m => !known.contains m.1) = sourced extra := by
  have hfront : (sourced front).filter (fun m => !known.contains m.1) = [] := by
    refine List.filter_eq_nil_iff.2 fun m hm => ?_
    have hmem : m.1 ∈ Dict.keys front := keys_sourced front ▸ List.mem_map_of_mem hm
    simpa using h.front.subset hmem
  have hextra : (sourced extra).filter (fun m => !known.contains m.1) = sourced extra := by
    refine List.filter_eq_self.2 fun m hm => ?_
    have hmem : m.1 ∈ Dict.keys extra := keys_sourced extra ▸ List.mem_map_of_mem hm
    simpa using h.others m.1 hmem
  rw [sourced, List.map_append, List.filter_append]
  exact (congrArg₂ (· ++ ·) hfront hextra).trans (List.nil_append _)

/-- The other members are collected from the text as they were. -/
theorem extra?_eq (h : Layout known front extra) {room : Nat}
    (hvalue : ∀ m ∈ extra, m.2.toSource.value? room = some m.2) :
    extra? room known (sourced (front ++ extra)) = some extra := by
  have hvalues := mapM_sourced (Source.value? room) (fun j => j) hvalue
  rw [List.map_id'' fun _ => rfl] at hvalues
  simp only [extra?, h.filter_others, hvalues, bind, Option.bind_some]
  exact congrArg some (Dict.ofEntries_eq_self h.sorted)

end Layout

/-- What is collected as others is sorted, has no known key, and consists of values of the
text. -/
theorem extra?_eq_some {room : Nat} {known : List String} {members : List (String × Source)}
    {extra : Extra} (h : extra? room known members = some extra) :
    extra.Sorted ∧ (∀ key ∈ Dict.keys extra, key ∉ known) ∧
      ∀ m ∈ extra, ∃ source : Source, source.value? room = some m.2 := by
  simp only [extra?, bind, Option.bind_eq_some_iff] at h
  obtain ⟨values, hvalues, hextra⟩ := h
  cases hextra
  refine ⟨Dict.sorted_ofEntries values, ?_, fun m hm =>
    read_of_mem hvalues (Dict.mem_of_mem_ofEntries hm)⟩
  intro key hkey
  obtain ⟨m, hm, rfl⟩ := List.mem_map.1 hkey
  have hmem : m.1 ∈ Dict.keys values := List.mem_map_of_mem (Dict.mem_of_mem_ofEntries hm)
  rw [keys_of_mapM hvalues] at hmem
  obtain ⟨member, hmember, heq⟩ := List.mem_map.1 hmem
  rw [← heq]
  simpa using (List.mem_filter.1 hmember).2

theorem Layout.of_extra? {known : List String} {front : List (String × Json)} {extra : Extra}
    {room : Nat} {members : List (String × Source)} (h : extra? room known members = some extra)
    (hknown : known.Nodup) (hfront : (Dict.keys front).Sublist known) :
    Layout known front extra :=
  ⟨hknown, hfront, (extra?_eq_some h).1, (extra?_eq_some h).2.1⟩

/-! ### Reading again -/

/-- What a reader has read it reads again from what is written for it. -/
def Rereads {α : Type} (reader : Reader α) (json : α → Json) (room : Nat) : Prop :=
  ∀ ⦃source : Source⦄ ⦃a : α⦄, reader room source = some a → (json a).Faithful →
    reader room (json a).toSource = some a

theorem rereads_text (room : Nat) : Rereads text .text room := fun _ _ _ _ => rfl

theorem rereads_optionMap (room : Nat) : Rereads optionMap OptionMap.toJson room :=
  fun _ _ h hf => OptionMap.ofSource?_toJson h hf

/-- Sorted entries that are read back one by one are read back, -/
theorem dict_toJson {α : Type} {reader : Reader α} {json : α → Json} {room : Nat} {d : Dict α}
    (hsorted : d.Sorted) (h : ∀ e ∈ d, reader room (json e.2).toSource = some e.2) :
    dict reader (room + 1) (Json.object (d.map fun e => (e.1, json e.2))).toSource = some d := by
  simp only [dict, members?_toSource, bind, Option.bind_some, mapM_sourced (reader room) json h]
  exact congrArg some (Dict.ofEntries_eq_self hsorted)

/-- and not where one of them cannot be read. -/
theorem dict_toJson_eq_none {α : Type} {reader : Reader α} {json : α → Json} {room : Nat}
    {d : Dict α} {e : String × α} (he : e ∈ d) (h : reader room (json e.2).toSource = none) :
    dict reader (room + 1) (Json.object (d.map fun e => (e.1, json e.2))).toSource = none := by
  have hmembers : ((sourced (d.map fun e => (e.1, json e.2))).mapM
      fun m => (reader room m.2).map fun v => (m.1, v)) = none := by
    rw [← Option.not_isSome_iff_eq_none, Option.isSome_iff_exists]
    rintro ⟨entries, hentries⟩
    have hmem := List.mem_map_of_mem (f := fun m : String × Json => (m.1, m.2.toSource))
      (List.mem_map_of_mem (f := fun e => (e.1, json e.2)) he)
    obtain ⟨a, ha, -⟩ := read_of_mem_members hentries hmem
    cases h.symm.trans ha
  simp only [dict, members?_toSource, bind, Option.bind_some, hmembers]
  rfl

/-- Entries that were read are sorted, and each was read with one level less. -/
theorem dict_eq_some {α : Type} {reader : Reader α} {room : Nat} {source : Source} {d : Dict α}
    (h : dict reader (room + 1) source = some d) :
    d.Sorted ∧ ∀ e ∈ d, ∃ source, reader room source = some e.2 := by
  simp only [dict, bind, Option.bind_eq_some_iff] at h
  obtain ⟨⟨room', members⟩, hmembers, entries, hentries, hd⟩ := h
  obtain rfl : room = room' := Nat.succ.inj (room_of_members? hmembers)
  cases hd
  exact ⟨Dict.sorted_ofEntries entries, fun e he =>
    read_of_mem hentries (Dict.mem_of_mem_ofEntries he)⟩

theorem Rereads.dict {α : Type} {reader : Reader α} {json : α → Json} {room : Nat}
    (h : Rereads reader json room) :
    Rereads (dict reader) (fun d => .object (d.map fun e => (e.1, json e.2))) (room + 1) := by
  intro source d hd hf
  obtain ⟨hsorted, hentries⟩ := dict_eq_some hd
  refine dict_toJson hsorted fun e he => ?_
  obtain ⟨source, hsource⟩ := hentries e he
  have hmem := List.mem_map_of_mem (f := fun e => (e.1, json e.2)) he
  exact h hsource (hf.member _ hmem)

section Fields

variable {α : Type} {reader : Reader α} {default : α} {room : Nat} {key : String} {a : α}

/-- A value that was read, or that is the default for want of one, is read again. -/
theorem Rereads.of_field {json : α → Json} (h : Rereads reader json room)
    (hdefault : reader room (json default).toSource = some default)
    (ha : a = default ∨ ∃ source, reader room source = some a) (hf : (json a).Faithful) :
    reader room (json a).toSource = some a := by
  rcases ha with rfl | ⟨source, hsource⟩
  · exact hdefault
  · exact h hsource hf

theorem field_eq_some {members : List (String × Source)}
    (h : field reader default room members key = some a) :
    a = default ∨ ∃ source, reader room source = some a := by
  simp only [field, bind, Option.bind_eq_some_iff] at h
  obtain ⟨source, -, h⟩ := h
  cases source with
  | none => exact .inl (Option.some.inj h).symm
  | some source => exact .inr ⟨source, h⟩

theorem optional_of_ne_null {source : Source} (h : source ≠ .null) :
    optional reader room source = (reader room source).map some := by
  unfold optional
  split
  · exact absurd rfl h
  · rfl

theorem optional_eq_some {source : Source} (h : optional reader room source = some (some a)) :
    reader room source = some a := by
  unfold optional at h
  split at h
  · cases h
  · obtain ⟨b, hb, hba⟩ := Option.map_eq_some_iff.1 h
    exact Option.some.inj hba ▸ hb

namespace Layout

variable {known : List String} {front : List (String × Json)} {extra : Extra}

/-- A reader of a known member is given what is written for it. -/
theorem field_eq (h : Layout known front extra) (hkey : key ∈ known) :
    field reader default room (sourced (front ++ extra)) key =
      match Dict.get? key front with
      | none => some default
      | some j => reader room j.toSource := by
  rw [field, h.member?_eq hkey]
  cases Dict.get? key front <;> rfl

theorem field_found (h : Layout known front extra) (hkey : key ∈ known) {j : Json}
    (hfront : Dict.get? key front = some j) :
    field reader default room (sourced (front ++ extra)) key = reader room j.toSource := by
  rw [h.field_eq hkey, hfront]

theorem required_eq (h : Layout known front extra) (hkey : key ∈ known) {j : Json}
    (hfront : Dict.get? key front = some j) :
    required reader room (sourced (front ++ extra)) key = reader room j.toSource := by
  rw [required, h.member?_eq hkey, hfront]
  rfl

/-- A text that is left out where there is none is read again. -/
theorem field_given (h : Layout known front extra) (room : Nat) (key : String)
    (v : Option String) (hkey : key ∈ known)
    (hfront : Dict.get? key front = v.map .text) :
    field optionalText none room (sourced (front ++ extra)) key = some v := by
  rw [h.field_eq hkey, hfront]
  cases v <;> rfl

variable {json : α → Json} {members : List (String × Source)}

/-- What is written for a value that was read, or that is the default for want of one, is read
again. -/
theorem field_written (h : Layout known front extra)
    (hf : (Json.object (front ++ extra)).Faithful) (hkey : key ∈ known)
    (hre : Rereads reader json room)
    (hdefault : reader room (json default).toSource = some default)
    (ha : a = default ∨ ∃ source, reader room source = some a)
    (hfront : Dict.get? key front = some (json a)) :
    field reader default room (sourced (front ++ extra)) key = some a := by
  rw [h.field_found hkey hfront]
  exact hre.of_field hdefault ha
    (hf.member _ (List.mem_append_left extra (Dict.mem_of_get? hfront)))

/-- A member that is always written is read again. -/
theorem field_always (h : Layout known front extra)
    (hf : (Json.object (front ++ extra)).Faithful) (hkey : key ∈ known)
    (hre : Rereads reader json room)
    (hdefault : reader room (json default).toSource = some default)
    (hread : field reader default room members key = some a)
    (hfront : Dict.get? key front = some (json a)) :
    field reader default room (sourced (front ++ extra)) key = some a :=
  h.field_written hf hkey hre hdefault (field_eq_some hread) hfront

/-- A member that is left out where its object would be empty is read again. -/
theorem field_unlessEmpty (h : Layout known front extra)
    (hf : (Json.object (front ++ extra)).Faithful) (hkey : key ∈ known)
    (hre : Rereads reader json room)
    (hread : field reader default room members key = some a) {ms : List (String × Json)}
    (hjson : json a = .object ms) (hempty : ms = [] ↔ a = default)
    (hfront : Dict.get? key front = if ms.isEmpty then none else some (.object ms)) :
    field reader default room (sourced (front ++ extra)) key = some a := by
  rw [h.field_eq hkey, hfront]
  by_cases hms : ms = []
  · rw [hempty.1 hms, hms]
    rfl
  · rw [if_neg (by simpa using hms), ← hjson] at hfront ⊢
    rcases field_eq_some hread with hdefault | ⟨source, hsource⟩
    · exact absurd (hempty.2 hdefault) hms
    · have hmem := List.mem_append_left extra (Dict.mem_of_get? hfront)
      exact hre hsource (hf.member _ hmem)

/-- A member that is left out where there is no structure is read where it is there. -/
theorem field_optional_eq (h : Layout known front extra) (hkey : key ∈ known)
    (hjson : ∀ a, (json a).toSource ≠ .null) {v : Option α}
    (hfront : Dict.get? key front = v.map json) :
    field (optional reader) none room (sourced (front ++ extra)) key =
      v.mapM fun a => reader room (json a).toSource := by
  rw [h.field_eq hkey, hfront]
  cases v with
  | none => rfl
  | some a =>
    rw [Option.map_some]
    exact optional_of_ne_null (hjson a)

/-- A member that is left out where there is no structure is read again. -/
theorem field_optional (h : Layout known front extra)
    (hf : (Json.object (front ++ extra)).Faithful) (hkey : key ∈ known)
    (hre : Rereads reader json room) (hjson : ∀ a, (json a).toSource ≠ .null) {v : Option α}
    (hread : field (optional reader) none room members key = some v)
    (hfront : Dict.get? key front = v.map json) :
    field (optional reader) none room (sourced (front ++ extra)) key = some v := by
  rw [h.field_optional_eq hkey hjson hfront]
  cases v with
  | none => rfl
  | some a =>
    rcases field_eq_some hread with hnone | ⟨source, hsource⟩
    · cases hnone
    · have hmem := List.mem_append_left extra (Dict.mem_of_get? hfront)
      have hback := hre (optional_eq_some hsource) (hf.member _ hmem)
      exact congrArg (Option.map some) hback

/-- The others are read again. -/
theorem extra?_again (h : Layout known front extra)
    (hf : (Json.object (front ++ extra)).Faithful)
    (hread : extra? room known members = some extra) :
    extra? room known (sourced (front ++ extra)) = some extra := by
  refine h.extra?_eq fun m hm => ?_
  obtain ⟨source, hsource⟩ := (extra?_eq_some hread).2.2 m hm
  exact Json.value?_toSource hsource (hf.member m (List.mem_append_right front hm))

end Layout

end Fields

end Rollout.Document

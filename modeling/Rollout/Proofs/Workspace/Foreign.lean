import Mathlib.Data.List.Forall2
import Mathlib.Tactic.Common
import Rollout.Proofs.Workspace.Named
import Rollout.Proofs.Workspace.Structures

/-!
# Members of other tools

What becomes of the members that a document has beside those that are known, when its workspace
is written again (`foreign_members`): in every structure but the specs they are kept with their
values, and in the specs they are gone.
-/

namespace Rollout

namespace Json

/-- The members of an object with their keys, in order. -/
def Source.entries : Source → List (String × Source)
  | .object members => members.filterMap fun m => m.1.map (·, m.2)
  | _ => []

/-- What an object has at a key; of several members with the key the last counts. -/
def Source.member? (key : String) (s : Source) : Option Source := Dict.get? key s.entries.reverse

/-- What is at a path of keys. -/
def Source.at? (path : List String) (s : Source) : Option Source :=
  path.foldl (fun found key => found.bind (Source.member? key)) (some s)

theorem Source.at?_concat (path : List String) (key : String) (s : Source) :
    s.at? (path ++ [key]) = (s.at? path).bind (Source.member? key) := by
  rw [at?, List.foldl_append]
  rfl

mutual

/-- A value needs no more room than it was read in. -/
theorem value?_mono {room room' : Nat} (h : room ≤ room') {j : Json} :
    ∀ {source : Source}, source.value? room = some j → source.value? room' = some j
  | .null, hj => hj
  | .bool _, hj => hj
  | .number _, hj => hj
  | .text _, hj => hj
  | .array items, hj => by
    cases room with
    | zero => cases hj
    | succ room =>
      obtain ⟨room', rfl⟩ := Nat.exists_eq_add_one_of_ne_zero (Nat.ne_zero_of_lt h)
      obtain ⟨vs, hvs, rfl⟩ := Option.map_eq_some_iff.1 hj
      exact congrArg (Option.map array) (values?_mono (Nat.le_of_succ_le_succ h) hvs)
  | .object members, hj => by
    cases room with
    | zero => cases hj
    | succ room =>
      obtain ⟨room', rfl⟩ := Nat.exists_eq_add_one_of_ne_zero (Nat.ne_zero_of_lt h)
      obtain ⟨ms, hms, rfl⟩ := Option.map_eq_some_iff.1 hj
      exact congrArg (Option.map fun ms => object (Dict.ofEntries ms))
        (members?_mono (Nat.le_of_succ_le_succ h) hms)

theorem values?_mono {room room' : Nat} (h : room ≤ room') {vs : List Json} :
    ∀ {items : List Source}, Source.values? room items = some vs →
      Source.values? room' items = some vs
  | [], hvs => hvs
  | item :: items, hvs => by
    simp only [Source.values?, bind, Option.bind_eq_some_iff] at hvs ⊢
    obtain ⟨v, hv, ws, hws, hvs⟩ := hvs
    exact ⟨v, value?_mono h hv, ws, values?_mono h hws, hvs⟩

theorem members?_mono {room room' : Nat} (h : room ≤ room') {ms : List (String × Json)} :
    ∀ {members : List (Option String × Source)}, Source.members? room members = some ms →
      Source.members? room' members = some ms
  | [], hms => hms
  | (key, item) :: members, hms => by
    simp only [Source.members?, bind, Option.bind_eq_some_iff] at hms ⊢
    obtain ⟨k, hk, v, hv, ws, hws, hms⟩ := hms
    exact ⟨k, hk, v, value?_mono h hv, ws, members?_mono h hws, hms⟩

end

end Json

namespace Document

open Json (Source)

/-! ### Members of objects -/

theorem entries_of_members? {room inside : Nat} {source : Source}
    {members : List (String × Source)} (h : members? room source = some (inside, members)) :
    source.entries = members := by
  have hkeyed : ∀ {ms : List (Option String × Source)} {members : List (String × Source)},
      keyed? ms = some members → (Source.object ms).entries = members := by
    intro ms
    induction ms with
    | nil =>
      intro members h
      cases h
      rfl
    | cons m ms ih =>
      intro members h
      obtain ⟨key, item⟩ := m
      cases key with
      | none => cases h
      | some key =>
        obtain ⟨rest, hrest, rfl⟩ := Option.map_eq_some_iff.1 h
        exact congrArg ((key, item) :: ·) (ih hrest)
  unfold members? at h
  split at h
  · obtain ⟨ms, hms, heq⟩ := Option.map_eq_some_iff.1 h
    rw [hkeyed hms, (Prod.mk.inj heq).2]
  · cases h

/-- In an object that is written every key is there once. -/
theorem member?_toSource {ms : List (String × Json)} (h : (Dict.keys ms).Nodup) (key : String) :
    (Json.object ms).toSource.member? key = (Dict.get? key ms).map Json.toSource := by
  have hentries := entries_of_members? (members?_toSource 0 ms)
  have hsourced : (Dict.keys (sourced ms)).Nodup := keys_sourced ms ▸ h
  rw [Source.member?, hentries, Dict.get?_reverse hsourced, get?_sourced]

theorem Layout.member?_known {known : List String} {front : List (String × Json)} {extra : Extra}
    (h : Layout known front extra) {key : String} (hkey : key ∈ known) :
    (Json.object (front ++ extra)).toSource.member? key =
      (Dict.get? key front).map Json.toSource := by
  rw [member?_toSource h.keys_nodup, h.get?_known hkey]

theorem member?_entries {α : Type} {json : α → Json} {d : Dict α} (h : d.Sorted) (name : String) :
    (Json.object (d.map fun e => (e.1, json e.2))).toSource.member? name =
      (d.get? name).map fun a => (json a).toSource := by
  have hkeys : (Dict.keys (d.map fun e => (e.1, json e.2))).Nodup := by
    rw [Dict.keys, List.map_map]
    exact h.nodup_keys
  rw [member?_toSource hkeys, Dict.get?_map, Option.map_map]
  rfl

/-! ### What becomes of a member -/

/-- A member is there afterwards with the value that it had. -/
def Kept (before after : Option Source) : Prop :=
  ∀ item ∈ before, ∃ v, item.value? Json.nestingLimit = some v ∧ after = some v.toSource ∧
    (v.Faithful → v.toSource.value? Json.nestingLimit = some v)

theorem get?_of_forall₂ {α : Type} {read : Source → Option α} {members : List (String × Source)}
    {entries : List (String × α)}
    (h : List.Forall₂ (fun m e => m.1 = e.1 ∧ read m.2 = some e.2) members entries) {key : String}
    {item : Source} (hitem : Dict.get? key members = some item) :
    ∃ a, read item = some a ∧ Dict.get? key entries = some a := by
  induction h with
  | nil => cases hitem
  | @cons m e members entries hhead _ ih =>
    obtain ⟨k, source⟩ := m
    obtain ⟨k', a⟩ := e
    obtain ⟨rfl, hread⟩ := hhead
    by_cases hk : k = key
    · obtain rfl : source = item := by simpa [Dict.get?, hk] using hitem
      exact ⟨a, hread, by simp [Dict.get?, hk]⟩
    · simp only [Dict.get?, if_neg hk] at hitem ⊢
      exact ih hitem

/-- What is read of entries is found at the key of the last member with it. -/
theorem get?_of_mapM {α : Type} {read : Source → Option α} {members : List (String × Source)}
    {entries : List (String × α)}
    (h : (members.mapM fun m => (read m.2).map fun v => (m.1, v)) = some entries) {key : String}
    {item : Source} (hitem : Dict.get? key members.reverse = some item) :
    ∃ a, read item = some a ∧ (Dict.ofEntries entries).get? key = some a := by
  rw [Dict.get?_ofEntries]
  exact get?_of_forall₂ (List.forall₂_reverse_iff.2 (forall₂_of_mapM h)) hitem

/-- A member that is not known is kept. -/
theorem Taken.kept {known : List String} {front : List (String × Json)} {extra : Extra}
    {room inside : Nat} {source : Source} {members : List (String × Source)}
    (h : Taken known front extra room source inside members) (hroom : room ≤ Json.nestingLimit)
    {key : String} (hkey : key ∉ known) :
    Kept (source.member? key) ((Json.object (front ++ extra)).toSource.member? key) := by
  intro item hitem
  have hothers := h.others
  simp only [extra?, bind, Option.bind_eq_some_iff] at hothers
  obtain ⟨values, hvalues, hextra⟩ := hothers
  rw [Source.member?, entries_of_members? h.members_eq] at hitem
  have hother : Dict.get? key (members.filter fun m => !known.contains m.1).reverse = some item := by
    rw [← List.filter_reverse, Dict.get?_filter (by simpa using hkey)]
    exact hitem
  obtain ⟨v, hv, hget⟩ := get?_of_mapM hvalues hother
  have hvalue := Json.value?_mono (inside_le_of_members? h.members_eq hroom) hv
  refine ⟨v, hvalue, ?_, Json.value?_toSource hvalue⟩
  rw [member?_toSource h.layout.keys_nodup, h.layout.get?_other hkey, ← Option.some.inj hextra, hget]
  rfl

/-! ### From place to place -/

/-- What there is afterwards was written for what a reader reads of what there was; it is left
out only where it would be empty. -/
def Mirrors {α : Type} (reader : Reader α) (json : α → Json) (before after : Option Source) : Prop :=
  ∀ source ∈ before, ∃ room ≤ Json.nestingLimit, ∃ a, reader room source = some a ∧
    (after = some (json a).toSource ∨ json a = .object [])

section

variable {α β : Type} {reader : Reader α} {json : α → Json} {before after : Option Source}
  {known : List String} {front : α → List (String × Json)} {extra : α → Extra}

/-- A structure that takes in all members of its object. -/
def Takes (reader : Reader α) (json : α → Json) (known : List String)
    (front : α → List (String × Json)) (extra : α → Extra) : Prop :=
  ∀ ⦃room source a⦄, reader room source = some a →
    json a = .object (front a ++ extra a) ∧
      ∃ inside members, Taken known (front a) (extra a) room source inside members

theorem Mirrors.kept (h : Mirrors reader json before after)
    (htakes : Takes reader json known front extra) {key : String} (hkey : key ∉ known) :
    Kept (before.bind (Source.member? key)) (after.bind (Source.member? key)) := by
  intro item hitem
  obtain ⟨source, hsource, hmember⟩ := Option.bind_eq_some_iff.1 hitem
  obtain ⟨room, hroom, a, hread, hafter⟩ := h source hsource
  obtain ⟨hjson, inside, members, htaken⟩ := htakes hread
  obtain ⟨v, hv, hsaved, hback⟩ := htaken.kept hroom hkey item hmember
  refine ⟨v, hv, ?_, hback⟩
  rcases hafter with rfl | hempty
  · rw [Option.bind_some, hjson, hsaved]
  · rw [← hjson, hempty] at hsaved
    cases hsaved

theorem read_of_field {reader : Reader β} {default b : β} {room inside : Nat} {source item : Source}
    {members : List (String × Source)} {key : String}
    (hmembers : members? room source = some (inside, members))
    (hfield : field reader default inside members key = some b)
    (hitem : source.member? key = some item) : reader inside item = some b := by
  rw [Source.member?, entries_of_members? hmembers, Dict.get?_eq_head?_filter,
    List.filter_reverse] at hitem
  simp only [field, member?, bind, Option.bind_eq_some_iff] at hfield
  obtain ⟨found, hfound, hb⟩ := hfield
  split at hfound
  · rename_i hnone
    rw [hnone] at hitem
    cases hitem
  · rename_i k found' hone
    rw [hone] at hitem
    cases hitem
    cases hfound
    exact hb
  · cases hfound

/-- From a structure to a part of it. -/
theorem Mirrors.field (h : Mirrors reader json before after) (known : List String)
    (front : α → List (String × Json)) (extra : α → Extra) {part : Reader β}
    {partJson : β → Json} (default : β) {key : String} (hkey : key ∈ known)
    (hpart : ∀ ⦃room source a⦄, reader room source = some a →
      json a = .object (front a ++ extra a) ∧
        ∃ inside members, Taken known (front a) (extra a) room source inside members ∧
          ∃ b, field part default inside members key = some b ∧
            (Dict.get? key (front a) = some (partJson b) ∨ partJson b = .object [])) :
    Mirrors part partJson (before.bind (Source.member? key)) (after.bind (Source.member? key)) := by
  intro item hitem
  obtain ⟨source, hsource, hmember⟩ := Option.bind_eq_some_iff.1 hitem
  obtain ⟨room, hroom, a, hread, hafter⟩ := h source hsource
  obtain ⟨hjson, inside, members, htaken, b, hfield, hfront⟩ := hpart hread
  refine ⟨inside, inside_le_of_members? htaken.members_eq hroom, b,
    read_of_field htaken.members_eq hfield hmember, ?_⟩
  refine hfront.imp_left fun hfront => ?_
  rcases hafter with rfl | hempty
  · rw [Option.bind_some, hjson, htaken.layout.member?_known hkey, hfront]
    rfl
  · have hnil := (List.append_eq_nil_iff.1 (Json.object.inj (hjson.symm.trans hempty))).1
    rw [hnil] at hfront
    cases hfront

/-- From a dictionary to the value at a key. -/
theorem Mirrors.entry
    (h : Mirrors (dict reader) (fun d => .object (d.map fun e => (e.1, json e.2))) before after)
    (name : String) :
    Mirrors reader json (before.bind (Source.member? name)) (after.bind (Source.member? name)) := by
  intro item hitem
  obtain ⟨source, hsource, hmember⟩ := Option.bind_eq_some_iff.1 hitem
  obtain ⟨room, hroom, d, hread, hafter⟩ := h source hsource
  have hsorted := sorted_of_dict hread
  simp only [dict, bind, Option.bind_eq_some_iff] at hread
  obtain ⟨⟨inside, members⟩, hmembers, entries, hentries, hd⟩ := hread
  rw [Source.member?, entries_of_members? hmembers] at hmember
  obtain ⟨a, ha, hget⟩ := get?_of_mapM hentries hmember
  rw [Option.some.inj hd] at hget
  refine ⟨inside, inside_le_of_members? hmembers hroom, a, ha, .inl ?_⟩
  rcases hafter with rfl | hempty
  · rw [Option.bind_some, member?_entries hsorted, hget]
    rfl
  · obtain rfl := List.map_eq_nil_iff.1 (Json.object.inj hempty)
    cases hget

end

/-! ### Places -/

/-- The objects of a document that hold a structure; those of a project by its name. -/
inductive Place where
  | document
  | info
  | build
  | environment (name : String)
  | provider (name : String)
  | project (name : String)
  | architect (name : String)
  | buildSpec (name : String)
  | deploySpec (name : String)
deriving DecidableEq, Repr

namespace Place

def path : Place → List String
  | document => []
  | info => ["workspace"]
  | build => ["build"]
  | environment name => ["environments", name]
  | provider name => ["infrastructure", name]
  | project name => ["projects", name]
  | architect name => ["projects", name, "architect"]
  | buildSpec name => ["projects", name, "architect", "build"]
  | deploySpec name => ["projects", name, "architect", "deploy"]

/-- The keys that are known at a place. -/
def known : Place → List String
  | document => knownMembers
  | info => ["name"]
  | build => ["registry", "platform"]
  | environment _ => ["registry", "region", "cluster", "namespace"]
  | provider _ => ["cluster", "namespace", "region", "projectId"]
  | project _ => ["root", "type", "architect", "local", "metadata"]
  | architect _ => ["build", "deploy"]
  | buildSpec _ => specKeys "builder"
  | deploySpec _ => specKeys "deployer"

def isSpec : Place → Bool
  | buildSpec _ | deploySpec _ => true
  | _ => false

end Place

section

variable {source : Source} {found : Nat} {w : Workspace}

theorem takes_workspace : Takes workspace (fun read => toJson read.2) knownMembers
    (fun read => workspaceFront read.2) (fun read => read.2.extra) := by
  intro room source read h
  obtain ⟨inside, members, ht, -⟩ := workspace_taken h
  exact ⟨rfl, inside, members, ht⟩

theorem takes_info : Takes info infoJson ["name"] infoFront (·.extra) := by
  intro room source i h
  obtain ⟨inside, members, ht, -⟩ := info_taken h
  exact ⟨rfl, inside, members, ht⟩

theorem takes_build :
    Takes build buildJson ["registry", "platform"] buildFront (·.extra) :=
  fun _ _ _ h => ⟨rfl, build_taken h⟩

theorem takes_environment : Takes environment environmentJson
    ["registry", "region", "cluster", "namespace"] environmentFront (·.extra) :=
  fun _ _ _ h => ⟨rfl, environment_taken h⟩

theorem takes_provider : Takes provider providerJson
    ["cluster", "namespace", "region", "projectId"] providerFront (·.extra) :=
  fun _ _ _ h => ⟨rfl, provider_taken h⟩

theorem takes_project : Takes project projectJson
    ["root", "type", "architect", "local", "metadata"] projectFront (·.extra) := by
  intro room source p h
  obtain ⟨inside, members, ht, -⟩ := project_taken h
  exact ⟨rfl, inside, members, ht⟩

theorem takes_architect : Takes architect (fun a => .object (architectMembers a))
    ["build", "deploy"] architectFront (·.extra) := by
  intro room source a h
  obtain ⟨inside, members, ht, -⟩ := architect_taken h
  exact ⟨rfl, inside, members, ht⟩

theorem mirrors_workspace (hw : workspace Json.nestingLimit source = some (found, w)) :
    Mirrors workspace (fun read => toJson read.2) (some source) (some (toJson w).toSource) := by
  rintro _ ⟨⟩
  exact ⟨Json.nestingLimit, le_rfl, (found, w), hw, .inl rfl⟩

/-- From the document to a member that is always written. -/
theorem mirrors_member {β : Type} {part : Reader β} {partJson : β → Json} {default : β}
    {key : String} (hw : workspace Json.nestingLimit source = some (found, w))
    (value : Workspace → β) (hkey : key ∈ knownMembers)
    (hfront : ∀ w, Dict.get? key (workspaceFront w) = some (partJson (value w)))
    (hread : ∀ ⦃room source found w⦄, workspace room source = some (found, w) →
      ∃ inside members, Taken knownMembers (workspaceFront w) w.extra room source inside members ∧
        field part default inside members key = some (value w)) :
    Mirrors part partJson (source.at? [key]) ((toJson w).toSource.at? [key]) := by
  refine (mirrors_workspace hw).field knownMembers (fun read => workspaceFront read.2)
    (fun read => read.2.extra) default hkey ?_
  intro room source read h
  obtain ⟨inside, members, ht, hfield⟩ := hread h
  exact ⟨rfl, inside, members, ht, _, hfield, .inl (hfront read.2)⟩

theorem mirrors_info (hw : workspace Json.nestingLimit source = some (found, w)) :
    Mirrors info infoJson (source.at? ["workspace"]) ((toJson w).toSource.at? ["workspace"]) :=
  mirrors_member hw (·.info) (by decide) (fun _ => rfl) fun _ _ _ _ h =>
    let ⟨inside, members, ht, hinfo, _⟩ := workspace_taken h
    ⟨inside, members, ht, hinfo⟩

theorem mirrors_projects (hw : workspace Json.nestingLimit source = some (found, w)) :
    Mirrors (dict project) (fun d => .object (d.map fun e => (e.1, projectJson e.2)))
      (source.at? ["projects"]) ((toJson w).toSource.at? ["projects"]) :=
  mirrors_member hw (·.projects) (by decide) (fun _ => rfl) fun _ _ _ _ h =>
    let ⟨inside, members, ht, _, hprojects, _⟩ := workspace_taken h
    ⟨inside, members, ht, hprojects⟩

theorem mirrors_build (hw : workspace Json.nestingLimit source = some (found, w)) :
    Mirrors build buildJson (source.at? ["build"]) ((toJson w).toSource.at? ["build"]) :=
  mirrors_member hw (·.build) (by decide) (fun _ => rfl) fun _ _ _ _ h =>
    let ⟨inside, members, ht, _, _, hbuild, _⟩ := workspace_taken h
    ⟨inside, members, ht, hbuild⟩

theorem mirrors_environments (hw : workspace Json.nestingLimit source = some (found, w)) :
    Mirrors (dict environment) (fun d => .object (d.map fun e => (e.1, environmentJson e.2)))
      (source.at? ["environments"]) ((toJson w).toSource.at? ["environments"]) :=
  mirrors_member hw (·.environments) (by decide) (fun _ => rfl) fun _ _ _ _ h =>
    let ⟨inside, members, ht, _, _, _, henvironments, _⟩ := workspace_taken h
    ⟨inside, members, ht, henvironments⟩

theorem mirrors_infrastructure (hw : workspace Json.nestingLimit source = some (found, w)) :
    Mirrors (dict provider) (fun d => .object (d.map fun e => (e.1, providerJson e.2)))
      (source.at? ["infrastructure"]) ((toJson w).toSource.at? ["infrastructure"]) :=
  mirrors_member hw (·.infrastructure) (by decide) (fun _ => rfl) fun _ _ _ _ h =>
    let ⟨inside, members, ht, _, _, _, _, hinfrastructure⟩ := workspace_taken h
    ⟨inside, members, ht, hinfrastructure⟩

theorem mirrors_architect (hw : workspace Json.nestingLimit source = some (found, w))
    (name : String) :
    Mirrors architect (fun a => .object (architectMembers a))
      (source.at? ["projects", name, "architect"])
      ((toJson w).toSource.at? ["projects", name, "architect"]) := by
  refine ((mirrors_projects hw).entry name).field
    ["root", "type", "architect", "local", "metadata"] projectFront (·.extra) {} (by decide) ?_
  intro room source p h
  obtain ⟨inside, members, ht, -, harchitect, -⟩ := project_taken h
  refine ⟨rfl, inside, members, ht, _, harchitect, ?_⟩
  have hfront := get?_architect_front p
  by_cases hnil : architectMembers p.architect = []
  · exact .inr (congrArg Json.object hnil)
  · rw [if_neg (by simpa using hnil)] at hfront
    exact .inl hfront

theorem at?_path_key (s : Source) (place : Place) (key : String) :
    s.at? (place.path ++ [key]) = (s.at? place.path).bind (Source.member? key) :=
  s.at?_concat place.path key

/-- Outside the specs the members of other tools are kept. -/
theorem kept_of_not_isSpec (hw : workspace Json.nestingLimit source = some (found, w))
    {place : Place} (hplace : place.isSpec = false) {key : String} (hkey : key ∉ place.known) :
    Kept (source.at? (place.path ++ [key])) ((toJson w).toSource.at? (place.path ++ [key])) := by
  rw [at?_path_key, at?_path_key]
  cases place with
  | document => exact (mirrors_workspace hw).kept takes_workspace hkey
  | info => exact (mirrors_info hw).kept takes_info hkey
  | build => exact (mirrors_build hw).kept takes_build hkey
  | environment name => exact ((mirrors_environments hw).entry name).kept takes_environment hkey
  | provider name => exact ((mirrors_infrastructure hw).entry name).kept takes_provider hkey
  | project name => exact ((mirrors_projects hw).entry name).kept takes_project hkey
  | architect name => exact (mirrors_architect hw name).kept takes_architect hkey
  | buildSpec name => cases hplace
  | deploySpec name => cases hplace

/-! ### Specs -/

/-- The parts of a project in a workspace that was read. -/
theorem layout_of_project (hw : workspace Json.nestingLimit source = some (found, w)) {name : String}
    {p : Project} (hp : w.projects.get? name = some p) :
    Layout ["root", "type", "architect", "local", "metadata"] (projectFront p) p.extra ∧
      Layout ["build", "deploy"] (architectFront p.architect) p.architect.extra := by
  obtain ⟨inside, members, -, -, hprojects, -⟩ := workspace_taken hw
  have hread : ∃ room source, project room source = some p := by
    rcases field_eq_some hprojects with hnil | ⟨source, hdict⟩
    · rw [hnil] at hp
      cases hp
    · simp only [dict, bind, Option.bind_eq_some_iff] at hdict
      obtain ⟨⟨room, ms⟩, -, entries, hentries, hd⟩ := hdict
      rw [← Option.some.inj hd] at hp
      have hmem := Dict.mem_of_mem_ofEntries (Dict.mem_of_get? hp)
      obtain ⟨source, hsource⟩ := read_of_mem hentries hmem
      exact ⟨room, source, hsource⟩
  obtain ⟨room, source, hread⟩ := hread
  obtain ⟨inside, members, ht, -, harchitect, -⟩ := project_taken hread
  refine ⟨ht.layout, ?_⟩
  rcases field_eq_some harchitect with hnil | ⟨source, hread⟩
  · rw [hnil]
    exact ⟨by decide, List.nil_sublist _, Dict.sorted_nil, fun _ h => absurd h List.not_mem_nil⟩
  · obtain ⟨inside, members, ht, -⟩ := architect_taken hread
    exact ht.layout

theorem at?_architect (hw : workspace Json.nestingLimit source = some (found, w)) {name : String}
    {s : Source} (hs : (toJson w).toSource.at? ["projects", name, "architect"] = some s) :
    ∃ p, w.projects.get? name = some p ∧
      s = (Json.object (architectMembers p.architect)).toSource := by
  obtain ⟨inside, members, ht, -, hfield, -⟩ := workspace_taken hw
  have hprojects : (toJson w).toSource.member? "projects" =
      some (Json.object (w.projects.map fun e => (e.1, projectJson e.2))).toSource :=
    ht.layout.member?_known (by decide)
  change (((toJson w).toSource.member? "projects").bind (Source.member? name)).bind
    (Source.member? "architect") = some s at hs
  rw [hprojects, Option.bind_some, member?_entries (sorted_of_field hfield)] at hs
  obtain ⟨project, hproject, hs⟩ := Option.bind_eq_some_iff.1 hs
  obtain ⟨p, hp, rfl⟩ := Option.map_eq_some_iff.1 hproject
  have harchitect : (projectJson p).toSource.member? "architect" =
      (Dict.get? "architect" (projectFront p)).map Json.toSource :=
    (layout_of_project hw hp).1.member?_known (by decide)
  rw [harchitect, get?_architect_front] at hs
  split at hs
  · cases hs
  · exact ⟨p, hp, (Option.some.inj hs).symm⟩

/-- Where a spec is written there is nothing but a spec. -/
theorem at?_spec (hw : workspace Json.nestingLimit source = some (found, w)) {part : String}
    (hpart : part ∈ ["build", "deploy"]) (toolKey : String) (spec : Architect → Option Spec)
    (hspec : ∀ a, Dict.get? part (architectFront a) = (spec a).map (specJson toolKey))
    {name : String} {s : Source}
    (hs : (toJson w).toSource.at? ["projects", name, "architect", part] = some s) :
    ∃ t, s = (specJson toolKey t).toSource := by
  change ((toJson w).toSource.at? ["projects", name, "architect"]).bind (Source.member? part) =
    some s at hs
  obtain ⟨architect, harchitect, hs⟩ := Option.bind_eq_some_iff.1 hs
  obtain ⟨p, hp, rfl⟩ := at?_architect hw harchitect
  have hmember : (Json.object (architectMembers p.architect)).toSource.member? part =
      (Dict.get? part (architectFront p.architect)).map Json.toSource :=
    (layout_of_project hw hp).2.member?_known hpart
  rw [hmember, hspec] at hs
  obtain ⟨j, hj, rfl⟩ := Option.map_eq_some_iff.1 hs
  obtain ⟨t, -, rfl⟩ := Option.map_eq_some_iff.1 hj
  exact ⟨t, rfl⟩

theorem member?_spec {toolKey : String} (htool : (specKeys toolKey).Nodup) (s : Spec) {key : String}
    (hkey : key ∉ specKeys toolKey) : (specJson toolKey s).toSource.member? key = none := by
  have hlayout := specLayout htool s
  have hnone : (Json.object (specMembers toolKey s ++ [])).toSource.member? key = none := by
    rw [member?_toSource hlayout.keys_nodup, hlayout.get?_other hkey]
    rfl
  rwa [List.append_nil] at hnone

/-- In the specs the members of other tools are gone. -/
theorem none_of_isSpec (hw : workspace Json.nestingLimit source = some (found, w)) {place : Place}
    (hplace : place.isSpec = true) {key : String} (hkey : key ∉ place.known) :
    (toJson w).toSource.at? (place.path ++ [key]) = none := by
  rw [at?_path_key]
  cases hs : (toJson w).toSource.at? place.path with
  | none => rfl
  | some s =>
    cases place with
    | buildSpec name =>
      obtain ⟨t, rfl⟩ := at?_spec hw (by simp) "builder" (·.build)
        (fun a => by simp [architectFront, Dict.get?_append, get?_specMember]) hs
      exact member?_spec (by decide) t hkey
    | deploySpec name =>
      obtain ⟨t, rfl⟩ := at?_spec hw (by simp) "deployer" (·.deploy)
        (fun a => by simp [architectFront, Dict.get?_append, get?_specMember]) hs
      exact member?_spec (by decide) t hkey
    | _ => cases hplace

end

/-- What becomes of the members of other tools when a workspace that was read is written again:
outside the specs each is at its place with its value, in the specs there are none. -/
theorem foreign_members {file : Path} {content : String} {w : Workspace}
    (h : read file content = .ok w) :
    ∃ before after, Source.read? content = some before ∧ Source.read? (write w) = some after ∧
      ∀ (place : Place) (key : String), key ∉ place.known →
        if place.isSpec then after.at? (place.path ++ [key]) = none
        else Kept (before.at? (place.path ++ [key])) (after.at? (place.path ++ [key])) := by
  obtain ⟨before, w', hbefore, hw, rfl⟩ := read_eq_ok h
  refine ⟨before, (toJson w').toSource, hbefore, ?_, fun place key hkey => ?_⟩
  · rw [write, toJson_named]
    exact Json.read?_pretty _
  · split
    · rename_i hplace
      exact none_of_isSpec hw hplace hkey
    · rename_i hplace
      exact kept_of_not_isSpec hw (Bool.eq_false_iff.2 hplace) hkey

section

/-- A document in which a project and its deploy spec have members of other tools. -/
def foreignDocument : Json := .object
  [("projects", .object [("api", .object
    [("root", .text "apps/api"),
      ("architect", .object
        [("deploy", .object [("deployer", .text "helm"), ("timeout", .text "10m")])]),
      ("owner", .text "payments")])])]

def foreignWorkspace : Workspace where
  info := {}
  projects := [("api",
    { name := "api", root := "apps/api", language := "", localOptions := [], metadata := []
      architect := { deploy := some ⟨"helm", [], [], none⟩ }
      extra := [("owner", .text "payments")] })]
  build := {}
  environments := []
  infrastructure := []
  extra := []

theorem read_foreignDocument (file : Path) :
    read file foreignDocument.compact = .ok foreignWorkspace :=
  read_of_workspace (w := { foreignWorkspace with
    projects := foreignWorkspace.projects.map fun e => (e.1, { e.2 with name := "" }) })
    (Json.read?_compact foreignDocument) rfl file

/-- The owner of a project, a member of another tool, is kept. -/
theorem owner_kept :
    read ⟨"keel.json"⟩ foreignDocument.compact = .ok foreignWorkspace ∧
      ∃ before after, Source.read? foreignDocument.compact = some before ∧
        Source.read? (write foreignWorkspace) = some after ∧
        before.at? ["projects", "api", "owner"] = some (.text (some "payments")) ∧
        Kept (before.at? ["projects", "api", "owner"]) (after.at? ["projects", "api", "owner"]) := by
  have h := read_foreignDocument ⟨"keel.json"⟩
  obtain ⟨before, after, hbefore, hafter, hkept⟩ := foreign_members h
  have hsource : before = foreignDocument.toSource :=
    Option.some.inj (hbefore.symm.trans (Json.read?_compact _))
  refine ⟨h, before, after, hbefore, hafter, ?_, hkept (.project "api") "owner" (by decide)⟩
  rw [hsource]
  rfl

/-- The timeout in the deploy spec, a member of another tool, is lost. -/
theorem timeout_lost :
    read ⟨"keel.json"⟩ foreignDocument.compact = .ok foreignWorkspace ∧
      "timeout" ∉ (Place.deploySpec "api").known ∧
      ∃ before after, Source.read? foreignDocument.compact = some before ∧
        Source.read? (write foreignWorkspace) = some after ∧
        before.at? ((Place.deploySpec "api").path ++ ["timeout"]) = some (.text (some "10m")) ∧
        after.at? ((Place.deploySpec "api").path ++ ["timeout"]) = none :=
  ⟨read_foreignDocument _, by decide, foreignDocument.toSource, (toJson foreignWorkspace).toSource,
    Json.read?_compact _, Json.read?_pretty _, rfl, rfl⟩

end

end Document
end Rollout

import Mathlib.Tactic.Common
import Rollout.Proofs.Compile.Plan
import Rollout.Proofs.Compile.Separation

/-!
# Instances

A project that lists instances is released once for each element of the list that carries a name,
in the order of the list, and else once under its own name. Each release is made of the options of
the project under those of its own element, and of no other element, so that with one element
exchanged the releases of the others are what they were (`fan_out`).
-/

namespace Rollout

theorem OptionMap.text?_congr {o o' : OptionMap} {key : String} (h : o.get? key = o'.get? key) :
    o.text? key = o'.text? key := by
  rw [text?, text?, h]

namespace Release

/-! ### Elements that carry a name -/

/-- A scalar whose text is not blank can name an instance. -/
def isInstanceName (v : OptionValue) : Bool := v.scalarText?.any fun name => !Text.isBlank name

/-- An element carries a name: it is a scalar that can name an instance, or a map with one. -/
def hasName : OptionValue → Bool
  | .map entries => (Dict.get? "name" entries).any isInstanceName
  | item => isInstanceName item

/-- The name that an element carries, and the options of its own: for a map its other entries. -/
inductive Instance : OptionValue → String → OptionMap → Prop where
  | scalar {item : OptionValue} {name : String} (htext : item.scalarText? = some name)
      (hname : Text.isBlank name = false) : Instance item name []
  | map {entries : List (String × OptionValue)} {value : OptionValue} {name : String}
      (hvalue : Dict.get? "name" entries = some value) (htext : value.scalarText? = some name)
      (hname : Text.isBlank name = false) : Instance (.map entries) name (Dict.erase "name" entries)

theorem instance_of_instance? {item : OptionValue} {name : String} {own : OptionMap}
    (h : instance? item = some (name, own)) : Instance item name own := by
  cases item with
  | map entries =>
    simp only [instance?, Option.bind_eq_bind, Option.bind_eq_some_iff, Option.pure_def,
      Option.some.injEq, Prod.mk.injEq] at h
    obtain ⟨text, ⟨value, hvalue, htext⟩, name, hname, rfl, rfl⟩ := h
    obtain ⟨hblank, rfl⟩ := Text.nonBlank?_eq_some_iff.1 hname
    exact .map hvalue htext hblank
  | _ =>
    simp only [instance?, Option.bind_eq_bind, Option.bind_eq_some_iff, Option.pure_def,
      Option.some.injEq, Prod.mk.injEq] at h
    obtain ⟨name, ⟨text, htext, hname⟩, rfl, rfl⟩ := h
    obtain ⟨hblank, rfl⟩ := Text.nonBlank?_eq_some_iff.1 hname
    exact .scalar htext hblank

theorem isSome_nonBlank? {α : Type} (s : String) (f : String → α) :
    ((Text.nonBlank? s).bind fun t => some (f t)).isSome = !Text.isBlank s := by
  cases h : Text.isBlank s <;> simp [Text.nonBlank?, h]

theorem isSome_instance? (item : OptionValue) : (instance? item).isSome = hasName item := by
  cases item with
  | map entries =>
    cases hvalue : Dict.get? "name" entries with
    | none => simp [instance?, hasName, hvalue]
    | some value =>
      cases htext : value.scalarText? with
      | none => simp [instance?, hasName, hvalue, isInstanceName, htext]
      | some name => simp [instance?, hasName, hvalue, isInstanceName, htext, isSome_nonBlank?]
  | _ =>
    simp only [instance?, hasName, isInstanceName, Option.bind_eq_bind, Option.pure_def]
    cases OptionValue.scalarText? _ <;> simp [isSome_nonBlank?]

/-! ### What a release is made of -/

/-- The keys of the values that a release sets. -/
def setKeys : List String :=
  ["nameOverride", "fullnameOverride", "service.port", "healthCheck.path"]

theorem setValuesOf_name (name : String) (options : OptionMap) :
    (setValuesOf name options).get? "nameOverride" = some name ∧
      (setValuesOf name options).get? "fullnameOverride" = some name := by
  unfold setValuesOf
  cases (options.get? "port").bind OptionValue.scalarText? <;>
    cases options.text? "healthCheckPath" <;>
      simp [Dict.get?_insert, Dict.get?_ofEntries, Dict.get?]

theorem mem_setKeys {name key : String} {options : OptionMap}
    (h : key ∈ (setValuesOf name options).keys) : key ∈ setKeys := by
  have hnames : key ∈ (Dict.ofEntries [("nameOverride", name), ("fullnameOverride", name)]).keys →
      key ∈ setKeys := by
    rw [Dict.ofEntries, Dict.mem_keys_overlay]
    simp only [Dict.keys, setKeys, List.map_cons, List.map_nil, List.mem_cons]
    tauto
  revert h
  unfold setValuesOf
  cases (options.get? "port").bind OptionValue.scalarText? <;>
    cases options.text? "healthCheckPath" <;> simp only [Dict.mem_keys_insert] <;>
    grind [setKeys]

/-- A release names itself, and sets nothing but its name, its port and its health check. -/
structure SetsOwnName (r : Release) : Prop where
  name : r.setValues.get? "nameOverride" = some r.name
  fullName : r.setValues.get? "fullnameOverride" = some r.name
  keys : ∀ key ∈ r.setValues.keys, key ∈ setKeys

section

variable (present : Path → Bool) (root : Path) (charts : ChartTable) (w : Workspace)
  (project : String) (p : Project) (key : String) (options : OptionMap)

theorem setsOwnName_compile (name : String) :
    SetsOwnName (compile present root charts w project p key name options) :=
  ⟨(setValuesOf_name name options).1, (setValuesOf_name name options).2, fun _ => mem_setKeys⟩

/-- The release of an element: named after the project and the element, and made of the options of
the project under those of the element's own. -/
def IsReleaseOf (item : OptionValue) (r : Release) : Prop :=
  ∃ name own, Instance item name own ∧
    r = compile present root charts w project p key (project ++ "-" ++ name)
      (options.merge (some own))

/-- The release of an element, if it carries a name. -/
def releaseOf? (item : OptionValue) : Option Release :=
  (instance? item).map fun (name, own) =>
    compile present root charts w project p key (project ++ "-" ++ name) (options.merge (some own))

variable {present root charts w project p key options}

theorem isReleaseOf_of_releaseOf? {item : OptionValue} {r : Release}
    (h : releaseOf? present root charts w project p key options item = some r) :
    IsReleaseOf present root charts w project p key options item r := by
  obtain ⟨⟨name, own⟩, hinstance, rfl⟩ := Option.map_eq_some_iff.1 h
  exact ⟨name, own, instance_of_instance? hinstance, rfl⟩

/-- There is one release for each element that carries a name, in the order of the elements. -/
theorem forall₂_releaseOf? (items : List OptionValue) :
    List.Forall₂ (IsReleaseOf present root charts w project p key options) (items.filter hasName)
      (items.filterMap (releaseOf? present root charts w project p key options)) := by
  have hsome (item : OptionValue) :
      (releaseOf? present root charts w project p key options item).isSome = hasName item := by
    rw [releaseOf?, Option.isSome_map, isSome_instance?]
  exact (Profile.forall₂_filterMap hsome items).imp fun _ _ => isReleaseOf_of_releaseOf?

theorem compileAll_of_list {items : List OptionValue}
    (h : options.get? instancesKey = some (.list items)) :
    compileAll present root charts w project p key options =
      items.filterMap (releaseOf? present root charts w project p key options) := by
  simp only [compileAll, instances?, h, List.map_filterMap]
  rfl

theorem compileAll_of_not_list (h : ∀ items, options.get? instancesKey ≠ some (.list items)) :
    compileAll present root charts w project p key options =
      [compile present root charts w project p key project options] := by
  have hnone : instances? options = none := by
    unfold instances?
    split
    · exact absurd ‹_› (h _)
    · rfl
  rw [compileAll, hnone]

end

/-! ### Other instances -/

/-- A project as it is with other instances: under a key it has the same options besides, and its
deployer, its folder, its language and what its workspace says of environments and providers
stay. -/
structure Relisted (w w' : Workspace) (p p' : Project) (spec spec' : Spec) (key : String)
    (items : List OptionValue) : Prop where
  environments : w'.environments = w.environments
  infrastructure : w'.infrastructure = w.infrastructure
  root : p'.root = p.root
  language : p'.language = p.language
  deploy : p'.deploy = some spec'
  tool : spec'.tool = spec.tool
  listed : (spec'.optionsFor key).get? instancesKey = some (.list items)
  other : ∀ option, option ≠ instancesKey →
    (spec'.optionsFor key).get? option = (spec.optionsFor key).get? option

section

variable {w w' : Workspace} {p p' : Project} {spec spec' : Spec} {key : String}
  {items : List OptionValue}

/-- The list of the instances is not among the options that a release is made of. -/
theorem Relisted.compile_eq (h : Relisted w w' p p' spec spec' key items) (present : Path → Bool)
    (root : Path) (charts : ChartTable) (project name : String) (own : OptionMap) :
    compile present root charts w' project p' key name ((spec'.optionsFor key).merge (some own)) =
      compile present root charts w project p key name
        ((spec.optionsFor key).merge (some own)) := by
  have hoption {option : String} (hne : option ≠ instancesKey) :
      ((spec'.optionsFor key).merge (some own)).get? option =
        ((spec.optionsFor key).merge (some own)).get? option := by
    rw [OptionMap.merge, OptionMap.merge, Dict.get?_overlay, Dict.get?_overlay, h.other option hne]
  have hchartPath := OptionMap.text?_congr (hoption (show chartPathKey ≠ instancesKey by decide))
  have hnamespace := OptionMap.text?_congr (hoption (show "namespace" ≠ instancesKey by decide))
  have hhealth := OptionMap.text?_congr (hoption (show "healthCheckPath" ≠ instancesKey by decide))
  have hport := hoption (show "port" ≠ instancesKey by decide)
  simp only [compile, ownChart?, setValuesOf, Settings.namespaceOf, Settings.fromEnvironment,
    Settings.fromProvider, hchartPath, hnamespace, hhealth, hport, h.root, h.language,
    h.environments, h.infrastructure]

theorem Relisted.releaseOf?_eq (h : Relisted w w' p p' spec spec' key items)
    (present : Path → Bool) (root : Path) (charts : ChartTable) (project : String) :
    releaseOf? present root charts w' project p' key (spec'.optionsFor key) =
      releaseOf? present root charts w project p key (spec.optionsFor key) := by
  funext item
  simp only [releaseOf?, h.compile_eq]

end

section

variable {producers : Producers} {table : ChartTable} {w : Workspace} {p : Project} {spec : Spec}

theorem planned_charts (hspec : p.deploy = some spec)
    (hcharts : producers.deployers.get? spec.tool = some (.charts table)) (present : Path → Bool)
    (root : Path) (name key : String) :
    ReleasePlan.compile? producers present root w name p key = some (.releases
      (compileAll present root table w name p key (spec.optionsFor key))) := by
  rw [ReleasePlan.compile?, hspec]
  simp only [Option.bind_eq_bind, Option.bind_some, hcharts]
  rfl

/-- A project that is deployed with charts has one release for each element of its list of
instances that carries a name, or a single one if it has no such list. Each release sets its own
name and no more than its port and its health check besides. With one element exchanged, the
releases of the elements before it and after it stay as they are. -/
theorem fan_out (hspec : p.deploy = some spec)
    (hcharts : producers.deployers.get? spec.tool = some (.charts table)) (present : Path → Bool)
    (root : Path) (name key : String) :
    let options := spec.options.merge (spec.configurations.get? key)
    let isReleaseOf := IsReleaseOf present root table w name p key options
    ∃ rs, ReleasePlan.compile? producers present root w name p key = some (.releases rs) ∧
      (∀ items, options.get? "instances" = some (.list items) →
        List.Forall₂ isReleaseOf (items.filter hasName) rs) ∧
      ((∀ items, options.get? "instances" ≠ some (.list items)) →
        rs = [compile present root table w name p key name options]) ∧
      (∀ r ∈ rs, SetsOwnName r) ∧
      ∀ before item item' after w' p' spec',
        options.get? "instances" = some (.list (before ++ item :: after)) →
        Relisted w w' p p' spec spec' key (before ++ item' :: after) →
        ∃ front own own' back, rs = front ++ own ++ back ∧
          ReleasePlan.compile? producers present root w' name p' key =
            some (.releases (front ++ own' ++ back)) ∧
          List.Forall₂ isReleaseOf (before.filter hasName) front ∧
          List.Forall₂ isReleaseOf ([item].filter hasName) own ∧
          List.Forall₂ isReleaseOf ([item'].filter hasName) own' ∧
          List.Forall₂ isReleaseOf (after.filter hasName) back := by
  intro options isReleaseOf
  have hplan := planned_charts (w := w) hspec hcharts present root name key
  refine ⟨_, hplan, fun items hlist => ?_, compileAll_of_not_list, fun r hr => ?_, ?_⟩
  · have hall : compileAll present root table w name p key (spec.optionsFor key) = _ :=
      compileAll_of_list hlist
    rw [hall]
    exact forall₂_releaseOf? items
  · obtain ⟨charts, own, _, rfl⟩ := ReleasePlan.exists_of_mem hplan r hr
    exact setsOwnName_compile ..
  · intro before item item' after w' p' spec' hlist h
    let releases := List.filterMap (releaseOf? present root table w name p key options)
    have hparts (element : OptionValue) : releases (before ++ element :: after) =
        releases before ++ releases [element] ++ releases after := by
      simp only [releases]
      rw [List.append_cons, List.filterMap_append, List.filterMap_append]
    refine ⟨releases before, releases [item], releases [item'], releases after, ?_, ?_,
      forall₂_releaseOf? before, forall₂_releaseOf? [item], forall₂_releaseOf? [item'],
      forall₂_releaseOf? after⟩
    · rw [← hparts]
      exact compileAll_of_list hlist
    · have hcharts' : producers.deployers.get? spec'.tool = some (.charts table) := by
        rwa [h.tool]
      rw [planned_charts h.deploy hcharts', compileAll_of_list h.listed, h.releaseOf?_eq, ← hparts]
      rfl

end

/-- A spec for charts that lists instances. -/
def listing (items : List OptionValue) : Spec := ⟨"helm", [("instances", .list items)], [], none⟩

/-- A service that is released in these instances. -/
def listed (items : List OptionValue) : Project :=
  { name := "api", root := "api", language := "go", localOptions := [], metadata := [], extra := []
    architect := { deploy := some (listing items) } }

theorem relisted_listed (items items' : List OptionValue) :
    Relisted default default (listed items) (listed items') (listing items) (listing items') "dev"
      items' where
  environments := rfl
  infrastructure := rfl
  root := rfl
  language := rfl
  deploy := rfl
  tool := rfl
  listed := rfl
  other option hne := by
    have hempty : ((listing items).optionsFor "dev").get? option = none := if_neg (Ne.symm hne)
    rw [hempty]
    exact if_neg (Ne.symm hne)

/-- A map takes the place of a list between a text and a flag: there is a release more, and the
two others stay. -/
theorem fan_out_between :
    let plan items := ReleasePlan.compile? (.builtin .builtin) (fun _ => false) ⟨""⟩ default "api"
      (listed items) "dev"
    ∃ front own own' back,
      plan [.text "eu", .list [], .bool true] = some (.releases (front ++ own ++ back)) ∧
      plan [.text "eu", .map [("name", .text "us"), ("port", .text "80")], .bool true] =
        some (.releases (front ++ own' ++ back)) ∧
      front.length = 1 ∧ own.length = 0 ∧ own'.length = 1 ∧ back.length = 1 := by
  intro plan
  obtain ⟨rs, hplan, -, -, -, hexchange⟩ := fan_out (w := default)
    (show (listed [.text "eu", .list [], .bool true]).deploy = some (listing _) from rfl)
    (Producers.get?_deployers_id .builtin .helm) (fun _ => false) ⟨""⟩ "api" "dev"
  obtain ⟨front, own, own', back, rfl, hplan', hfront, hown, hown', hback⟩ :=
    hexchange [.text "eu"] (.list []) (.map [("name", .text "us"), ("port", .text "80")])
      [.bool true] default (listed _) (listing _) rfl (relisted_listed _ _)
  refine ⟨front, own, own', back, hplan, hplan', ?_, ?_, ?_, ?_⟩
  · exact hfront.length_eq.symm.trans (by decide)
  · exact hown.length_eq.symm.trans (by decide)
  · exact hown'.length_eq.symm.trans (by decide)
  · exact hback.length_eq.symm.trans (by decide)

end Release
end Rollout

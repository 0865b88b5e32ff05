import Mathlib.Tactic.Common
import Rollout.Proofs.Options.Flattened
import Rollout.Proofs.Switch.Completed

/-!
# Grouped answers

A switch uses its answers flattened, but for the config path: that is looked for among the answers
as they are given, before they are flattened. So a switch with flattened answers is the same
switch, unless they have a config path that was in a group (`answers_flattened`); that path is
passed over, and the switch goes where the project was (`grouped_path_passed_over`).
-/

namespace Rollout

namespace OptionMap

variable {o : OptionMap}

theorem Flat.set_text (h : o.Flat) (key : String) (s : Option String) :
    Flat (o.set key (s.map .text)) := by
  intro e he
  cases s with
  | none => exact h e (List.mem_of_mem_filter he)
  | some s =>
    rcases Dict.mem_of_mem_insert he with rfl | he
    · rfl
    · exact h e he

/-- A text that was found among options is found where it is put among others. -/
theorem text?_set_text (o o' : OptionMap) (key : String) :
    text? (o'.set key ((o.text? key).map .text)) key = o.text? key := by
  rw [text?, Dict.get?_set, if_pos rfl]
  cases h : o.text? key with
  | none => rfl
  | some s => exact Text.nonBlank?_eq_some_iff.2 ⟨Switch.isBlank_of_text? h, rfl⟩

end OptionMap

namespace Switch

variable {m : Means} {r : Request} {disk : Disk}

/-- Answers count by what they flatten to beside the config path, and by the config path that
they give. -/
theorem run_congr_answers (m : Means) (disk : Disk) {answers : OptionMap}
    (hoptions : ∀ path : OptionValue, answers.flatten.insert Settings.configPathKey path =
      r.answers.flatten.insert Settings.configPathKey path)
    (hpath : ∀ p, configPathFor p { r with answers } = configPathFor p r) :
    run m { r with answers } disk = run m r disk := by
  have hdetect : detect m { r with answers } = detect m r := rfl
  have hconfirm : confirm m { r with answers } = confirm m r := rfl
  have hplan (p : Project) (d : Deployer) :
      makePlan m p { r with answers } d = makePlan m p r d := by
    have hplan : planFor (Document.rootOf m.document) p { r with answers } =
        planFor (Document.rootOf m.document) p r := by
      rw [planFor, planFor, hpath]
    rw [makePlan, makePlan, hplan]
  have hreplace (w : Workspace) (p : Project) (d : Deployer) (plan : Plan) (old : Option Path) :
      replace m { r with answers } w p d plan old = replace m r w p d plan old := by
    have hspec : specFor w p d { r with answers } plan.configPath =
        specFor w p d r plan.configPath := by
      simp only [specFor, hoptions]
    rw [replace, replace, hspec]
  have hexecute : execute m { r with answers } = execute m r := by
    simp only [execute, hdetect, hconfirm, hplan, hreplace]
  rw [run, run, hexecute]

/-- Where a path is asked for, other answers change nothing about the config path, and nor do
answers that give the same one. -/
theorem configPathFor_congr {answers : OptionMap} (p : Project)
    (h : (r.configPath.bind Text.nonBlank?).isSome ∨
      answers.text? Settings.configPathKey = r.answers.text? Settings.configPathKey) :
    configPathFor p { r with answers } = configPathFor p r := by
  simp only [configPathFor]
  rcases h with hasked | htext
  · obtain ⟨path, hpath⟩ := Option.isSome_iff_exists.1 hasked
    simp only [hpath, Option.some_or]
  · rw [htext]

theorem Opening.project_eq_of_loaded (o : Opening m r disk) {w : Workspace} {p : Project}
    (hload : (m.load.on disk).1 = .ok w) (hfind : w.project r.project = .ok p) : o.project = p :=
  (o.found_eq o.read (Prod.ext hload rfl) hfind).2.2.2.symm

theorem Opening.newFolder_eq (o : Opening m r disk) {w : Workspace} {p : Project}
    {configPath : String} (hload : (m.load.on disk).1 = .ok w)
    (hfind : w.project r.project = .ok p) (hpath : o.plan.configPath = configPath) :
    o.plan.newFolder = ((Document.rootOf m.document).child p.root).child configPath := by
  rw [← hpath, ← o.project_eq_of_loaded hload hfind]
  rfl

/-- Where no path is asked for and the answers give none of their own, the config path stays. -/
theorem Opening.configPath_eq_old (o : Opening m r disk)
    (hasked : r.configPath.bind Text.nonBlank? = none)
    (hown : r.answers.text? Settings.configPathKey = none) :
    o.plan.configPath = (oldConfigPath? o.project).getD Settings.defaultConfigPath := by
  have hpath : o.plan.configPath = configPathFor o.project r := rfl
  rw [hpath, configPathFor, hasked, hown, Option.none_or, Option.none_or]

theorem Opening.configPath_eq_answer (o : Opening m r disk) {path : String}
    (hasked : r.configPath.bind Text.nonBlank? = none)
    (hanswer : r.answers.text? Settings.configPathKey = some path) :
    o.plan.configPath = path := by
  have hpath : o.plan.configPath = configPathFor o.project r := rfl
  rw [hpath, configPathFor, hasked, hanswer, Option.none_or, Option.some_or, Option.getD_some]

/-- Answers are flattened for every purpose but one: a switch with flattened answers is the same
switch if these give the config path that the answers themselves give. It is so where a path is
asked for, or no config path was in a group. A config path that was in a group is passed over: with
the answers as they are the new folder has the path that the project had, and with flattened
answers the one from the group. -/
theorem answers_flattened (m : Means) (r : Request) (disk : Disk) (hsorted : r.answers.Sorted)
    (hshallow : r.answers.Shallow) :
    let flat := r.answers.flatten
    let own := r.answers.text? "configPath"
    let isIn (report : Report) (p : Project) (configPath : String) :=
      report.configFolder = ((Document.rootOf m.document).child p.root).child configPath
    run m { r with answers := flat.set "configPath" (own.map .text) } disk = run m r disk ∧
      ((r.configPath.bind Text.nonBlank?).isSome ∨ flat.text? "configPath" = own →
        run m { r with answers := flat } disk = run m r disk) ∧
      (r.configPath.bind Text.nonBlank? = none → flat.text? "configPath" ≠ own →
        own = none ∧ ∃ path, r.answers.lifted.text? "configPath" = some path ∧
          ∀ w p, (m.load.on disk).1 = .ok w → w.project r.project = .ok p →
            (∀ report, (run m r disk).1 = .ok (.switched report) →
              isIn report p ((oldConfigPath? p).getD "deploy")) ∧
            ∀ report, (run m { r with answers := flat } disk).1 = .ok (.switched report) →
              isIn report p path) := by
  intro flat own isIn
  have hflat : flat.Flat := OptionMap.flat_flatten hshallow
  have hflatSorted : flat.Sorted := OptionMap.sorted_flatten r.answers
  refine ⟨?_, fun h => ?_, fun hasked hne => ?_⟩
  · refine run_congr_answers m disk (fun path => ?_) fun p => configPathFor_congr p (.inr ?_)
    · rw [OptionMap.flatten_eq_self (hflat.set_text _ own) (hflatSorted.set _ _)]
      exact Dict.insert_set hflatSorted _ _ _
    · exact OptionMap.text?_set_text r.answers flat _
  · refine run_congr_answers m disk (fun path => ?_) fun p => configPathFor_congr p h
    rw [OptionMap.flatten_flatten hshallow]
  · obtain ⟨hown, hlifted⟩ := (OptionMap.text?_flatten hsorted "configPath").resolve_left hne
    obtain ⟨path, hpath⟩ : ∃ path, flat.text? "configPath" = some path :=
      Option.ne_none_iff_exists'.1 (hown ▸ hne)
    refine ⟨hown, path, hlifted ▸ hpath, fun w p hload hfind =>
      ⟨fun report h => ?_, fun report h => ?_⟩⟩
    · obtain ⟨o, st, rt, pr, rc, dp, workflows, -, rfl⟩ := exists_disposal h
      have hold := o.configPath_eq_old hasked hown
      rw [o.project_eq_of_loaded hload hfind] at hold
      exact o.newFolder_eq hload hfind hold
    · obtain ⟨o, st, rt, pr, rc, dp, workflows, -, rfl⟩ := exists_disposal h
      exact o.newFolder_eq hload hfind (o.configPath_eq_answer hasked hpath)

/-! ### Answers in a group -/

namespace Small

/-- A port in a group. -/
def groupedPort : OptionMap := [("cloudrun", .map [("port", .text "80")])]

/-- A config path in a group. -/
def groupedPath : OptionMap := [("cloudrun", .map [("configPath", .text "charts/api")])]

theorem shallow_group {key option s : String} :
    OptionMap.Shallow [(key, .map [(option, .text s)])] := by
  intro e he entries heq inner hinner
  obtain rfl := List.mem_singleton.1 he
  obtain rfl := OptionValue.map.inj heq
  obtain rfl := List.mem_singleton.1 hinner
  rfl

end Small

/-- A port in a group counts as one that is not. -/
theorem grouped_port_used :
    run (Small.means {}) { Small.request with answers := [("port", .text "80")] } Small.start =
      run (Small.means {}) { Small.request with answers := Small.groupedPort } Small.start :=
  (answers_flattened (Small.means {}) { Small.request with answers := Small.groupedPort }
    Small.start (List.pairwise_singleton _ _) Small.shallow_group).2.1 (.inr (by decide))

/-- A config path in a group is passed over. -/
theorem grouped_path_passed_over :
    let r : Request := { Small.request with answers := Small.groupedPath }
    let flattened : Request := { r with answers := r.answers.flatten }
    r.answers.Shallow ∧
      (run (Small.means {}) r Small.start).1 = .ok (.switched Small.report) ∧
      (run (Small.means {}) flattened Small.start).1 = .ok (.switched { Small.report with
        configFolder := ⟨"./web/charts/api"⟩
        written := [⟨"./web/charts/api/service.yaml"⟩] }) ∧
      run (Small.means {}) flattened Small.start ≠ run (Small.means {}) r Small.start := by
  intro r flattened
  have hr : (run (Small.means {}) r Small.start).1 = .ok (.switched Small.report) := by
    decide +kernel
  have hflattened : (run (Small.means {}) flattened Small.start).1 =
      .ok (.switched { Small.report with
        configFolder := ⟨"./web/charts/api"⟩
        written := [⟨"./web/charts/api/service.yaml"⟩] }) := by
    decide +kernel
  refine ⟨Small.shallow_group, hr, hflattened, fun heq => ?_⟩
  rw [heq, hr] at hflattened
  exact absurd hflattened (by decide)

end Switch
end Rollout

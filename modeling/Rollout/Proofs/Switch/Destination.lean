import Mathlib.Tactic.Common
import Rollout.Proofs.FileTree.Room
import Rollout.Proofs.FileTree.Same
import Rollout.Proofs.Switch.FinalTree

/-!
# Room at the destination

When a switch comes to move the new files to their place, the old ones are gone already. The move
fails exactly where there is no room for the new folder in what is left of the tree that the switch
found (`Opening.HasRoom`), and then the project is without deployment files. The check of the
destination sees to it that there is room, as long as the path of the new folder does not turn back
after something that is missing and no file is in its way (`destination_is_checked`). Where it does
turn back, the switch can end without files (`turned_destination_unplaced`).
-/

namespace Rollout.Switch

open Disk DiskTask Location

variable {m : Means} {r : Request} {disk : Disk} {o : Opening m r disk}

/-- A move fails only where it cannot be done. -/
def Means.Faultless (m : Means) : Prop :=
  ∀ n source target d, (m.rename n source target).on d = (Disk.rename source target).on d

/-- The means of the program are faultless as long as no move is refused. -/
theorem faultless_applyTo {f : Faults} (h : ∀ n, f.rename n = none) (document : Path)
    (suffix : String) (approves : String → Path → Bool) :
    (f.applyTo (Means.standard document suffix approves)).Faultless := by
  intro n source target d
  simp only [Faults.applyTo, Means.standard, h]

/-- The project is left without deployment files. -/
def isInconsistent : Except Failure Outcome → Bool
  | .error (.inconsistent _ _ _ _) => true
  | _ => false

/-! ### What is left when the old folder is gone -/

/-- The tree that a switch found, less the old folder. -/
def Opening.cleared (o : Opening m r disk) : View :=
  { disk.toView with
    tree := o.old.elim disk.tree fun folder => disk.tree.remove (folder.spot disk.current) }

namespace Opening

theorem cleared_of_none (h : o.old = none) : o.cleared = disk.toView := by simp [cleared, h]

theorem get?_cleared {folder : Path} (h : o.old = some folder)
    (hne : folder.spot disk.current ≠ []) (k : Location) :
    o.cleared.tree.get? k =
      if folder.spot disk.current <+: k then none else disk.tree.get? k := by
  simp only [cleared, h, Option.elim_some]
  exact Tree.get?_remove disk.tree k hne

/-- Nothing is there that was not there before. -/
theorem extends_cleared (hne : ∀ folder ∈ o.old, folder.spot disk.current ≠ []) :
    Tree.Extends o.cleared.tree disk.tree := by
  intro k e hk
  cases hold : o.old with
  | none => rwa [cleared_of_none hold] at hk
  | some folder =>
    rw [get?_cleared hold (hne folder hold)] at hk
    split_ifs at hk
    exact hk

end Opening

section Left

variable (hm : m.Lawful) (hc : m.Confined r disk)
include hm hc

theorem Retirement.spot_old_ne_nil {st : Staging o} (rt : Retirement st) :
    ∀ folder ∈ o.old, folder.spot disk.current ≠ [] := by
  intro folder hold
  have hretired := rt.retired_some hm hc hold
  generalize rt.retired = retired, rt.disk = d at hretired
  cases hretired with
  | moved held movable => exact movable.source

/-- Away from the switch's own folders, what is left is the tree less the old folder. -/
theorem Retirement.get?_left {st : Staging o} (rt : Retirement st) {k : Location}
    (hstaging : ¬ m.stagingSpot disk <+: k) (hholder : o.old ≠ none → ¬ m.holderSpot disk <+: k) :
    rt.disk.tree.get? k = o.cleared.tree.get? k := by
  have hstaged : st.disk.tree.get? k = disk.tree.get? k := (st.staged hm hc).2.same k hstaging
  have hretired := rt.retired_eq hm hc
  cases hold : o.old with
  | none =>
    rw [Opening.cleared_of_none hold, ← hstaged]
    exact hretired.get?_other (by simp [hold]) (by simp [hold])
  | some folder =>
    have hholder := hholder (by simp [hold])
    rw [Opening.get?_cleared hold (rt.spot_old_ne_nil hm hc folder hold), ← hstaged]
    split_ifs with hbelow
    · exact (rt.retired_some hm hc hold).get?_old hbelow hholder
    · rw [hold] at hretired
      exact hretired.get?_other (by simpa using hbelow) (by simpa using hholder)

theorem Retirement.get?_left_visits (hu : m.Unforeseen r disk) {st : Staging o}
    (rt : Retirement st) {k : Location} (hk : Visits disk.current o.plan.newFolder k) :
    rt.disk.tree.get? k = o.cleared.tree.get? k := by
  obtain ⟨hstaging, hholder⟩ := hu.apart hm o (hk.within fun _ hn => .inl hn)
  exact rt.get?_left hm hc hstaging fun _ => hholder

end Left

/-! ### Room for the new folder -/

/-- Room for the new folder once the old one is gone. -/
structure Opening.HasRoom (o : Opening m r disk) : Prop where
  room : o.cleared.Room o.plan.newFolder
  /-- The folders on the way to the workspace are there, or made on the way to the new one. -/
  reach : ∀ s, m.OnRootPath disk s → o.cleared.tree.isFolder s ∨
    Visited (o.plan.newFolder.origin disk.current) o.plan.newFolder.lead s
  outside : ¬ o.newSpot <+: m.rootSpot disk

section Room

variable (hm : m.Lawful) (hc : m.Confined r disk) (hp : disk.toView.Proper)
include hm hc hp

theorem Retirement.get?_left_root {st : Staging o} (rt : Retirement st) {s : Location}
    (hs : m.OnRootPath disk s) : rt.disk.tree.get? s = o.cleared.tree.get? s := by
  have hvacant := (st.staged hm hc).2.vacant
  have htrail := (mem_trail_staging hm hp).2 hs
  have hstaging := hvacant.not_prefix s htrail
  refine rt.get?_left hm hc hstaging fun hold hbelow => ?_
  obtain ⟨folder, -, hretired⟩ := rt.exists_retired hm hc hold
  have hfolder := Tree.get?_of_isFolder (hvacant.trail s htrail)
  rw [Tree.get?_under hretired.absent hbelow] at hfolder
  cases hfolder

variable (hu : m.Unforeseen r disk)
include hu

/-- The switch's own folders are not in the new folder, unless the workspace is. -/
theorem Retirement.get?_left_below {st : Staging o} (rt : Retirement st)
    (hout : ¬ o.newSpot <+: m.rootSpot disk) (k : Location) :
    rt.disk.tree.get? (o.newSpot ++ k) = o.cleared.tree.get? (o.newSpot ++ k) := by
  obtain ⟨hstaging, hholder⟩ := hu.apart hm o (within_newSpot o)
  rw [stagingSpot_eq hm hp] at hstaging
  rw [holderSpot_eq hm hp] at hholder
  refine rt.get?_left hm hc ?_ fun _ => ?_
  · rw [stagingSpot_eq hm hp]
    exact (entry_apart hstaging hout k).1
  · rw [holderSpot_eq hm hp]
    exact (entry_apart hholder hout k).1

/-- The staged files can be moved to their place exactly if there is room for the new folder. -/
theorem Retirement.rename_ok_iff {st : Staging o} (rt : Retirement st) :
    ((Disk.rename (m.stagingPath disk.toView) o.plan.newFolder).on rt.disk).1 = .ok () ↔
      o.HasRoom := by
  have hcurrent := rt.current hm hc
  have hstaging := rt.isFolder_staging hm hc hp
  have hnew := (hu.apart hm o (within_newSpot o)).1
  have hin : ¬ m.stagingSpot disk <+: o.plan.newFolder.spot rt.disk.current := hcurrent ▸ hnew
  rw [Disk.rename_ok_iff (st.staged hm hc).2.vacant hcurrent hstaging hin, hcurrent]
  have hreach (s : Location) : s ∈ trail ((m.stagingPath disk.toView).origin disk.current)
      (m.stagingPath disk.toView).segments ↔ m.OnRootPath disk s := mem_trail_staging hm hp
  constructor
  · rintro ⟨hroom, hway⟩
    have hout : ¬ o.newSpot <+: m.rootSpot disk := by
      intro hbelow
      obtain ⟨k, hk⟩ := hbelow.trans (List.prefix_append _ [m.stagingName])
      rw [← stagingSpot_eq hm hp] at hk
      have hfree := hroom.free k
      rw [hcurrent] at hfree
      have hnil : k = [] := hfree (by
        rw [show o.plan.newFolder.spot disk.current ++ k = _ from hk,
          Tree.get?_of_isFolder hstaging]
        simp)
      rw [hnil, List.append_nil] at hk
      exact hnew (hk ▸ List.prefix_rfl)
    refine ⟨hroom.congr hcurrent.symm (fun k hk => ?_) (fun k => ?_), fun s hs => ?_, hout⟩
    · rw [hcurrent] at hk
      exact (rt.get?_left_visits hm hc hu hk).symm
    · rw [hcurrent]
      exact (rt.get?_left_below hm hc hp hu hout k).symm
    · rw [Tree.isFolder, ← rt.get?_left_root hm hc hp hs, ← Tree.isFolder]
      exact hway s ((hreach s).2 hs)
  · rintro ⟨hroom, hway, hout⟩
    refine ⟨hroom.congr hcurrent (fun k hk => rt.get?_left_visits hm hc hu hk)
      (fun k => rt.get?_left_below hm hc hp hu hout k), fun s hs => ?_⟩
    rw [hreach] at hs
    rw [Tree.isFolder, rt.get?_left_root hm hc hp hs, ← Tree.isFolder]
    exact hway s hs

end Room

/-! ### What the check achieves -/

/-- A destination that the check of a switch can tell: its path turns back only where folders are,
no file is in its way, and neither the old path nor the way to the workspace is in the way of the
switch itself. -/
structure Opening.IsPlain (o : Opening m r disk) : Prop where
  fits : o.cleared.Fits o.plan.newFolder
  straight : o.cleared.Straight o.plan.newFolder
  usable : ∀ folder ∈ o.plan.oldFolder, View.isUnusable folder = false
  apart : ∀ folder ∈ o.old, ∀ s, m.OnRootPath disk s → ¬ folder.spot disk.current <+: s

section Plain

variable (hm : m.Lawful)
include hm

/-- A switch that opens has found nothing at a plain destination, the old folder aside. -/
theorem Opening.IsPlain.exists?_cleared (h : o.IsPlain)
    (hne : ∀ folder ∈ o.old, folder.spot disk.current ≠ []) :
    o.cleared.exists? o.plan.newFolder = false := by
  by_contra hthere
  rw [Bool.not_eq_false] at hthere
  have hlocate : o.cleared.locate o.plan.newFolder = .ok o.newSpot := View.exists?_eq_true hthere
  have hend := (View.locate_eq_ok hlocate).2
  have hextends := o.extends_cleared hne
  have hfound : disk.toView.exists? o.plan.newFolder := by
    obtain ⟨e, he⟩ := Option.ne_none_iff_exists'.1 hend
    have hlocate' : disk.toView.locate o.plan.newFolder = .ok o.newSpot :=
      View.locate_mono hlocate rfl (fun s _ hs => hextends.isFolder hs)
        (by rw [hextends _ e he]; simp)
    rw [View.exists?, hlocate']
    rfl
  -- the check lets it pass only as the old folder
  obtain ⟨folder, hfolder, hsame⟩ : ∃ folder, o.plan.oldFolder = some folder ∧
      folder.same o.plan.newFolder := by
    have hfree := o.free
    rw [o.base_eq hm, Plan.isBlocked, show planFor _ _ _ = o.plan from rfl, hfound,
      Bool.and_true, Bool.not_eq_false', Option.any_eq_true] at hfree
    exact hfree
  cases hold : o.old with
  | none =>
    have hcleared := Opening.cleared_of_none hold
    have hexisting := View.exists?_of_same hsame (h.usable folder hfolder) hthere
      ((Tree.passable_iff.1 (h.fits.clear _ (.inr rfl))).resolve_left hend)
    have hnone : o.plan.oldFolder.filter o.base.toView.exists? = none := hold
    rw [hcleared] at hexisting
    simp [hfolder, o.base_eq hm, hexisting] at hnone
  | some old =>
    have hexisting : o.plan.oldFolder.filter o.base.toView.exists? = some old := hold
    obtain rfl : folder = old :=
      Option.some.inj (hfolder.symm.trans (Option.eq_some_of_filter_eq_some hexisting))
    refine hend ?_
    rw [Opening.get?_cleared hold (hne _ hold)]
    exact if_pos (Path.spot_of_same hsame ▸ List.prefix_rfl)

variable (hc : m.Confined r disk) (hp : disk.toView.Proper)
include hc hp

/-- There is room at a plain destination once a switch has moved the old folder aside. -/
theorem Opening.IsPlain.hasRoom (h : o.IsPlain) {st : Staging o} (rt : Retirement st) :
    o.HasRoom := by
  have hne := rt.spot_old_ne_nil hm hc
  have hnone := h.exists?_cleared hm hne
  have habsent := h.fits.absent h.straight hnone
  have hroot (s : Location) (hs : m.OnRootPath disk s) : o.cleared.tree.isFolder s := by
    have hfolder : disk.tree.isFolder s :=
      (st.staged hm hc).2.vacant.trail s ((mem_trail_staging hm hp).2 hs)
    cases hold : o.old with
    | none => rwa [Opening.cleared_of_none hold]
    | some folder =>
      rw [Tree.isFolder, Opening.get?_cleared hold (hne folder hold),
        if_neg (h.apart folder hold s hs), ← Tree.isFolder, hfolder]
  refine ⟨h.fits.room h.straight hnone, fun s hs => .inl (hroot s hs), fun hbelow => ?_⟩
  have hfolder := Tree.get?_of_isFolder (hroot _ (.inr rfl))
  rw [Tree.get?_under habsent hbelow] at hfolder
  cases hfolder

end Plain

/-- How the end of a switch is related to the room at its destination. -/
structure Checked (m : Means) (r : Request) (disk : Disk) (result : Except Failure Outcome)
    (s : Progress) : Prop where
  /-- A switch that comes to move the new files fails at it exactly where there is no room. -/
  inconsistent : isInconsistent result ↔
    s.kept ≠ none ∧ ∃ o : Opening m r disk, ¬ o.HasRoom
  /-- With a plain destination that does not happen. -/
  plain : ∀ o : Opening m r disk, o.IsPlain → isInconsistent result = false

/-- A switch that ends otherwise had room if it came to need it. -/
theorem checked_of_hasRoom {result : Except Failure Outcome} {s : Progress}
    (h : isInconsistent result = false) (hroom : s.kept = none ∨ ∃ o : Opening m r disk, o.HasRoom) :
    Checked m r disk result s where
  inconsistent := by
    refine iff_of_false (by simp [h]) ?_
    rintro ⟨hkept, o, ho⟩
    rcases hroom with hnone | ⟨o', ho'⟩
    · exact hkept hnone
    · exact ho (Subsingleton.elim o' o ▸ ho')
  plain _ _ := h

theorem Course.checked (hm : m.Lawful) (hc : m.Confined r disk) (hp : disk.toView.Proper)
    (hu : m.Unforeseen r disk) (hf : m.Faultless) {result : Except Failure Outcome} {s : Progress}
    (h : Course m r disk result s) : Checked m r disk result s := by
  have promotes {o : Opening m r disk} {st : Staging o} (rt : Retirement st) :
      ((m.rename (rt.renames + 1) st.folder o.plan.newFolder).on rt.disk).1 = .ok () ↔
        o.HasRoom := by
    rw [hf, (st.staged hm hc).1]
    exact rt.rename_ok_iff hm hc hp hu
  have promoted {o : Opening m r disk} {st : Staging o} {rt : Retirement st} (pr : Promotion rt) :
      o.HasRoom := (promotes rt).1 (congrArg Prod.fst pr.moving)
  cases h with
  | unpromoted o h st rt e d hmove =>
    have hno : ¬ o.HasRoom := by
      rw [← promotes rt, hmove]
      simp
    refine ⟨iff_of_true rfl ⟨by simp, o, hno⟩, fun o' hplain => ?_⟩
    obtain rfl : o' = o := Subsingleton.elim _ _
    exact absurd (hplain.hasRoom hm hc hp rt) hno
  | lost o h st rt pr e hswitch => exact checked_of_hasRoom rfl (.inr ⟨o, promoted pr⟩)
  | unrecorded o h st rt pr w e d hswitch hsave =>
    exact checked_of_hasRoom rfl (.inr ⟨o, promoted pr⟩)
  | unrefreshed o h st rt pr rc dp e d hregenerate =>
    exact checked_of_hasRoom rfl (.inr ⟨o, promoted pr⟩)
  | done o h st rt pr rc dp workflows d hregenerate =>
    exact checked_of_hasRoom rfl (.inr ⟨o, promoted pr⟩)
  | unread | unknown | active | declined => exact checked_of_hasRoom rfl (.inl rfl)
  | unloaded | blocked | unstaged | ungenerated | unheld | unmoved =>
    exact checked_of_hasRoom rfl (.inl (by simp))

/-- Where moves fail only if they cannot be done, a switch leaves a project without deployment
files exactly if it comes to move the new ones and there is no room for them in what is left
without the old folder. The check before that sees to it that there is room, as long as the
destination is plain. -/
theorem destination_is_checked (hm : m.Lawful) (hc : m.Confined r disk)
    (hp : disk.toView.Proper) (hu : m.Unforeseen r disk) (hf : m.Faultless) :
    Checked m r disk (run m r disk).1 (run m r disk).2 :=
  (course m r disk).checked hm hc hp hu hf

/-! ### Paths that turn back -/

namespace Small

/-- The small workspace with a folder of someone else's beside the deployment folder. -/
def shared : Disk :=
  .ofTree ⟨[("w", .folder [("keel.json", .file (.text documentText)),
    ("web", .folder [("deploy", .folder [("Chart.yaml", .file (.text "name: web"))]),
      ("other", .folder [("notes.txt", .file (.text "kept"))])])])]⟩ ["w"]

/-- A request to deploy from another folder of the project. -/
def moveTo (configPath : String) : Request := { request with configPath := some configPath }

def turned : Request := moveTo "other/../charts"

theorem plan_turned (o : Opening (means {}) turned shared) :
    o.plan.oldFolder = some ⟨"./web/deploy"⟩ ∧ o.plan.newFolder = ⟨"./web/other/../charts"⟩ :=
  o.of_loaded (P := fun _ p =>
    (planFor (Document.rootOf ⟨"keel.json"⟩) p turned).oldFolder = some ⟨"./web/deploy"⟩ ∧
      (planFor (Document.rootOf ⟨"keel.json"⟩) p turned).newFolder = ⟨"./web/other/../charts"⟩)
    (by decide +kernel)

theorem confined_turned : (means {}).Confined turned shared :=
  (builtin_applyTo {} _).confined (lawful {}) fun o =>
    o.of_loaded (P := fun w p => ∀ name ∈ environmentsOf w p, Path.IsName name) (by decide +kernel)

theorem unforeseen_turned : (means {}).Unforeseen turned shared := by
  intro o
  rw [(plan_turned o).2]
  exact (by decide : ∀ name ∈ [stagingPrefix ++ "0aZb9X", retiredPrefix ++ "0aZb9X"],
    name ∉ ["w"] ∧ name ∉ (Path.mk "./web/other/../charts").segments)

theorem old_turned (o : Opening (means {}) turned shared) : o.old = some ⟨"./web/deploy"⟩ := by
  unfold Opening.old Plan.existing?
  rw [(plan_turned o).1, o.base_eq (lawful {})]
  decide

theorem cleared_turned (o : Opening (means {}) turned shared) :
    o.cleared = ⟨shared.tree.remove ["w", "web", "deploy"], ["w"]⟩ := by
  rw [Opening.cleared, old_turned o]
  rfl

theorem isPlain_turned (o : Opening (means {}) turned shared) : o.IsPlain where
  fits := by
    rw [cleared_turned o, (plan_turned o).2]
    decide
  straight := by
    rw [cleared_turned o, (plan_turned o).2]
    exact ⟨[".", "web", "other", ".."], ["charts"], ["w", "web"], by decide, by decide,
      by decide, by decide⟩
  usable := by
    rw [(plan_turned o).1]
    simp only [Option.mem_some_iff, forall_eq']
    decide
  apart := by
    rw [old_turned o]
    rintro _ ⟨⟩ s (hs | rfl)
    · revert s
      decide
    · decide

/-- What a switch to there reports. -/
def turnedReport : Report :=
  { project := "web"
    origin := some "helm"
    target := .cloudRun
    configFolder := ⟨"./web/other/../charts"⟩
    removed := some ⟨"./web/deploy"⟩
    leftover := none
    written := [⟨"./web/other/../charts/service.yaml"⟩]
    workflows := [⟨"./.github/workflows/keel-deploy.yml"⟩] }

end Small

/-- A destination that turns back after a folder that is there is plain, and there is room for the
new files. -/
theorem turned_destination_placed :
    (∃ o : Opening (Small.means {}) Small.turned Small.shared, o.IsPlain ∧ o.HasRoom) ∧
      isInconsistent (run (Small.means {}) Small.turned Small.shared).1 = false := by
  have hend : (run (Small.means {}) Small.turned Small.shared).1 =
      .ok (.switched Small.turnedReport) := by
    decide +kernel
  obtain ⟨o, st, rt, -⟩ := exists_disposal hend
  have hplain := Small.isPlain_turned o
  have hchecked := destination_is_checked (Small.lawful {}) Small.confined_turned (by decide)
    Small.unforeseen_turned (faultless_applyTo (fun _ => rfl) _ _ _)
  exact ⟨⟨o, hplain, hplain.hasRoom (Small.lawful {}) Small.confined_turned (by decide) rt⟩,
    hchecked.plain o hplain⟩

/-- Where it turns back after something that is missing, it passes the check though it leads to
somebody else's folder once the way is made: the old folder is gone and the new files are left
where they were staged. -/
theorem turned_destination_unplaced :
    let ended := run (Small.means {}) (Small.moveTo "missing/../other") Small.shared
    isInconsistent ended.1 ∧ ended.2.disk.tree.get? ["w", "web", "deploy"] = none ∧
      ended.2.disk.tree.get? ["w", "web", "other", "notes.txt"] =
        some (.file (.text "kept")) := by
  decide +kernel

end Rollout.Switch

import Mathlib.Tactic.Common
import Rollout.Proofs.Output.Relocated
import Rollout.Proofs.Output.Steady
import Rollout.Proofs.Switch.Destination
import Rollout.Proofs.Switch.Determined
import Rollout.Proofs.Switch.Leftover
import Rollout.Proofs.Switch.OwnNames
import Rollout.Proofs.Switch.Rerun

/-!
# Taking a switch up again

A switch starts on a disk on which another one has left off (`Resumes`): it finds the same document
and, with the old folder gone, the same as that one but for folders on the way to the new one and
for what is there under some names. Each phase of the first switch has its counterpart in the
second (`Resumes.exists_staging` to `Resumes.exists_disposal`), so that both end alike
(`Resumes.run_eq`).
-/

namespace Rollout.Switch

open Disk DiskTask Location

variable {m : Means} {r : Request} {disk disk' : Disk} {o : Opening m r disk}
  {o' : Opening m r disk'} {names : List String}

theorem exists_of_fst {α β : Type} {x : α × β} {a : α} (h : x.1 = a) : ∃ b, x = (a, b) :=
  ⟨x.2, by rw [← h]⟩

/-! ### The way to the new folder -/

/-- The folders on the way to the new one. -/
def Opening.OnWay (o : Opening m r disk) : Location → Prop :=
  Visited (o.plan.newFolder.origin disk.current) o.plan.newFolder.lead

section Away

variable (hm : m.Lawful) (hc : m.Confined r disk) (hp : disk.toView.Proper)
  (hu : m.Unforeseen r disk) {st : Staging o} {rt : Retirement st}
include hm hc

theorem Promotion.renamed (pr : Promotion rt) :
    (Disk.rename (m.stagingPath disk.toView) o.plan.newFolder).on rt.disk = (.ok (), pr.disk) := by
  have hmoving := pr.moving
  rw [(st.staged hm hc).1] at hmoving
  rcases hm.rename (rt.renames + 1) (m.stagingPath disk.toView) o.plan.newFolder rt.disk with
    heq | ⟨e, d', heq, -⟩
  · exact heq.symm.trans hmoving
  · cases heq.symm.trans hmoving

include hp hu

/-- Away from the new files there is what was there before, and the folders on the way to them. -/
theorem Promotion.get?_away (pr : Promotion rt) {k : Location} (hnew : ¬ o.newSpot <+: k)
    (hstaging : ¬ m.stagingSpot disk <+: k) :
    o.OnWay k ∧ pr.disk.tree.get? k = some .folder ∨
      ¬ o.OnWay k ∧ pr.disk.tree.get? k = rt.disk.tree.get? k := by
  have hcurrent := rt.current hm hc
  have hf := rt.isFolder_staging hm hc hp
  have hcases := Disk.rename_cases (m.stagingPath disk.toView) o.plan.newFolder rt.disk rfl rfl rfl
  rw [hcurrent] at hcases
  rcases hcases with ⟨e, heq⟩ | ⟨-, hsame, -⟩ | ⟨heq, hmovable, -, pl, hplace, hl⟩
  · cases heq.symm.trans (pr.renamed hm hc)
  · exact absurd hsame.symm (newSpot_ne_stagingSpot hm hu o)
  · have hdisk := congrArg Prod.snd ((pr.renamed hm hc).symm.trans heq)
    have hmade : pr.disk.tree.get? k =
        ((makeFoldersTo o.plan.newFolder).on rt.disk).2.tree.get? k := by
      rw [show pr.disk = _ from hdisk]
      exact hmovable.sameOff k (not_or.2 ⟨hstaging, hnew⟩)
    obtain ⟨⟨last, hlast, hidle, -⟩, htext, -, -, hway⟩ := View.lead_of_place hplace hl
    have hgrown := grows_makeFoldersTo htext hlast hidle rt.disk
    have hmadeCurrent : ((makeFoldersTo o.plan.newFolder).on rt.disk).2.current = disk.current :=
      (through_makeFoldersTo o.plan.newFolder rt.disk).current.trans hcurrent
    rw [hcurrent] at hgrown
    rw [hmadeCurrent] at hway
    rw [hmade]
    by_cases hk : o.OnWay k
    · exact .inl ⟨hk, Tree.get?_of_isFolder (hway k hk)⟩
    · exact .inr ⟨hk, hgrown.sameOff k hk⟩

end Away

/-! ### A switch that is taken up again -/

/-- A switch starts where another one has left off: where the first one would find its document
and its folder, and once the old folder is gone there is the same but for folders on the way to
the new one, and for what is beside the workspace under some names. -/
structure Resumes (o : Opening m r disk) (o' : Opening m r disk') (names : List String) :
    Prop where
  current : disk'.current = disk.current
  workspace : o'.workspace = o.workspace
  left : ∀ k, ¬ m.Beside disk names k →
    o'.cleared.tree.get? k = o.cleared.tree.get? k ∨
      o.OnWay k ∧ o.cleared.tree.get? k = none ∧ o'.cleared.tree.get? k = some .folder
  root : ∀ s, m.OnRootPath disk s → disk'.tree.isFolder s
  absent : disk'.tree.get? (m.stagingSpot disk) = none ∧ disk'.tree.get? (m.holderSpot disk) = none
  /-- What is there to be moved aside is a folder, and can be. -/
  old : ∀ folder ∈ o'.old, disk'.tree.isFolder (folder.spot disk.current) ∧
    ¬ folder.spot disk.current <+: m.rootSpot disk ∧
    ∃ last, folder.last? = some last ∧ Path.isIdle last = false ∧ last ≠ ".."

theorem Opening.project_eq (h : o'.workspace = o.workspace) : o'.project = o.project := by
  have hfound := o'.found
  rw [h, o.found] at hfound
  exact (Except.ok.inj hfound).symm

theorem Opening.plan_eq (h : o'.workspace = o.workspace) : o'.plan = o.plan := by
  rw [Opening.plan, Opening.project_eq h]
  rfl

namespace Resumes

theorem deployer (_ : Resumes o o' names) : o'.deployer = o.deployer :=
  Except.ok.inj (o'.read.symm.trans o.read)

variable (h : Resumes o o' names)
include h

theorem project : o'.project = o.project := Opening.project_eq h.workspace

theorem plan : o'.plan = o.plan := Opening.plan_eq h.workspace

theorem spec : o'.spec = o.spec := by
  rw [Opening.spec, h.workspace, h.project, h.deployer, h.plan]
  rfl

theorem newSpot : o'.newSpot = o.newSpot := by rw [Opening.newSpot, h.plan, h.current]; rfl

theorem rootSpot : m.rootSpot disk' = m.rootSpot disk := by rw [Means.rootSpot, h.current]; rfl

theorem stagingPath : m.stagingPath disk'.toView = m.stagingPath disk.toView :=
  temporaryPath_congr h.current _ _

theorem holderPath : m.holderPath disk'.toView = m.holderPath disk.toView :=
  temporaryPath_congr h.current _ _

theorem stagingSpot : m.stagingSpot disk' = m.stagingSpot disk := by
  rw [Means.stagingSpot, h.stagingPath, h.current]
  rfl

theorem holderSpot : m.holderSpot disk' = m.holderSpot disk := by
  rw [Means.holderSpot, h.holderPath, h.current]
  rfl

theorem absent_holder : disk'.tree.get? (m.holderSpot disk') = none := by
  rw [h.holderSpot]
  exact h.absent.2

theorem onRootPath {s : Location} : m.OnRootPath disk' s ↔ m.OnRootPath disk s := by
  simp only [Means.OnRootPath, fromTop, h.rootSpot, h.current]

theorem onWay {k : Location} : o'.OnWay k ↔ o.OnWay k := by
  rw [Opening.OnWay, h.plan, h.current]
  rfl

theorem proper (hp : disk.toView.Proper) : disk'.toView.Proper := by
  rw [View.Proper, h.current]
  exact hp

theorem keysStay (hkeys : KeysStay m r disk) : KeysStay m r disk' := by
  intro o'' key hkey
  obtain rfl : o'' = o' := Subsingleton.elim _ _
  rw [h.deployer, h.project, h.spec] at hkey
  exact hkeys o key hkey

theorem unforeseen (hu : m.Unforeseen r disk) : m.Unforeseen r disk' := by
  intro o'' name hname
  obtain rfl : o'' = o' := Subsingleton.elim _ _
  rw [h.current, h.plan]
  exact hu o name hname

/-- There is room for the new folder where there was. -/
theorem hasRoom (hm : m.Lawful) (hc : m.Confined r disk) (hp : disk.toView.Proper)
    (hnew : ∀ name ∈ names, o.IsNew name) (st : Staging o) (hroom : o.HasRoom) : o'.HasRoom := by
  have hcurrent : o'.cleared.current = disk.current := h.current
  have hold : o.cleared.current = disk.current := rfl
  have hvisits {k : Location} (hk : Visits disk.current o.plan.newFolder k) :=
    h.left k (not_beside_visits hnew hk)
  refine ⟨⟨⟨?_, ?_, ?_, ?_, fun s hs => ?_⟩, ?_, fun k hk => ?_, fun s hs => ?_⟩,
    fun s hs => ?_, ?_⟩
  · exact h.plan ▸ hroom.room.text
  · exact h.plan ▸ hroom.room.usable
  · exact h.plan ▸ hroom.room.named
  · exact h.plan ▸ hroom.room.short
  · rw [hcurrent, h.plan] at hs
    have hclear := hroom.room.clear s hs
    rcases hvisits hs with hsame | ⟨-, -, hfolder⟩
    · intro content
      rw [hsame]
      exact hclear content
    · intro content
      rw [hfolder]
      simp
  · rw [hcurrent, h.plan]
    have hstart := hroom.room.start
    rw [hold] at hstart
    rcases hvisits (visited_self _ _) with hsame | ⟨-, -, hfolder⟩
    · rw [Tree.isFolder, hsame]
      exact hstart
    · rw [Tree.isFolder]
      exact decide_eq_true hfolder
  · rw [hcurrent, h.plan] at hk
    rcases h.left _ (not_beside_new hnew hroom.outside k) with hsame | ⟨hway, -, -⟩
    · exact hroom.room.free k (hsame ▸ hk)
    · have hnil : o.newSpot ++ k = o.newSpot :=
        hroom.room.apart _ hway (List.prefix_append _ k)
      simpa using hnil
  · rw [hcurrent, h.plan] at hs ⊢
    exact hroom.room.apart s hs
  · rw [h.onRootPath] at hs
    have hway := h.onWay (k := s)
    rcases hroom.reach s hs with hfolder | honway
    · rcases h.left s (not_beside_root hnew hp hm hc st hs) with hsame | ⟨-, -, hgrown⟩
      · rw [Tree.isFolder, hsame]
        exact .inl hfolder
      · exact .inl (decide_eq_true hgrown)
    · exact .inr (hway.2 honway)
  · rw [h.newSpot, h.rootSpot]
    exact hroom.outside

end Resumes

theorem Means.Sound.builtin (hs : m.Sound) : m.Builtin := fun _ _ _ _ _ _ =>
  .inl ⟨.never, by rw [hs.generate]⟩

theorem Means.Sound.loadsDocument (hs : m.Sound) : m.LoadsDocument := hs.load

/-- There is room for a folder that keeps the old one. -/
structure Means.HasHolder (m : Means) (disk : Disk) : Prop where
  vacant : Vacant disk.toView (m.holderPath disk.toView) (m.holderSpot disk)
  usable : View.isUnusable ((m.holderPath disk.toView).child previousName) = false

theorem not_isTooLong_previousName : isTooLong previousName = false := by decide +kernel

theorem Means.HasHolder.held (hroom : m.HasHolder disk) (hm : m.Lawful)
    (hp : disk.toView.Proper) {made : Disk} (hstaged : Staged m disk made) : Held m disk made := by
  refine ⟨hstaged, hroom.vacant.congr hstaged.current ?_ fun s hs =>
    hstaged.extends_.isFolder (hroom.vacant.trail s hs)⟩
  have hapart := (own_apart hm hp []).1
  rw [List.append_nil] at hapart
  rw [hstaged.same _ hapart]
  exact hroom.vacant.absent

section Held

variable {made : Disk} (h : Held m disk made) (hm : m.Lawful) (hs : m.Sound)
include h

/-- The place for the old files is free. -/
theorem Held.get?_previous (k : Location) :
    (withHolder m disk made).tree.get? (m.holderSpot disk ++ [previousName] ++ k) = none := by
  rw [h.get?_withHolder, if_neg (by simp), List.append_assoc]
  exact Tree.get?_append_of_none h.vacant.absent _

include hs

theorem Held.on_makeFolder : (m.makeFolder (Document.rootOf m.document) m.retiredName).on made =
    (.ok (m.holderPath disk.toView), withHolder m disk made) := by
  have hpath : m.holderPath made.toView = m.holderPath disk.toView :=
    temporaryPath_congr h.staged.current _ _
  have hvacant := h.vacant
  rw [← hpath] at hvacant
  rw [hs.makeFolder, makeTemporary_of_vacant hvacant, ← hpath]
  rfl

include hm

/-- A folder that is there is moved to it. -/
theorem Held.on_rename (hp : disk.toView.Proper) (hroom : m.HasHolder disk) {folder : Path}
    (hlocate : disk.locate folder = .ok (folder.spot disk.current))
    (hfolder : disk.tree.isFolder (folder.spot disk.current))
    (hroot : ¬ folder.spot disk.current <+: m.rootSpot disk) {last : String}
    (hlast : folder.last? = some last) (hidle : Path.isIdle last = false) (hup : last ≠ "..") :
    ∃ d, (m.rename 1 folder ((m.holderPath disk.toView).child previousName)).on
      (withHolder m disk made) = (.ok (), d) := by
  have hextends := h.through.last
  have hcurrent : (withHolder m disk made).current = disk.current :=
    (withHolder_current _ _ _).trans h.staged.current
  obtain ⟨pa, hplace, hpa⟩ := View.place_of_locate hlocate hlast hidle hup
  obtain ⟨_, hname⟩ := View.name_of_location? hpa
  replace hplace := View.place_mono hplace hname hcurrent fun s _ hs => hextends.isFolder hs
  obtain ⟨pb, hplaceKept, hpb⟩ := View.place_child
    (h.vacant.locate (withHolder_current _ _ _) h.trail h.isFolder_withHolder)
    h.isFolder_withHolder isName_previousName hroom.usable not_isTooLong_previousName
  have hthere : disk.tree.get? (folder.spot disk.current) ≠ none := by
    rw [Tree.get?_of_isFolder hfolder]
    simp
  have hout := (not_prefix_own hm hp hthere hroot).2 hroom.vacant.absent [previousName]
  have hmovement := movement?_of_free hplace hpa hplaceKept hpb (hextends.isFolder hfolder) hout
    (fun k hk => absurd (h.get?_previous k) hk)
    (Tree.passable_iff.2 (.inl (by simpa using h.get?_previous [])))
  rw [hs.rename]
  simp only
  rw [Disk.on_rename, h.on_makeFoldersTo hm]
  simp only
  rw [hmovement]
  exact ⟨_, rfl⟩

end Held

section Phases

variable (hm : m.Lawful) (hs : m.Sound) (hp : disk.toView.Proper) (hkeys : KeysStay m r disk)
  (h : Resumes o o' names)
include hm hs hp h

/-- The staging folder is made again. On the way to it and in it the two disks are alike. -/
theorem Resumes.exists_made (st : Staging o) :
    ∃ made, (m.makeFolder (Document.rootOf m.document) m.stagingName).on o'.base =
        (.ok st.folder, made) ∧
      View.Alike (fun k => ¬ m.OnRootPath disk k ∧ ¬ m.stagingSpot disk <+: k) disk.current
        st.made.toView made.toView := by
  obtain ⟨hpath, hvacant, hmade⟩ := st.made_eq hm
  have hvacant' : Vacant disk'.toView (m.stagingPath disk.toView) (m.stagingSpot disk) :=
    hvacant.congr h.current h.absent.1 fun s hs => h.root s ((mem_trail_staging hm hp).1 hs)
  refine ⟨disk'.after (.put (m.stagingSpot disk) .folder), ?_, ?_⟩
  · rw [o'.base_eq hm, hs.makeFolder, hpath, ← h.stagingPath]
    rw [← h.stagingPath, ← h.stagingSpot] at hvacant'
    rw [← h.stagingSpot]
    exact makeTemporary_of_vacant hvacant'
  · rw [hmade]
    refine ⟨rfl, h.current, fun k hk => ?_⟩
    change (disk'.tree.put _ _).get? k = (disk.tree.put _ _).get? k
    rw [hvacant'.get?_put, hvacant.get?_put]
    split_ifs with heq
    · rfl
    · by_cases hroot : m.OnRootPath disk k
      · rw [Tree.get?_of_isFolder (h.root k hroot),
          Tree.get?_of_isFolder (hvacant.trail k ((mem_trail_staging hm hp).2 hroot))]
      · have hbelow : m.stagingSpot disk <+: k := by
          by_contra hout
          exact hk ⟨hroot, hout⟩
        rw [Tree.get?_under h.absent.1 hbelow, Tree.get?_under hvacant.absent hbelow]

omit hs in
theorem Resumes.hasHolder (hroom : m.HasHolder disk) : m.HasHolder disk' where
  vacant := by
    rw [h.holderPath, h.holderSpot]
    exact hroom.vacant.congr h.current h.absent.2 fun s hs =>
      h.root s ((mem_trail_holder hm hp).1 hs)
  usable := by
    rw [h.holderPath]
    exact hroom.usable

include hkeys

/-- The files are staged as they were. -/
theorem Resumes.exists_staging (st : Staging o) : ∃ st' : Staging o', st'.folder = st.folder ∧
    st'.files = st.files ∧ ∀ k, st'.disk.tree.get? (m.stagingSpot disk ++ k) =
      st.disk.tree.get? (m.stagingSpot disk ++ k) := by
  obtain ⟨made, hmake, halike⟩ := h.exists_made hm hs hp st
  have hpath := (st.staged hm (hs.builtin.confined_of_keysStay hm hkeys)).1
  -- files are written nowhere but in the folder
  have hsteady : Steady (fun k => ¬ m.OnRootPath disk k ∧ ¬ m.stagingSpot disk <+: k)
      disk.current (DeployFiles.generate .never o.deployer o.project.name
        (withDeploy o.project o.spec) o.spec.options st.folder) := by
    refine DeployFiles.steady_generate _ _ _ _ fun file hfile k hk hout => ?_
    rw [hpath] at hk
    rcases (hkeys.isInward o file hfile).consulted hk with hway | hbelow
    · exact hout.1 ((mem_trail_staging hm hp).1 hway)
    · exact hout.2 hbelow
  have hgenerating := st.generating
  rw [hs.generate] at hgenerating
  obtain ⟨hresult, hend⟩ := hsteady halike
  rw [hgenerating] at hresult hend
  obtain ⟨d', hgenerating'⟩ := exists_of_fst hresult
  rw [hgenerating'] at hend
  rw [← hs.generate, ← h.deployer, ← h.project, ← h.spec] at hgenerating'
  exact ⟨⟨st.folder, st.files, made, d', hmake, hgenerating', st.nonempty⟩, rfl, rfl, fun k =>
    hend.same _ fun hout => hout.2 (List.prefix_append _ k)⟩

/-- What is there of the old folder is moved aside. -/
theorem Resumes.exists_retirement (hroom : ∀ folder ∈ o'.old, m.HasHolder disk)
    (st' : Staging o') : Nonempty (Retirement st') := by
  cases hold : o'.old with
  | none => exact ⟨⟨none, st'.disk, .inl ⟨hold, rfl, rfl⟩⟩⟩
  | some folder =>
    have hroom' := h.hasHolder hm hp (hroom folder hold)
    have hheld := hroom'.held hm (h.proper hp)
      (st'.staged hm (hs.builtin.confined_of_keysStay hm (h.keysStay hkeys))).2
    obtain ⟨hfolder, hroot, last, hlast, hidle, hup⟩ := h.old folder hold
    rw [← h.current] at hfolder hroot
    rw [← h.rootSpot] at hroot
    obtain ⟨d, hmove⟩ := hheld.on_rename hm hs (h.proper hp) hroom' (o'.locate_old hm hold) hfolder
      hroot hlast hidle hup
    exact ⟨⟨_, d, .inr ⟨folder, _, _, hold, rfl, hheld.on_makeFolder hs, hmove⟩⟩⟩

end Phases

/-- Means that work as they should leave nothing of the old files. -/
theorem Disposal.leftover_eq_none (hm : m.Lawful) (hs : m.Sound) (hc : m.Confined r disk)
    (hp : disk.toView.Proper) (hu : m.Unforeseen r disk) {st : Staging o} {rt : Retirement st}
    {pr : Promotion rt} {rc : Recording pr} (dp : Disposal rc) : dp.leftover = none := by
  rcases dp.how with ⟨-, hnone, -⟩ | ⟨holder, hretired, ⟨-, hnone⟩ | ⟨e, hremove, -⟩⟩
  · exact hnone
  · exact hnone
  · have hold : o.old ≠ none := by
      intro hnone
      rcases rt.how with ⟨-, hretired', -⟩ | ⟨_, _, _, hold, -⟩
      · cases hretired'.symm.trans hretired
      · cases hnone.symm.trans hold
    obtain ⟨_, _, hmoved⟩ := rt.exists_retired hm hc hold
    have hpath : holder = m.holderPath disk.toView := Retired.holder_eq (hretired ▸ hmoved)
    rw [hs.removeFolder, hpath, rc.on_removeFolder hm hc hp hu hold] at hremove
    cases hremove

section Ends

variable (hm : m.Lawful) (hs : m.Sound) (hp : disk.toView.Proper) (hkeys : KeysStay m r disk)
  (h : Resumes o o' names)
  (hnew : ∀ name ∈ m.stagingName :: m.retiredName :: names, o.IsNew name)
  {st : Staging o} {rt : Retirement st} {pr : Promotion rt} {st' : Staging o'}
  {rt' : Retirement st'} {pr' : Promotion rt'}

omit hm hs hp hkeys h in
include hnew in
theorem unforeseen_of_isNew : m.Unforeseen r disk := by
  intro o'' name hname
  obtain rfl : o'' = o := Subsingleton.elim _ _
  exact (hnew name (by simp at hname ⊢; tauto)).unforeseen

include hm hs hp hkeys h hnew

/-- The staged files can be moved to their place as they could. -/
theorem Resumes.exists_promotion (pr : Promotion rt) (rt' : Retirement st') :
    Nonempty (Promotion rt') := by
  have hu := unforeseen_of_isNew hnew
  have hc := hs.builtin.confined_of_keysStay hm hkeys
  have hc' := hs.builtin.confined_of_keysStay hm (h.keysStay hkeys)
  have hroom := (rt.rename_ok_iff hm hc hp hu).1 (congrArg Prod.fst (pr.renamed hm hc))
  have hroom' := h.hasRoom hm hc hp (fun name hname => hnew name (by simp [hname])) st hroom
  have hok := (rt'.rename_ok_iff hm hc' (h.proper hp) (h.unforeseen hu)).2 hroom'
  obtain ⟨d, hmoving⟩ : ∃ d, (m.rename (rt'.renames + 1) st'.folder o'.plan.newFolder).on rt'.disk =
      (.ok (), d) := by
    rw [hs.rename, (st'.staged hm hc').1]
    exact exists_of_fst hok
  exact ⟨⟨d, hmoving⟩⟩

/-- Then there is the same as with the first switch, its own folders aside. -/
theorem Resumes.alike_promotion
    (hsame : ∀ k, st'.disk.tree.get? (m.stagingSpot disk ++ k) =
      st.disk.tree.get? (m.stagingSpot disk ++ k)) :
    View.Alike (m.Beside disk (m.retiredName :: names)) disk.current pr.disk.toView
      pr'.disk.toView := by
  have hu := unforeseen_of_isNew hnew
  have hc := hs.builtin.confined_of_keysStay hm hkeys
  have hc' := hs.builtin.confined_of_keysStay hm (h.keysStay hkeys)
  have hp' := h.proper hp
  have hu' := h.unforeseen hu
  refine ⟨(pr.promoted_disk hm hc).current.trans (rt.current hm hc),
    ((pr'.promoted_disk hm hc').current.trans (rt'.current hm hc')).trans h.current,
    fun k hk => ?_⟩
  have hnames : ¬ m.Beside disk names k := fun ⟨name, hname, hbelow⟩ =>
    hk ⟨name, by simp [hname], hbelow⟩
  have hholder : ¬ m.holderSpot disk <+: k := by
    rw [holderSpot_eq hm hp]
    exact fun hbelow => hk ⟨_, by simp, hbelow⟩
  by_cases hinside : o.newSpot <+: k
  · obtain ⟨j, hj⟩ := hinside
    have hget := pr'.get?_new hm hc' hp' hu' j
    rw [h.newSpot, h.stagingSpot, hj, hsame, ← pr.get?_new hm hc hp hu, hj] at hget
    exact hget
  by_cases hstaging : m.stagingSpot disk <+: k
  · obtain ⟨j, hj⟩ := hstaging
    have hget := pr'.get?_staging hm hc' hp' hu' j
    rw [h.stagingSpot, ← pr.get?_staging hm hc hp hu j, hj] at hget
    exact hget
  have hleft := rt.get?_left hm hc hstaging fun _ => hholder
  have haway := pr.get?_away hm hc hp hu hinside hstaging
  rw [← h.newSpot] at hinside
  rw [← h.stagingSpot] at hstaging
  rw [← h.holderSpot] at hholder
  have hleft' := rt'.get?_left hm hc' hstaging fun _ => hholder
  have haway' := pr'.get?_away hm hc' hp' hu' hinside hstaging
  rcases haway with ⟨hway, hget⟩ | ⟨hway, hget⟩ <;>
    rcases haway' with ⟨hway', hget'⟩ | ⟨hway', hget'⟩
  · rw [hget, hget']
  · exact absurd (h.onWay.2 hway) hway'
  · exact absurd (h.onWay.1 hway') hway
  · rw [hget, hget', hleft, hleft']
    exact (h.left k hnames).resolve_right fun hgrown => hway hgrown.1

/-- The workspace is saved as it was, and nothing is left of what was moved aside. -/
theorem Resumes.exists_disposal (hroom : ∀ folder ∈ o'.old, m.HasHolder disk)
    {rc : Recording pr} (dp : Disposal rc) :
    ∃ (st' : Staging o') (rt' : Retirement st') (pr' : Promotion rt') (rc' : Recording pr')
      (dp' : Disposal rc'), st'.folder = st.folder ∧ st'.files = st.files ∧
        rc'.workspace = rc.workspace ∧
        View.Alike (m.Beside disk names) disk.current dp.disk.toView dp'.disk.toView := by
  have hu := unforeseen_of_isNew hnew
  have hc := hs.builtin.confined_of_keysStay hm hkeys
  have hc' := hs.builtin.confined_of_keysStay hm (h.keysStay hkeys)
  have hp' := h.proper hp
  have hu' := h.unforeseen hu
  obtain ⟨st', hfolder, hfiles, hsame⟩ := h.exists_staging hm hs hp hkeys st
  obtain ⟨rt'⟩ := h.exists_retirement hm hs hp hkeys hroom st'
  obtain ⟨pr'⟩ := h.exists_promotion hm hs hp hkeys hnew pr rt'
  have hpromoted : View.Alike _ _ pr.disk.toView pr'.disk.toView :=
    h.alike_promotion hm hs hp hkeys hnew hsame
  -- the document is not where the folders of the two switches are
  obtain ⟨hresult, hsaved⟩ := Document.steady_save rc.workspace (fun k hk =>
    not_beside_document (fun name hname => hnew name (List.mem_cons_of_mem _ hname)) hp hm hc
      hs.loadsDocument st hk) hpromoted
  have hsaving := rc.saving
  rw [hs.save] at hsaving
  rw [hsaving] at hresult hsaved
  obtain ⟨d', hsaving'⟩ := exists_of_fst hresult
  rw [hsaving'] at hsaved
  have hswitched := rc.switched
  rw [← h.workspace, ← h.project, ← h.deployer, ← h.spec] at hswitched
  rw [← hs.save] at hsaving'
  obtain ⟨dp', -⟩ := dispose_eq (⟨rc.workspace, d', hswitched, hsaving'⟩ : Recording pr')
  refine ⟨st', rt', pr', _, dp', hfolder, hfiles, rfl,
    (dp.through hm hc).current.trans (rc.current hm hc),
    ((dp'.through hm hc').current.trans (Recording.current hm hc' _)).trans h.current,
    fun k hk => ?_⟩
  by_cases hholder : m.holderSpot disk <+: k
  · have habsent := (hnew m.retiredName (by simp)).absent
    rw [← holderSpot_eq hm hp] at habsent
    have hnone := dp.get?_holder_of_none hm hc hp hu habsent
      (dp.leftover_eq_none hm hs hc hp hu)
    have hnone' := dp'.get?_holder_of_none hm hc' hp' hu' h.absent_holder
      (dp'.leftover_eq_none hm hs hc' hp' hu')
    rw [h.holderSpot] at hnone'
    rw [Tree.get?_under hnone hholder, Tree.get?_under hnone' hholder]
  · rw [dp.get?_other hm hc fun _ => hholder]
    rw [← h.holderSpot] at hholder
    rw [dp'.get?_other hm hc' fun _ => hholder]
    refine hsaved.same k ?_
    rintro ⟨name, hname, hbelow⟩
    rcases List.mem_cons.1 hname with rfl | hname
    · rw [h.holderSpot, holderSpot_eq hm hp] at hholder
      exact hholder hbelow
    · exact hk ⟨name, hname, hbelow⟩

/-- A switch that takes up another one ends as that one would have, its own folders aside. -/
theorem Resumes.run_eq (hroom : ∀ folder ∈ o'.old, m.HasHolder disk) (hallowed : o'.Allowed)
    {report : Report} (href : (run m r disk).1 = .ok (.switched report)) :
    (run m r disk').1 = .ok (.switched { report with removed := o'.old }) ∧
      View.Alike (m.Beside disk names) disk.current (run m r disk).2.disk.toView
        (run m r disk').2.disk.toView := by
  obtain ⟨o₁, st, rt, pr, rc, dp, workflows, hregenerate, rfl⟩ := Switch.exists_disposal href
  obtain rfl : o₁ = o := Subsingleton.elim _ _
  generalize (run m r disk).2.disk = e at hregenerate ⊢
  have hu := unforeseen_of_isNew hnew
  have hc := hs.builtin.confined_of_keysStay hm hkeys
  have hc' := hs.builtin.confined_of_keysStay hm (h.keysStay hkeys)
  obtain ⟨st', rt', pr', rc', dp', hfolder, hfiles, hworkspace, halike⟩ :=
    h.exists_disposal hm hs hp hkeys hnew hroom dp
  obtain ⟨hresult, hend⟩ := Workflow.steady_regenerate rc.workspace (fun k hk =>
    not_beside_workflow (fun name hname => hnew name (by simp [hname])) hp hm hc st hk) halike
  rw [hs.regenerate] at hregenerate
  rw [hregenerate] at hresult hend
  obtain ⟨d', hregenerate'⟩ := exists_of_fst hresult
  rw [hregenerate'] at hend
  rw [← hs.regenerate, ← hworkspace] at hregenerate'
  obtain ⟨hrun, hdisk⟩ := run_of_disposal hallowed dp' hregenerate'
  rw [hrun, hdisk]
  refine ⟨?_, hend⟩
  have hleftover := dp.leftover_eq_none hm hs hc hp hu
  have hleftover' := dp'.leftover_eq_none hm hs hc' (h.proper hp) (h.unforeseen hu)
  simp only [Disposal.report, Promotion.written, h.project, h.plan, h.deployer, hfolder, hfiles,
    hleftover, hleftover']

end Ends

end Rollout.Switch

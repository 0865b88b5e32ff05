import Mathlib.Tactic.Common
import Rollout.Proofs.Switch.Resume

/-!
# Where a switch has halted

A switch that fails once the old folder is moved aside leaves a disk of one kind, whether the new
files have reached their place or not (`Halted`). Where a switch can be done once more
(`Opening.Retriable`), it is refused from there if the new folder is taken (`Halted.refused`), and
takes up what was left if it is not (`Halted.recovered`).
-/

namespace Rollout.Switch

open Disk DiskTask Location

variable {m : Means} {r : Request} {disk d : Disk} {o : Opening m r disk} {names : List String}

theorem Opening.OnWay.within {k : Location} (h : o.OnWay k) :
    Within disk.current o.plan.newFolder k := by
  have hlead {n : String} (hn : n ∈ o.plan.newFolder.lead) : n ∈ o.plan.newFolder.segments := by
    rw [Path.lead, List.mem_reverse] at hn
    have hending := (List.dropWhile_sublist _).subset (List.mem_of_mem_tail hn)
    exact List.mem_reverse.1 hending
  have horigin {n : String} (hn : n ∈ o.plan.newFolder.origin disk.current) : n ∈ disk.current := by
    unfold Path.origin at hn
    split_ifs at hn
    · cases hn
    · exact hn
  intro n hn
  have hmem : n ∈ o.plan.newFolder.origin disk.current ∨ n ∈ o.plan.newFolder.lead := by
    rcases h with h | h
    · exact trail_subset _ _ _ h n hn
    · exact walk_subset _ _ n (h ▸ hn)
  rcases hmem with hmem | hmem
  · exact .inl (horigin hmem)
  · exact .inr (.inl (hlead hmem))

/-- What is where the new files go is an empty folder, once the old one is gone. -/
theorem Opening.HasRoom.get?_newSpot (h : o.HasRoom)
    (hthere : o.cleared.tree.get? o.newSpot ≠ none) :
    o.cleared.tree.get? o.newSpot = some .folder := by
  obtain ⟨last, hlast, hidle, hup⟩ := h.room.named
  have hclear := h.room.clear o.newSpot ((visits_iff hlast hidle hup).2 (.inr rfl))
  exact Tree.get?_of_isFolder ((Tree.passable_iff.1 hclear).resolve_left hthere)

/-- What is, or comes to be, at the end of a path can be moved aside. -/
structure Means.Retires (m : Means) (disk : Disk) (folder : Path) : Prop where
  usable : View.isUnusable folder = false
  named : ∃ last, folder.last? = some last ∧ Path.isIdle last = false ∧ last ≠ ".."
  holder : m.HasHolder disk

/-- A switch can be done once more where another one, with these names for its own folders, has
failed. -/
structure Opening.Retriable (o : Opening m r disk) (names : List String) : Prop where
  fresh : ∀ name ∈ m.stagingName :: m.retiredName :: names, o.IsNew name
  others : m.stagingName ∉ names ∧ m.retiredName ∉ names
  foreign : ∀ folder ∈ o.plan.oldFolder, ∀ name ∈ names, name ∉ folder.segments
  /-- The old folder is not on the way to the document. -/
  apart : ∀ folder ∈ o.plan.oldFolder, ∀ s,
    m.OnRootPath disk s ∨ Visits disk.current m.document s → ¬ folder.spot disk.current <+: s
  /-- Where the old path leads nowhere, nothing is at its end. -/
  absent : o.old = none → ∀ folder ∈ o.plan.oldFolder,
    disk.tree.get? (folder.spot disk.current) = none ∧ m.Retires disk folder

/-- A switch can be done once more, and can move aside what is at the old path by then. -/
structure Opening.Ready (o : Opening m r disk) (names : List String) : Prop
    extends o.Retriable names where
  retires : ∀ folder ∈ o.plan.oldFolder, m.Retires disk folder

/-- A switch that has moved the old folder aside can do it again. -/
theorem Retirement.retires (hm : m.Lawful) (hc : m.Confined r disk) (hp : disk.toView.Proper)
    (hnew : o.IsNew m.retiredName) {st : Staging o} (rt : Retirement st) {folder : Path}
    (hold : o.old = some folder) : m.Retires disk folder := by
  obtain ⟨hpath, hstaged⟩ := st.staged hm hc
  rcases rt.how with ⟨hnone, -⟩ | ⟨old, holder, made, hsome, -, hmake, hmove⟩
  · cases hnone.symm.trans hold
  obtain rfl : old = folder := Option.some.inj (hsome.symm.trans hold)
  obtain ⟨rfl, hheld, -⟩ := held_of_makeFolder hm hstaged hmake
  have hmoved : (Disk.rename old ((m.holderPath disk.toView).child previousName)).on made =
      (.ok (), rt.disk) := by
    rcases hm.rename 1 old ((m.holderPath disk.toView).child previousName) made with
      heq | ⟨e, d', heq, -⟩
    · exact heq.symm.trans hmove
    · cases heq.symm.trans hmove
  obtain ⟨between, ⟨pa, a, hpa, ha⟩, pb, b, hpb, hb⟩ := places_of_rename hmoved
  obtain ⟨hnamed, -, husable, -⟩ := View.lead_of_place hpa ha
  obtain ⟨-, -, hkept, -⟩ := View.lead_of_place hpb hb
  refine ⟨husable, hnamed, ?_, hkept⟩
  have habsent := hnew.absent
  rw [← holderSpot_eq hm hp] at habsent
  exact hheld.vacant.congr hstaged.current.symm habsent fun s hs => by
    rw [hstaged.current] at hs
    exact hstaged.vacant.trail s ((mem_trail_staging hm hp).2 ((mem_trail_holder hm hp).1 hs))

theorem Opening.Retriable.ready (h : o.Retriable names) (hm : m.Lawful) (hc : m.Confined r disk)
    (hp : disk.toView.Proper) {st : Staging o} (rt : Retirement st) : o.Ready names where
  toRetriable := h
  retires folder hfolder := by
    cases hold : o.old with
    | none => exact (h.absent hold folder hfolder).2
    | some old =>
      obtain rfl : folder = old := Option.some.inj (hfolder.symm.trans (Opening.mem_old hold))
      exact rt.retires hm hc hp (h.fresh _ (by simp)) hold

namespace Opening.Ready

variable (h : o.Ready names)
include h

theorem spot_ne_nil {folder : Path} (hfolder : folder ∈ o.plan.oldFolder) :
    folder.spot disk.current ≠ [] := by
  intro hnil
  refine h.apart folder hfolder (m.rootSpot disk) (.inl (.inr rfl)) ?_
  exact hnil ▸ List.nil_prefix

/-- Where the old folder was there is nothing once it is gone, -/
theorem get?_cleared_old {folder : Path} (hfolder : folder ∈ o.plan.oldFolder) :
    o.cleared.tree.get? (folder.spot disk.current) = none := by
  cases hold : o.old with
  | none =>
    rw [cleared_of_none hold]
    exact (h.absent hold folder hfolder).1
  | some old =>
    obtain rfl : folder = old := Option.some.inj (hfolder.symm.trans (Opening.mem_old hold))
    rw [get?_cleared hold (h.spot_ne_nil hfolder), if_pos List.prefix_rfl]

/-- and elsewhere there is what was there. -/
theorem get?_cleared_other {k : Location}
    (hk : ∀ folder ∈ o.plan.oldFolder, ¬ folder.spot disk.current <+: k) :
    o.cleared.tree.get? k = disk.tree.get? k := by
  cases hold : o.old with
  | none => rw [cleared_of_none hold]
  | some old =>
    have hmem := Opening.mem_old hold
    rw [get?_cleared hold (h.spot_ne_nil hmem), if_neg (hk old hmem)]

theorem get?_cleared_of_none {k : Location} (hk : disk.tree.get? k = none) :
    o.cleared.tree.get? k = none := by
  by_contra hne
  obtain ⟨e, he⟩ := Option.ne_none_iff_exists'.1 hne
  have hextends := o.extends_cleared (fun _ hold => h.spot_ne_nil (Opening.mem_old hold)) k e he
  rw [hk] at hextends
  cases hextends

theorem not_beside_old {folder : Path} (hfolder : folder ∈ o.plan.oldFolder) :
    ¬ m.Beside disk names (folder.spot disk.current) := by
  rintro ⟨name, hname, hbelow⟩
  have hmem : name ∈ folder.spot disk.current := hbelow.subset (by simp)
  have hnew := h.fresh name (by simp [hname])
  rcases walk_subset _ _ name hmem with horigin | hsegment
  · unfold Path.origin at horigin
    split_ifs at horigin
    · cases horigin
    · exact hnew.unforeseen.1 horigin
  · exact h.foreign folder hfolder name hname hsegment

end Opening.Ready

/-- A switch has halted with the old folder gone: there may be folders on the way to the new one,
its own folders, and, if they are placed, the new files. -/
structure Halted (o : Opening m r disk) (names : List String) (placed : Prop) (d : Disk) :
    Prop where
  current : d.current = disk.current
  away : ∀ k, ¬ m.Beside disk names k → ¬ (placed ∧ o.newSpot <+: k) →
    d.tree.get? k = o.cleared.tree.get? k ∨
      o.OnWay k ∧ o.cleared.tree.get? k = none ∧ d.tree.get? k = some .folder
  located : placed → d.locate o.plan.newFolder = .ok o.newSpot ∧ d.tree.isFolder o.newSpot

namespace Halted

variable {placed : Prop} (h : Halted o names placed d) (hr : o.Ready names)
include h hr

/-- What was there is there, the old folder aside. -/
theorem get?_there (hroom : o.HasRoom) {k : Location} (hthere : disk.tree.get? k ≠ none)
    (hk : ∀ folder ∈ o.plan.oldFolder, ¬ folder.spot disk.current <+: k) :
    d.tree.get? k = disk.tree.get? k := by
  have hcleared := hr.get?_cleared_other hk
  rw [← hcleared] at hthere ⊢
  by_cases hplaced : placed ∧ o.newSpot <+: k
  · -- nothing but an empty folder is where the new files go
    obtain ⟨hplaced, j, rfl⟩ := hplaced
    obtain rfl := hroom.room.free j hthere
    rw [List.append_nil] at hthere ⊢
    rw [Tree.get?_of_isFolder (h.located hplaced).2, hroom.get?_newSpot hthere]
  · rw [hcleared] at hthere
    have hbeside := not_beside_of_there (fun name hname =>
      hr.fresh name (List.mem_cons_of_mem _ (List.mem_cons_of_mem _ hname))) hthere
    rcases h.away k hbeside hplaced with heq | ⟨-, hnone, -⟩
    · exact heq
    · rw [hcleared] at hnone
      exact absurd hnone hthere

end Halted

section Retry

variable {placed : Prop} (h : Halted o names placed d) (hr : o.Ready names)
  (hroom : o.HasRoom) (hm : m.Lawful) (hs : m.Sound) (hp : disk.toView.Proper)
  (hkeys : KeysStay m r disk)
include h hr hroom hm hs

/-- The document is loaded as it was. -/
theorem Halted.load : m.load.on d = (.ok o.workspace, d) := by
  obtain ⟨content, hlocate, hfile⟩ := View.isFile_eq_true.1 (o.read_document hs.load).1
  obtain ⟨htrail, hend⟩ := View.locate_eq_ok hlocate
  have hloading := o.loading
  rw [hs.load] at hloading ⊢
  have halike : View.Alike (fun k => ¬ Visits disk.current m.document k) disk.current disk.toView
      d.toView := by
    refine ⟨rfl, h.current, fun k hk => ?_⟩
    replace hk : Visits disk.current m.document k := not_not.1 hk
    refine h.get?_there hr hroom ?_ fun folder hfolder => hr.apart folder hfolder k (.inr hk)
    rcases hk with hk | hk
    · rw [Tree.get?_of_isFolder (htrail k hk)]
      simp
    · rw [hk]
      exact hend
  obtain ⟨hresult, -⟩ := Document.steady_load (fun k hk hout => hout hk) halike
  rw [hloading] at hresult
  obtain ⟨d', hload⟩ := exists_of_fst hresult
  have hsame := hm.load d
  rw [hs.load, hload] at hsame
  rw [hload]
  exact congrArg _ hsame

omit hs in
include hp in
/-- The way to the workspace is there. -/
theorem Halted.root (hc : m.Confined r disk) (st : Staging o) {s : Location}
    (hs : m.OnRootPath disk s) : d.tree.isFolder s := by
  have hfolder := (st.staged hm hc).2.vacant.trail s ((mem_trail_staging hm hp).2 hs)
  have hthere := h.get?_there hr hroom (k := s) (by rw [Tree.get?_of_isFolder hfolder]; simp)
    fun folder hmem => hr.apart folder hmem s (.inl hs)
  rw [Tree.isFolder, hthere]
  exact hfolder

omit hroom hm hs in
/-- Nothing has a name that is new. -/
theorem Halted.get?_name (hout : ¬ o.newSpot <+: m.rootSpot disk) {name : String}
    (hnew : o.IsNew name) (hother : name ∉ names) :
    d.tree.get? (m.rootSpot disk ++ [name]) = none := by
  have hplaced : ¬ (placed ∧ o.newSpot <+: m.rootSpot disk ++ [name]) := by
    rw [List.prefix_concat_iff]
    rintro ⟨-, heq | hroot⟩
    · exact hnew.not_within (heq ▸ within_newSpot o)
    · exact hout hroot
  rcases h.away _ (not_beside_name hother) hplaced with heq | ⟨hway, -, -⟩
  · rw [heq]
    exact hr.get?_cleared_of_none hnew.absent
  · exact absurd hway.within hnew.not_within

omit hroom hm hs in
/-- With the old folder gone there is what the next switch will leave too. -/
theorem Halted.left {o' : Opening m r d} (hworkspace : o'.workspace = o.workspace)
    (hplaced : placed → ∃ folder, o'.old = some folder ∧ folder.spot disk.current = o.newSpot)
    {k : Location} (hk : ¬ m.Beside disk names k) :
    o'.cleared.tree.get? k = o.cleared.tree.get? k ∨
      o.OnWay k ∧ o.cleared.tree.get? k = none ∧ o'.cleared.tree.get? k = some .folder := by
  cases hold : o'.old with
  | none =>
    rw [Opening.cleared_of_none hold]
    refine h.away k hk fun hin => ?_
    obtain ⟨folder, hsome, -⟩ := hplaced hin.1
    cases hold.symm.trans hsome
  | some folder =>
    have hmem : folder ∈ o.plan.oldFolder := by
      rw [← Opening.plan_eq hworkspace]
      exact Opening.mem_old hold
    have hne := hr.spot_ne_nil hmem
    rw [← h.current] at hne
    rw [Opening.get?_cleared hold hne, h.current]
    split_ifs with hbelow
    · exact .inl (Tree.get?_under (hr.get?_cleared_old hmem) hbelow).symm
    · refine h.away k hk fun hin => hbelow ?_
      obtain ⟨old, hsome, hspot⟩ := hplaced hin.1
      obtain rfl : old = folder := Option.some.inj (hsome.symm.trans hold)
      rw [hspot]
      exact hin.2

omit hroom hs in
/-- What is there of the old folder is a folder. -/
theorem Halted.isFolder_old {o' : Opening m r d} (hworkspace : o'.workspace = o.workspace)
    (hplaced : placed → ∃ folder, o'.old = some folder ∧ folder.spot disk.current = o.newSpot)
    {folder : Path} (hold : o'.old = some folder) :
    d.tree.isFolder (folder.spot disk.current) := by
  have hmem : folder ∈ o.plan.oldFolder := by
    rw [← Opening.plan_eq hworkspace]
    exact Opening.mem_old hold
  by_cases hin : placed
  · obtain ⟨old, hsome, hspot⟩ := hplaced hin
    obtain rfl : old = folder := Option.some.inj (hsome.symm.trans hold)
    rw [hspot]
    exact (h.located hin).2
  · have hthere := o'.get?_old hm hold
    rw [h.current] at hthere
    rcases h.away _ (hr.not_beside_old hmem) fun hp => hin hp.1 with heq | ⟨-, -, hfolder⟩
    · rw [heq, hr.get?_cleared_old hmem] at hthere
      exact absurd rfl hthere
    · exact decide_eq_true hfolder

omit hs in
include hp in
theorem Halted.resumes (hc : m.Confined r disk) (st : Staging o) {o' : Opening m r d}
    (hworkspace : o'.workspace = o.workspace)
    (hplaced : placed → ∃ folder, o'.old = some folder ∧ folder.spot disk.current = o.newSpot) :
    Resumes o o' names where
  current := h.current
  workspace := hworkspace
  left _ hk := h.left hr hworkspace hplaced hk
  root _ hs := h.root hr hroom hm hp hc st hs
  absent := by
    rw [stagingSpot_eq hm hp, holderSpot_eq hm hp]
    exact ⟨h.get?_name hr hroom.outside (hr.fresh _ (by simp)) hr.others.1,
      h.get?_name hr hroom.outside (hr.fresh _ (by simp)) hr.others.2⟩
  old folder hold := by
    have hmem : folder ∈ o.plan.oldFolder := by
      rw [← Opening.plan_eq hworkspace]
      exact Opening.mem_old hold
    exact ⟨h.isFolder_old hr hm hworkspace hplaced hold,
      hr.apart folder hmem _ (.inl (.inr rfl)), (hr.retires folder hmem).named⟩

/-- With a folder in the way of the new one the next switch does nothing. -/
theorem Halted.refused (hblocked : o.plan.isBlocked d.toView) :
    (run m r d).1 = .error (.phase .detectOld (takenMessage o.plan)) ∧
      (run m r d).2.disk = d :=
  run_blocked o.read (h.load hr hroom hm hs) o.found o.inactive hblocked

omit h hr hroom hm hs in
/-- The new folder is there once the new files are. -/
theorem Halted.exists?_newFolder (h : Halted o names placed d) (hin : placed) :
    d.exists? o.plan.newFolder := by
  rw [View.exists?, (h.located hin).1]
  rfl

omit hroom hm hs in
/-- Where the new files are, the next switch finds what it takes for the old ones. -/
theorem Halted.exists_old (hin : placed) (hfree : o.plan.isBlocked d.toView = false) :
    ∃ folder, o.plan.oldFolder = some folder ∧ folder.same o.plan.newFolder ∧
      d.exists? folder := by
  have hexists := h.exists?_newFolder hin
  have hany : o.plan.oldFolder.any (·.same o.plan.newFolder) := by
    simpa [Plan.isBlocked, hexists] using hfree
  obtain ⟨folder, hfolder, hsame⟩ := (Option.any_eq_true _ _).1 hany
  have hf := (h.located hin).2
  refine ⟨folder, hfolder, hsame,
    View.exists?_of_same hsame (hr.retires folder hfolder).usable hexists ?_⟩
  rw [h.current]
  exact hf

end Retry

/-- A switch from this disk ends as one from the disk before would have, with its report and but
for what is there under some names. -/
structure Recovered (o : Opening m r disk) (names : List String) (report : Report) (d : Disk) :
    Prop where
  outcome : ∃ removed, (run m r d).1 = .ok (.switched { report with removed })
  document : (run m r d).2.disk.tree.get? (m.documentSpot disk) =
    (run m r disk).2.disk.tree.get? (m.documentSpot disk)
  files : ∀ k, (run m r d).2.disk.tree.get? (o.newSpot ++ k) =
    (run m r disk).2.disk.tree.get? (o.newSpot ++ k)
  workflow : (run m r d).2.disk.tree.get? (m.workflowSpot disk) =
    (run m r disk).2.disk.tree.get? (m.workflowSpot disk)
  others : ∀ k, ¬ m.Beside disk names k →
    (run m r d).2.disk.tree.get? k = (run m r disk).2.disk.tree.get? k

/-- Where a switch has halted another one ends as it would have. -/
theorem Halted.recovered {placed : Prop} (h : Halted o names placed d) (hr : o.Ready names)
    (hm : m.Lawful) (hs : m.Sound) (hp : disk.toView.Proper) (hkeys : KeysStay m r disk)
    (hfree : o.plan.isBlocked d.toView = false)
    (hallowed : r.force ∨ ∀ name folder, m.approves name folder) {report : Report}
    (href : (run m r disk).1 = .ok (.switched report)) :
    Recovered o names report d := by
  obtain ⟨o₁, st, rt, pr, -⟩ := exists_disposal href
  obtain rfl : o₁ = o := Subsingleton.elim _ _
  have hc := hs.builtin.confined_of_keysStay hm hkeys
  have hroom := (rt.rename_ok_iff hm hc hp (unforeseen_of_isNew hr.fresh)).1
    (congrArg Prod.fst (pr.renamed hm hc))
  -- the next switch opens as the first one
  obtain ⟨o', hworkspace⟩ : ∃ o' : Opening m r d, o'.workspace = o₁.workspace :=
    ⟨⟨o₁.deployer, o₁.workspace, o₁.project, d, o₁.read, h.load hr hroom hm hs, o₁.found,
      o₁.inactive, hfree⟩, rfl⟩
  have hplaced (hin : placed) :
      ∃ folder, o'.old = some folder ∧ folder.spot disk.current = o₁.newSpot := by
    obtain ⟨folder, hfolder, hsame, hexists⟩ := h.exists_old hr hin hfree
    refine ⟨folder, o'.old_eq_some.2 ?_, Path.spot_of_same hsame⟩
    rw [Opening.plan_eq hworkspace, o'.base_eq hm]
    exact ⟨hfolder, hexists⟩
  have hresumes := h.resumes hr hroom hm hp hc st hworkspace hplaced
  have hroom' : ∀ folder ∈ o'.old, m.HasHolder disk := fun folder hold =>
    (hr.retires folder (Opening.plan_eq hworkspace ▸ Opening.mem_old hold)).holder
  obtain ⟨hresult, hend⟩ := hresumes.run_eq hm hs hp hkeys hr.fresh hroom'
    (fun folder _ => hallowed.imp id fun h => h _ folder) href
  -- the names are of nothing that the switch is about
  have hnew : ∀ name ∈ names, o₁.IsNew name := fun name hname => hr.fresh name (by simp [hname])
  exact ⟨⟨_, hresult⟩,
    hend.same _ (not_beside_document hnew hp hm hc hs.loadsDocument st (.inr (.inl (.inr rfl)))),
    fun k => hend.same _ (not_beside_new hnew hroom.outside k),
    hend.same _ (not_beside_workflow hnew hp hm hc st (.inr (.inl (.inr rfl)))),
    fun k hk => hend.same k hk⟩

end Rollout.Switch

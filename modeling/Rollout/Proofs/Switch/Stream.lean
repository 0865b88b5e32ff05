import Mathlib.Data.List.Pairwise
import Rollout.Proofs.Switch.EarlyEnd

/-!
# What the events of a switch tell

A stream of events opens phases by starting or skipping them, and tells which folder was removed
and which files were written. While a switch is under way its stream opens the phases in order
and ends nowhere (`Underway`); each event keeps this, and so does each phase. So the whole stream
tells how the switch ended, what was moved and what was written (`stream_tells`).
-/

namespace Rollout.Switch

/-- The phases in order. -/
def Phase.all : List Phase :=
  [.detectOld, .confirmDeletion, .stage, .removeOld, .promote, .updateConfig, .updateWorkflows]

example : Phase.all.map Phase.index = List.range 7 := by decide

namespace Event

/-- The phase that an event opens, by starting or by skipping it. -/
def opens? : Event → Option Phase
  | phaseStarted phase => some phase
  | phaseSkipped phase _ => some phase
  | _ => none

def starts? : Event → Option Phase
  | phaseStarted phase => some phase
  | _ => none

def removes? : Event → Option Path
  | folderRemoved folder => some folder
  | _ => none

def writes? : Event → Option Path
  | fileWritten file => some file
  | _ => none

/-- The event ends a stream. -/
def isEnd : Event → Bool
  | phaseFailed .. => true
  | completed .. => true
  | _ => false

/-- Two events may follow one another: no folder is removed once a file is written. -/
def MayPrecede (e later : Event) : Prop := e.writes?.isSome → later.removes? = none

theorem removes?_eq_some {e : Event} {folder : Path} :
    e.removes? = some folder ↔ e = .folderRemoved folder := by
  cases e <;> simp [removes?]

end Event

open Event

/-- The events of a switch that is under way: the phases that they open, the one that was
started last, the folders removed and the files written so far. -/
structure Underway (events : List Event) (opened : List Phase) (current : Phase)
    (removed written : List Path) : Prop where
  opened_eq : events.filterMap opens? = opened
  current_eq : (events.filterMap starts?).getLast? = some current
  removed_eq : events.filterMap removes? = removed
  written_eq : events.filterMap writes? = written
  ordered : events.Pairwise MayPrecede
  unended : ∀ e ∈ events, e.isEnd = false

namespace Underway

variable {events : List Event} {opened : List Phase} {current : Phase}
  {removed written : List Path}

theorem first : Underway [.phaseStarted .detectOld] [.detectOld] .detectOld [] [] :=
  ⟨rfl, rfl, rfl, rfl, List.pairwise_singleton _ _, by simp [isEnd]⟩

/-- Events that remove nothing and end nothing may follow any others. -/
theorem append (h : Underway events opened current removed written) (es : List Event)
    (hremoves : ∀ e ∈ es, e.removes? = none) (hends : ∀ e ∈ es, e.isEnd = false) :
    Underway (events ++ es) (opened ++ es.filterMap opens?)
      ((es.filterMap starts?).getLast?.getD current) removed (written ++ es.filterMap writes?) where
  opened_eq := by rw [List.filterMap_append, h.opened_eq]
  current_eq := by
    rw [List.filterMap_append, List.getLast?_append, h.current_eq]
    cases (es.filterMap starts?).getLast? <;> rfl
  removed_eq := by
    rw [List.filterMap_append, h.removed_eq, List.filterMap_eq_nil_iff.2 hremoves, List.append_nil]
  written_eq := by rw [List.filterMap_append, h.written_eq]
  ordered := by
    have hany : es.Pairwise MayPrecede := List.pairwise_iff_forall_sublist.2 fun hsub _ =>
      hremoves _ (hsub.subset (List.mem_cons_of_mem _ List.mem_cons_self))
    exact List.pairwise_append.2 ⟨h.ordered, hany, fun _ _ e he _ => hremoves e he⟩
  unended := fun e he => (List.mem_append.1 he).elim (h.unended e) (hends e)

theorem start (h : Underway events opened current removed written) (phase : Phase) :
    Underway (events ++ [.phaseStarted phase]) (opened ++ [phase]) phase removed written := by
  simpa [List.filterMap_cons, opens?, starts?, writes?] using
    h.append [.phaseStarted phase] (by simp [removes?]) (by simp [isEnd])

theorem skip (h : Underway events opened current removed written) (phase : Phase)
    (reason : String) :
    Underway (events ++ [.phaseSkipped phase reason]) (opened ++ [phase]) current removed
      written := by
  simpa [List.filterMap_cons, opens?, starts?, writes?] using
    h.append [.phaseSkipped phase reason] (by simp [removes?]) (by simp [isEnd])

theorem announce (h : Underway events opened current removed written) (project : String)
    (origin : Option String) (target : String) :
    Underway (events ++ [.started project origin target]) opened current removed written := by
  simpa [List.filterMap_cons, opens?, starts?, writes?] using
    h.append [.started project origin target] (by simp [removes?]) (by simp [isEnd])

theorem write (h : Underway events opened current removed written) (files : List Path) :
    Underway (events ++ files.map .fileWritten) opened current removed (written ++ files) := by
  have hopens : (files.map .fileWritten).filterMap opens? = [] :=
    List.filterMap_eq_nil_iff.2 (by simp [opens?])
  have hstarts : (files.map .fileWritten).filterMap starts? = [] :=
    List.filterMap_eq_nil_iff.2 (by simp [starts?])
  have hwrites : (files.map .fileWritten).filterMap writes? = files := by
    simp [List.filterMap_map, Function.comp_def, writes?]
  have happend := h.append (files.map .fileWritten) (by simp [removes?]) (by simp [isEnd])
  rwa [hopens, hstarts, hwrites, List.append_nil] at happend

/-- A folder may be removed as long as no file is written. -/
theorem remove (h : Underway events opened current removed []) (folder : Path) :
    Underway (events ++ [.folderRemoved folder]) opened current (removed ++ [folder]) [] where
  opened_eq := by simp [h.opened_eq, opens?]
  current_eq := by simp [h.current_eq, starts?]
  removed_eq := by simp [h.removed_eq, removes?]
  written_eq := by simp [h.written_eq, writes?]
  ordered := by
    have hnone : ∀ e ∈ events, e.writes? = none := List.filterMap_eq_nil_iff.1 h.written_eq
    refine List.pairwise_append.2 ⟨h.ordered, List.pairwise_singleton _ _, ?_⟩
    intro e he _ _ hwrites
    simp [hnone e he] at hwrites
  unended := by simpa [or_imp, forall_and, isEnd] using h.unended

end Underway

/-! ### The stream of each phase -/

section

variable {m : Means} {r : Request} {disk : Disk} {o : Opening m r disk} {st : Staging o}
  {rt : Retirement st} {pr : Promotion rt} {rc : Recording pr}

theorem Opening.underway_opened (o : Opening m r disk) :
    Underway o.opened.events [.detectOld] .detectOld [] [] :=
  Underway.first.announce o.project.name o.plan.origin o.deployer.id

theorem Opening.underway (o : Opening m r disk) :
    ∃ current, Underway o.progress.events [.detectOld, .confirmDeletion] current [] [] := by
  unfold Opening.progress
  cases o.old with
  | none => exact ⟨_, o.underway_opened.skip .confirmDeletion _⟩
  | some folder => exact ⟨_, o.underway_opened.start .confirmDeletion⟩

theorem Opening.underway_staging (o : Opening m r disk) :
    Underway (o.progress.events ++ [.phaseStarted .stage])
      [.detectOld, .confirmDeletion, .stage] .stage [] [] := by
  obtain ⟨current, h⟩ := o.underway
  exact h.start .stage

theorem Staging.underway (st : Staging o) :
    Underway st.progress.events [.detectOld, .confirmDeletion, .stage] .stage [] [] :=
  o.underway_staging

theorem Staging.underway_removing (st : Staging o) :
    Underway (st.progress.events ++ [.phaseStarted .removeOld])
      [.detectOld, .confirmDeletion, .stage, .removeOld] .removeOld [] [] :=
  st.underway.start .removeOld

theorem Retirement.underway (rt : Retirement st) :
    ∃ current, Underway rt.progress.events [.detectOld, .confirmDeletion, .stage, .removeOld]
      current o.old.toList [] := by
  unfold Retirement.progress
  cases o.old with
  | none => exact ⟨_, st.underway.skip .removeOld _⟩
  | some folder =>
    have h := st.underway_removing.remove folder
    rw [List.append_assoc] at h
    exact ⟨_, h⟩

theorem Retirement.underway_promoting (rt : Retirement st) :
    Underway rt.promoting.events [.detectOld, .confirmDeletion, .stage, .removeOld, .promote]
      .promote o.old.toList [] := by
  obtain ⟨current, h⟩ := rt.underway
  exact h.start .promote

theorem Promotion.underway (pr : Promotion rt) :
    Underway pr.progress.events
      [.detectOld, .confirmDeletion, .stage, .removeOld, .promote, .updateConfig]
      .updateConfig o.old.toList pr.written :=
  (rt.underway_promoting.write pr.written).start .updateConfig

theorem Disposal.underway (dp : Disposal rc) :
    Underway dp.progress.events Phase.all .updateWorkflows o.old.toList pr.written :=
  pr.underway.start .updateWorkflows

end

/-! ### The whole stream -/

variable (m : Means) (r : Request) (disk : Disk)

/-- The old folder is moved aside: the switch is allowed, its new files are staged, and the move
into the folder that keeps the old one succeeds. -/
def MovedAside (folder : Path) : Prop :=
  ∃ (o : Opening m r disk) (st : Staging o) (holder : Path) (made moved : Disk),
    o.Allowed ∧ o.old = some folder ∧
    (m.makeFolder (Document.rootOf m.document) m.retiredName).on st.disk = (.ok holder, made) ∧
    (m.rename 1 folder (holder.child previousName)).on made = (.ok (), moved)

/-- What the events of a switch tell about how it ends. -/
structure Told (result : Except Failure Outcome) (events : List Event) : Prop where
  /-- An unknown deployer is not told of. -/
  unknown : ∀ id, Deployer.read r.deployer = .error id →
    result = .error (.workspace (.unknownDeployer id)) ∧ events = []
  /-- A switch that has something to do opens phases in order, each once and none left out. -/
  inOrder : (∀ project d, result ≠ .ok (.alreadyActive project d)) →
    events.filterMap opens? <+: Phase.all
  /-- Where there is nothing to do the first phase is started and then skipped. -/
  idle : ∀ project d, result = .ok (.alreadyActive project d) →
    events = [.phaseStarted .detectOld,
      .phaseSkipped .detectOld ("already deploying with " ++ d.id)]
  /-- And only there a phase is both. -/
  skipped : ∀ phase reason, .phaseStarted phase ∈ events → .phaseSkipped phase reason ∈ events →
    phase = .detectOld ∧ ∃ project d, result = .ok (.alreadyActive project d)
  /-- The failure of a phase is told last, in the phase that was started last. -/
  failed : ∀ failure phase, result = .error failure → failure.phase? = some phase →
    ∃ before, events = before ++ [.phaseFailed phase failure.message] ∧
      (before.filterMap starts?).getLast? = some phase ∧
      ∀ other text, .phaseFailed other text ∉ before
  /-- No other failure is told. -/
  unfailed : ∀ phase text, .phaseFailed phase text ∈ events →
    ∃ failure, result = .error failure ∧ failure.phase? = some phase
  completed : ∀ report, result = .ok (.switched report) →
    ∃ before, events = before ++ [.completed report.project report.target.id] ∧
      ∀ project deployer, .completed project deployer ∉ before
  uncompleted : ∀ project deployer, .completed project deployer ∈ events →
    ∃ report, result = .ok (.switched report)
  /-- The old folder is told of exactly if it was moved. -/
  removed : ∀ folder, .folderRemoved folder ∈ events ↔ MovedAside m r disk folder
  removedFirst : events.Pairwise MayPrecede
  reported : ∀ report, result = .ok (.switched report) →
    events.filterMap removes? = report.removed.toList ∧
      events.filterMap writes? = report.written ++ report.workflows

section

variable {m r disk}

/-- There is one way to stage the new files. -/
instance {o : Opening m r disk} : Subsingleton (Staging o) where
  allEq := by
    rintro ⟨folder, files, made, disk₁, hmake, hgenerate, _⟩
      ⟨folder', files', made', disk₁', hmake', hgenerate', _⟩
    obtain ⟨rfl, rfl⟩ : folder = folder' ∧ made = made' := by simpa using hmake.symm.trans hmake'
    obtain ⟨rfl, rfl⟩ : files = files' ∧ disk₁ = disk₁' := by
      simpa using hgenerate.symm.trans hgenerate'
    rfl

theorem not_movedAside (h : ∀ o : Opening m r disk, ¬ o.Allowed) (folder : Path) :
    folder ∈ ([] : List Path) ↔ MovedAside m r disk folder :=
  ⟨nofun, fun ⟨o, _, _, _, _, hallowed, _⟩ => absurd hallowed (h o)⟩

variable {o : Opening m r disk} {st : Staging o}

theorem not_movedAside_of_unstaged (h : Staging o → False) (folder : Path) :
    folder ∈ ([] : List Path) ↔ MovedAside m r disk folder := by
  refine ⟨nofun, ?_⟩
  rintro ⟨o', st, -⟩
  obtain rfl : o' = o := Subsingleton.elim _ _
  exact (h st).elim

theorem Staging.not_movedAside (st : Staging o) {old : Path} (hold : o.old = some old)
    (h : ∀ holder made moved,
      (m.makeFolder (Document.rootOf m.document) m.retiredName).on st.disk = (.ok holder, made) →
      (m.rename 1 old (holder.child previousName)).on made ≠ (.ok (), moved))
    (folder : Path) : folder ∈ ([] : List Path) ↔ MovedAside m r disk folder := by
  refine ⟨nofun, ?_⟩
  rintro ⟨o', st', holder, made, moved, -, hfolder, hmake, hmove⟩
  obtain rfl : o' = o := Subsingleton.elim _ _
  obtain rfl : st' = st := Subsingleton.elim _ _
  obtain rfl : old = folder := Option.some.inj (hold.symm.trans hfolder)
  exact absurd hmove (h holder made moved hmake)

/-- Where the old folder is retired it is moved aside. -/
theorem Retirement.movedAside_iff (rt : Retirement st) (h : o.Allowed) (folder : Path) :
    folder ∈ o.old.toList ↔ MovedAside m r disk folder := by
  rw [Option.mem_toList]
  constructor
  · intro hold
    rcases rt.how with ⟨hnone, -⟩ | ⟨old, holder, made, hsome, -, hmake, hmove⟩
    · rw [hnone] at hold
      cases hold
    · obtain rfl : old = folder := Option.some.inj (hsome.symm.trans hold)
      exact ⟨o, st, holder, made, rt.disk, h, hold, hmake, hmove⟩
  · rintro ⟨o', st', holder, made, moved, -, hold, -⟩
    obtain rfl : o' = o := Subsingleton.elim _ _
    exact hold

/-! ### The ends of a stream -/

/-- A phase that is opened once is not both started and skipped. -/
theorem not_started_and_skipped {events : List Event} (h : events.filterMap opens? <+: Phase.all)
    {phase : Phase} {reason : String} (hstart : .phaseStarted phase ∈ events)
    (hskip : .phaseSkipped phase reason ∈ events) : False := by
  have hnodup : (events.filterMap opens?).Nodup := h.sublist.nodup (by decide)
  have hsymm : Std.Symm fun e e' : Event =>
      ∀ p, e.opens? = some p → ∀ q, e'.opens? = some q → p ≠ q :=
    ⟨fun e e' hne p hp q hq => (hne q hq p hp).symm⟩
  exact (List.pairwise_filterMap.1 hnodup).forall hstart hskip nofun phase rfl phase rfl rfl

namespace Underway

variable {events : List Event} {opened : List Phase} {current : Phase}
  {removed written : List Path} {d : Deployer}

theorem phaseFailed_notMem (h : Underway events opened current removed written) (phase : Phase)
    (text : String) : .phaseFailed phase text ∉ events :=
  fun hmem => by simpa [isEnd] using h.unended _ hmem

theorem completed_notMem (h : Underway events opened current removed written)
    (project deployer : String) : .completed project deployer ∉ events :=
  fun hmem => by simpa [isEnd] using h.unended _ hmem

theorem folderRemoved_mem (h : Underway events opened current removed written) {folder : Path} :
    .folderRemoved folder ∈ events ↔ folder ∈ removed := by
  rw [← h.removed_eq, List.mem_filterMap]
  simp [removes?_eq_some]

theorem opens_append (h : Underway events opened current removed written)
    (hopened : opened <+: Phase.all) {e : Event} (he : e.opens? = none) :
    (events ++ [e]).filterMap opens? <+: Phase.all := by
  rwa [List.filterMap_append, h.opened_eq, List.filterMap_cons_none he, List.filterMap_nil,
    List.append_nil]

/-- A failure of the phase that was started last. -/
theorem told_failed (h : Underway events opened current removed written)
    (hread : Deployer.read r.deployer = .ok d) (hopened : opened <+: Phase.all)
    (hmoved : ∀ folder, folder ∈ removed ↔ MovedAside m r disk folder)
    {failure : Failure} (hphase : failure.phase? = some current) :
    Told m r disk (.error failure) (events ++ [.phaseFailed current failure.message]) where
  unknown := by simp [hread]
  inOrder _ := h.opens_append hopened rfl
  idle := nofun
  skipped phase reason hstart hskip :=
    (not_started_and_skipped (h.opens_append hopened rfl) hstart hskip).elim
  failed := by
    rintro failure' phase ⟨⟩ hphase'
    obtain rfl : current = phase := Option.some.inj (hphase.symm.trans hphase')
    exact ⟨events, rfl, h.current_eq, h.phaseFailed_notMem⟩
  unfailed phase text hmem := by
    have hlast : phase = current ∧ text = failure.message := by
      simpa [h.phaseFailed_notMem] using hmem
    exact ⟨failure, rfl, hlast.1 ▸ hphase⟩
  completed := nofun
  uncompleted project deployer hmem := by simp [h.completed_notMem] at hmem
  removed folder := by simpa [h.folderRemoved_mem] using hmoved folder
  removedFirst := List.pairwise_append.2
    ⟨h.ordered, List.pairwise_singleton _ _, by simp [MayPrecede, removes?]⟩
  reported := nofun

/-- An end without an event of its own. -/
theorem told_stopped (h : Underway events opened current removed written)
    (hread : Deployer.read r.deployer = .ok d) (hopened : opened <+: Phase.all)
    (hmoved : ∀ folder, folder ∈ removed ↔ MovedAside m r disk folder)
    {result : Except Failure Outcome}
    (hresult : (∃ project, result = .ok (.cancelled project)) ∨
      ∃ e, result = .error (.workspace e)) :
    Told m r disk result events where
  unknown := by simp [hread]
  inOrder _ := h.opened_eq ▸ hopened
  idle project d' heq := by subst heq; simp at hresult
  skipped phase reason hstart hskip :=
    (not_started_and_skipped (h.opened_eq ▸ hopened) hstart hskip).elim
  failed failure phase heq hphase := by
    subst heq
    obtain ⟨e, rfl⟩ : ∃ e, failure = .workspace e := by simpa using hresult
    cases hphase
  unfailed phase text hmem := absurd hmem (h.phaseFailed_notMem phase text)
  completed report heq := by subst heq; simp at hresult
  uncompleted project deployer hmem := absurd hmem (h.completed_notMem project deployer)
  removed folder := h.folderRemoved_mem.trans (hmoved folder)
  removedFirst := h.ordered
  reported report heq := by subst heq; simp at hresult

/-- The end of a switch that did everything. -/
theorem told_completed {report : Report}
    (h : Underway events opened current report.removed.toList (report.written ++ report.workflows))
    (hread : Deployer.read r.deployer = .ok d) (hopened : opened <+: Phase.all)
    (hmoved : ∀ folder, folder ∈ report.removed.toList ↔ MovedAside m r disk folder) :
    Told m r disk (.ok (.switched report))
      (events ++ [.completed report.project report.target.id]) where
  unknown := by simp [hread]
  inOrder _ := h.opens_append hopened rfl
  idle := nofun
  skipped phase reason hstart hskip :=
    (not_started_and_skipped (h.opens_append hopened rfl) hstart hskip).elim
  failed := nofun
  unfailed phase text hmem := by simp [h.phaseFailed_notMem] at hmem
  completed := by
    rintro report' ⟨⟩
    exact ⟨events, rfl, h.completed_notMem⟩
  uncompleted project deployer hmem := ⟨report, rfl⟩
  removed folder := by simpa [h.folderRemoved_mem] using hmoved folder
  removedFirst := List.pairwise_append.2
    ⟨h.ordered, List.pairwise_singleton _ _, by simp [MayPrecede, removes?]⟩
  reported := by
    rintro report' ⟨⟩
    simp [removes?, writes?, h.removed_eq, h.written_eq]

end Underway

theorem told_unread {id : String} (h : Deployer.read r.deployer = .error id) :
    Told m r disk (.error (.workspace (.unknownDeployer id))) [] where
  unknown id' h' := by
    obtain rfl : id = id' := Except.error.inj (h.symm.trans h')
    exact ⟨rfl, rfl⟩
  inOrder _ := List.nil_prefix
  idle := nofun
  skipped := nofun
  failed := by
    rintro failure phase ⟨⟩ ⟨⟩
  unfailed := nofun
  completed := nofun
  uncompleted := nofun
  removed folder := ⟨nofun, fun ⟨o, _⟩ => by cases h.symm.trans o.read⟩
  removedFirst := .nil
  reported := nofun

theorem told_idle {d : Deployer} {project : String} (hread : Deployer.read r.deployer = .ok d)
    (h : ∀ _ : Opening m r disk, False) :
    Told m r disk (.ok (.alreadyActive project d)) [.phaseStarted .detectOld,
      .phaseSkipped .detectOld ("already deploying with " ++ d.id)] where
  unknown := by simp [hread]
  inOrder hnot := absurd rfl (hnot project d)
  idle := by
    rintro project' d' ⟨⟩
    rfl
  skipped phase reason hstart _ := ⟨by simpa using hstart, project, d, rfl⟩
  failed := nofun
  unfailed := nofun
  completed := nofun
  uncompleted := nofun
  removed folder := ⟨nofun, fun ⟨o, _⟩ => (h o).elim⟩
  removedFirst := by simp [MayPrecede, removes?]
  reported := nofun

end

/-- The events of a switch tell what phases it went through, how it ended, what it moved and what
it wrote, whatever the means do. -/
theorem stream_tells : Told m r disk (run m r disk).1 (run m r disk).2.events := by
  generalize hrun : run m r disk = end_
  have hcourse := hrun ▸ course m r disk
  clear hrun
  obtain ⟨result, s⟩ := end_
  cases hcourse with
  | unread id h => exact told_unread h
  | unloaded d e base h hload =>
    exact Underway.first.told_failed h (by decide)
      (not_movedAside fun o => by cases hload.symm.trans o.loading) rfl
  | unknown d w base e h hload hfind =>
    refine Underway.first.told_stopped h (by decide) (not_movedAside fun o => ?_) (.inr ⟨e, rfl⟩)
    obtain ⟨rfl, rfl⟩ : w = o.workspace ∧ base = o.base := by simpa using hload.symm.trans o.loading
    cases hfind.symm.trans o.found
  | active d w base p h hload hfind hactive =>
    refine told_idle h fun o => ?_
    obtain ⟨rfl, rfl, rfl, rfl⟩ := o.found_eq h hload hfind
    simp [o.inactive] at hactive
  | blocked d w base p h hload hfind hactive plan hplan hblocked =>
    refine Underway.first.told_failed h (by decide) (not_movedAside fun o => ?_) rfl
    obtain ⟨rfl, rfl, rfl, rfl⟩ := o.found_eq h hload hfind
    simp [hplan, o.free] at hblocked
  | declined o h =>
    obtain ⟨current, hu⟩ := o.underway
    have hopened : [Phase.detectOld, .confirmDeletion] <+: Phase.all := by decide
    exact hu.told_stopped o.read hopened
      (not_movedAside fun o' => by rwa [Subsingleton.elim o' o]) (.inl ⟨_, rfl⟩)
  | unstaged o h e d hmake =>
    exact o.underway_staging.told_failed o.read (by decide)
      (not_movedAside_of_unstaged fun st : Staging o => by cases hmake.symm.trans st.making) rfl
  | ungenerated o h folder made d message hmake hgenerate hnone =>
    refine o.underway_staging.told_failed o.read (by decide)
      (not_movedAside_of_unstaged fun st : Staging o => ?_) rfl
    obtain ⟨rfl, rfl⟩ : folder = st.folder ∧ made = st.made := by
      simpa using hmake.symm.trans st.making
    exact st.nonempty (hnone st.files (by rw [st.generating]))
  | unheld o h st old e d hold hmake =>
    exact st.underway_removing.told_failed o.read (by decide)
      (st.not_movedAside hold fun _ _ _ hmake' => by cases hmake.symm.trans hmake') rfl
  | unmoved o h st old holder e made d hold hmake hmove =>
    refine st.underway_removing.told_failed o.read (by decide)
      (st.not_movedAside hold fun holder' made' _ hmake' hmove' => ?_) rfl
    obtain ⟨rfl, rfl⟩ : holder = holder' ∧ made = made' := by simpa using hmake.symm.trans hmake'
    cases hmove.symm.trans hmove'
  | unpromoted o h st rt e d hmove =>
    exact rt.underway_promoting.told_failed o.read (by decide) (rt.movedAside_iff h) rfl
  | lost o h st rt pr e hswitch =>
    exact pr.underway.told_stopped o.read (by decide) (rt.movedAside_iff h) (.inr ⟨e, rfl⟩)
  | unrecorded o h st rt pr w e d hswitch hsave =>
    exact pr.underway.told_failed o.read (by decide) (rt.movedAside_iff h) rfl
  | unrefreshed o h st rt pr rc dp e d hregenerate =>
    exact dp.underway.told_failed o.read (by decide) (rt.movedAside_iff h) rfl
  | done o h st rt pr rc dp workflows d hregenerate =>
    exact Underway.told_completed (dp.underway.write workflows) o.read (by decide)
      (rt.movedAside_iff h)

end Rollout.Switch

import Mathlib.Tactic.Common
import Rollout.Proofs.Switch.Course

/-!
# What determines a switch

There is one way for each phase to go on from what the phases before it did. So a switch for which
every phase can go on is done with the report that this gives (`run_of_disposal`), and a folder in
the way of the new one ends it where it started (`run_blocked`).
-/

namespace Rollout.Switch

open Disk

variable {m : Means} {r : Request} {disk : Disk} {o : Opening m r disk}

section Unique

variable {st : Staging o} {rt : Retirement st} {pr : Promotion rt} {rc : Recording pr}

instance Staging.instSubsingleton : Subsingleton (Staging o) where
  allEq := by
    rintro ⟨folder, files, made, d, hmake, hgenerate, _⟩ ⟨folder', files', made', d', hmake',
      hgenerate', _⟩
    obtain ⟨rfl, rfl⟩ : folder = folder' ∧ made = made' := by simpa using hmake.symm.trans hmake'
    obtain ⟨rfl, rfl⟩ : files = files' ∧ d = d' := by
      simpa using hgenerate.symm.trans hgenerate'
    rfl

instance Retirement.instSubsingleton : Subsingleton (Retirement st) where
  allEq := by
    rintro ⟨retired, d, hhow⟩ ⟨retired', d', hhow'⟩
    rcases hhow with ⟨hold, rfl, rfl⟩ | ⟨folder, holder, made, hold, rfl, hmake, hmove⟩ <;>
      rcases hhow' with ⟨hold', rfl, rfl⟩ | ⟨folder', holder', made', hold', rfl, hmake', hmove'⟩
    · rfl
    · cases hold.symm.trans hold'
    · cases hold.symm.trans hold'
    · obtain rfl : folder = folder' := Option.some.inj (hold.symm.trans hold')
      obtain ⟨rfl, rfl⟩ : holder = holder' ∧ made = made' := by simpa using hmake.symm.trans hmake'
      obtain rfl : d = d' := by simpa using hmove.symm.trans hmove'
      rfl

instance Promotion.instSubsingleton : Subsingleton (Promotion rt) where
  allEq := by
    rintro ⟨d, hmove⟩ ⟨d', hmove'⟩
    obtain rfl : d = d' := by simpa using hmove.symm.trans hmove'
    rfl

instance Recording.instSubsingleton : Subsingleton (Recording pr) where
  allEq := by
    rintro ⟨w, d, hswitch, hsave⟩ ⟨w', d', hswitch', hsave'⟩
    obtain rfl : w = w' := Except.ok.inj (hswitch.symm.trans hswitch')
    obtain rfl : d = d' := by simpa using hsave.symm.trans hsave'
    rfl

instance Disposal.instSubsingleton : Subsingleton (Disposal rc) where
  allEq := by
    rintro ⟨leftover, d, hhow⟩ ⟨leftover', d', hhow'⟩
    rcases hhow with ⟨hretired, rfl, rfl⟩ | ⟨holder, hretired, hend⟩ <;>
      rcases hhow' with ⟨hretired', rfl, rfl⟩ | ⟨holder', hretired', hend'⟩
    · rfl
    · cases hretired.symm.trans hretired'
    · cases hretired.symm.trans hretired'
    · obtain rfl : holder = holder' := Option.some.inj (hretired.symm.trans hretired')
      rcases hend with ⟨heq, rfl⟩ | ⟨e, heq, rfl⟩ <;>
        rcases hend' with ⟨heq', rfl⟩ | ⟨e', heq', rfl⟩
      · obtain rfl : d = d' := congrArg Prod.snd (heq.symm.trans heq')
        rfl
      · cases heq.symm.trans heq'
      · cases heq.symm.trans heq'
      · obtain rfl : d = d' := congrArg Prod.snd (heq.symm.trans heq')
        rfl

/-- A switch that gets through all its phases is done. -/
theorem run_of_disposal (h : o.Allowed) (dp : Disposal rc) {workflows : List Path} {d : Disk}
    (hregenerate : (m.regenerate rc.workspace (Document.rootOf m.document)).on dp.disk =
      (.ok workflows, d)) :
    (run m r disk).1 = .ok (.switched (dp.report workflows)) ∧ (run m r disk).2.disk = d := by
  have hcourse := course m r disk
  generalize (run m r disk).1 = result, (run m r disk).2 = s at hcourse ⊢
  cases hcourse with
  | unread id h => cases h.symm.trans o.read
  | unloaded d e base h hload => cases hload.symm.trans o.loading
  | unknown d w base e h hload hfind =>
    obtain ⟨rfl, rfl⟩ : w = o.workspace ∧ base = o.base := by simpa using hload.symm.trans o.loading
    cases hfind.symm.trans o.found
  | active d w base p h hload hfind hactive =>
    obtain ⟨rfl, rfl, rfl, rfl⟩ := o.found_eq h hload hfind
    rw [o.inactive] at hactive
    cases hactive
  | blocked d w base p h hload hfind hactive plan hplan hblocked =>
    obtain ⟨rfl, rfl, rfl, rfl⟩ := o.found_eq h hload hfind
    rw [hplan, o.free] at hblocked
    cases hblocked
  | declined o' hdeclined =>
    obtain rfl : o' = o := Subsingleton.elim _ _
    exact absurd h hdeclined
  | unstaged o' _ e d hmake =>
    obtain rfl : o' = o := Subsingleton.elim _ _
    cases hmake.symm.trans st.making
  | ungenerated o' _ folder made d message hmake hgenerate hnone =>
    obtain rfl : o' = o := Subsingleton.elim _ _
    obtain ⟨rfl, rfl⟩ : folder = st.folder ∧ made = st.made := by
      simpa using hmake.symm.trans st.making
    exact absurd (hnone _ (congrArg Prod.fst st.generating)) st.nonempty
  | unheld o' _ st' old e d hold hmake =>
    obtain rfl : o' = o := Subsingleton.elim _ _
    obtain rfl : st' = st := Subsingleton.elim _ _
    rcases rt.how with ⟨hnone, -⟩ | ⟨_, _, _, -, -, hmake', -⟩
    · cases hnone.symm.trans hold
    · cases hmake.symm.trans hmake'
  | unmoved o' _ st' old holder e made d hold hmake hmove =>
    obtain rfl : o' = o := Subsingleton.elim _ _
    obtain rfl : st' = st := Subsingleton.elim _ _
    rcases rt.how with ⟨hnone, -⟩ | ⟨old', holder', made', hold', -, hmake', hmove'⟩
    · cases hnone.symm.trans hold
    · obtain rfl : old = old' := Option.some.inj (hold.symm.trans hold')
      obtain ⟨rfl, rfl⟩ : holder = holder' ∧ made = made' := by
        simpa using hmake.symm.trans hmake'
      cases hmove.symm.trans hmove'
  | unpromoted o' _ st' rt' e d hmove =>
    obtain rfl : o' = o := Subsingleton.elim _ _
    obtain rfl : st' = st := Subsingleton.elim _ _
    obtain rfl : rt' = rt := Subsingleton.elim _ _
    cases hmove.symm.trans pr.moving
  | lost o' _ st' rt' pr' e hswitch =>
    obtain rfl : o' = o := Subsingleton.elim _ _
    cases hswitch.symm.trans rc.switched
  | unrecorded o' _ st' rt' pr' w e d hswitch hsave =>
    obtain rfl : o' = o := Subsingleton.elim _ _
    obtain rfl : st' = st := Subsingleton.elim _ _
    obtain rfl : rt' = rt := Subsingleton.elim _ _
    obtain rfl : pr' = pr := Subsingleton.elim _ _
    obtain rfl : w = rc.workspace := Except.ok.inj (hswitch.symm.trans rc.switched)
    cases hsave.symm.trans rc.saving
  | unrefreshed o' _ st' rt' pr' rc' dp' e d hregenerate' =>
    obtain rfl : o' = o := Subsingleton.elim _ _
    obtain rfl : st' = st := Subsingleton.elim _ _
    obtain rfl : rt' = rt := Subsingleton.elim _ _
    obtain rfl : pr' = pr := Subsingleton.elim _ _
    obtain rfl : rc' = rc := Subsingleton.elim _ _
    obtain rfl : dp' = dp := Subsingleton.elim _ _
    cases hregenerate'.symm.trans hregenerate
  | done o' _ st' rt' pr' rc' dp' workflows' d' hregenerate' =>
    obtain rfl : o' = o := Subsingleton.elim _ _
    obtain rfl : st' = st := Subsingleton.elim _ _
    obtain rfl : rt' = rt := Subsingleton.elim _ _
    obtain rfl : pr' = pr := Subsingleton.elim _ _
    obtain rfl : rc' = rc := Subsingleton.elim _ _
    obtain rfl : dp' = dp := Subsingleton.elim _ _
    obtain ⟨rfl, rfl⟩ : workflows' = workflows ∧ d' = d := by
      simpa using hregenerate'.symm.trans hregenerate
    exact ⟨rfl, rfl⟩

end Unique

/-- A folder in the way of the new one ends a switch at once. -/
theorem run_blocked {d : Deployer} {w : Workspace} {base : Disk} {p : Project}
    (hread : Deployer.read r.deployer = .ok d) (hload : m.load.on disk = (.ok w, base))
    (hfind : w.project r.project = .ok p) (hinactive : deploysWith p d = false)
    (hblocked : (planFor (Document.rootOf m.document) p r).isBlocked base.toView) :
    (run m r disk).1 =
        .error (.phase .detectOld (takenMessage (planFor (Document.rootOf m.document) p r))) ∧
      (run m r disk).2.disk = base := by
  have hrun : run m r disk = (execute m r).on { disk } := rfl
  have hplan (s : Progress) (hs : s.disk = base) : (makePlan m p r d).on s =
      (.error (.phase .detectOld (takenMessage (planFor (Document.rootOf m.document) p r))),
        s.tellFailure (.phase .detectOld
          (takenMessage (planFor (Document.rootOf m.document) p r)))) := by
    rw [← hs] at hblocked
    rw [on_makePlan]
    exact if_pos hblocked
  rw [hrun, execute, hread]
  simp only
  rw [SwitchM.on_bind, on_detect]
  simp only [hload, hfind, hinactive, Bool.false_eq_true, if_false]
  rw [SwitchM.on_bind, hplan _ rfl]
  exact ⟨rfl, by simp⟩

end Rollout.Switch

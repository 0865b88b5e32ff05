import Mathlib.Tactic.Common
import Rollout.Proofs.Switch.Course
import Rollout.Proofs.Switch.Means

/-!
# What the phases do to the tree

A switch makes its own folders where nothing was, and its moves are moves to where there is
room. For each phase this says which tree it leaves behind in terms of the one before it.
-/

namespace Rollout.Switch

open Disk DiskTask Location

namespace Means

/-- The path of the folder in which a switch stages the new files. -/
def stagingPath (m : Means) (v : View) : Path :=
  temporaryPath v (Document.rootOf m.document) m.stagingName

/-- The path of the folder in which a switch keeps the old files. -/
def holderPath (m : Means) (v : View) : Path :=
  temporaryPath v (Document.rootOf m.document) m.retiredName

/-- Where the new files are staged. -/
def stagingSpot (m : Means) (d : Disk) : Location := (m.stagingPath d.toView).spot d.current

/-- Where the folder for the old files is. -/
def holderSpot (m : Means) (d : Disk) : Location := (m.holderPath d.toView).spot d.current

/-- Where the old folder is kept. -/
def previousSpot (m : Means) (d : Disk) : Location := m.holderSpot d ++ [previousName]

/-- The generator, when a switch calls it, changes nothing but what is in the folder it is
given. -/
def Confined (m : Means) (r : Request) (disk : Disk) : Prop :=
  ∀ (o : Opening m r disk) (folder : Path) (made : Disk),
    (m.makeFolder (Document.rootOf m.document) m.stagingName).on o.base = (.ok folder, made) →
    Through (Tree.SameOff (fun k => folder.spot made.current <+: k ∧ k ≠ folder.spot made.current)
        made.tree) made
      ((m.generate o.deployer o.project.name (withDeploy o.project o.spec) o.spec.options
        folder).on made).2

end Means

theorem isName_previousName : Path.IsName previousName := by decide

namespace Means.Lawful

variable {m : Means} (hm : m.Lawful)
include hm

theorem makeFolder_ok {name : String} (hname : Path.IsName name) {folder p : Path} {d d' : Disk}
    (h : (m.makeFolder folder name).on d = (.ok p, d')) :
    p = temporaryPath d.toView folder name ∧ Vacant d.toView p (p.spot d.current) ∧
      d' = d.after (.put (p.spot d.current) .folder) := by
  rcases hm.makeFolder folder name d with heq | ⟨e, heq⟩
  · rw [heq] at h
    rcases makeTemporary_cases folder hname d with ⟨e, heq⟩ | ⟨l, hvacant, heq⟩
    · cases heq.symm.trans h
    · obtain ⟨rfl, rfl⟩ : temporaryPath d.toView folder name = p ∧
          d.after (.put l .folder) = d' := by
        simpa using heq.symm.trans h
      have hspot := hvacant.spot
      rw [hspot]
      exact ⟨rfl, hvacant, rfl⟩
  · cases heq.symm.trans h

theorem makeFolder_error {name : String} (hname : Path.IsName name) {folder : Path} {e : FileError}
    {d d' : Disk} (h : (m.makeFolder folder name).on d = (.error e, d')) : d' = d := by
  rcases hm.makeFolder folder name d with heq | ⟨e', heq⟩
  · rw [heq] at h
    rcases makeTemporary_cases folder hname d with ⟨e', heq⟩ | ⟨l, -, heq⟩
    · cases heq.symm.trans h
      rfl
    · cases heq.symm.trans h
  · cases heq.symm.trans h
    rfl

end Means.Lawful

variable {m : Means} {r : Request} {disk : Disk}

theorem Opening.base_eq (hm : m.Lawful) (o : Opening m r disk) : o.base = disk := by
  have := hm.load disk
  rw [o.loading] at this
  exact this

theorem Opening.locate_old (hm : m.Lawful) (o : Opening m r disk) {folder : Path}
    (h : o.old = some folder) : disk.locate folder = .ok (folder.spot disk.current) := by
  have hexists := (o.old_eq_some.1 h).2
  rw [o.base_eq hm] at hexists
  exact View.exists?_eq_true hexists

/-- The old folder is there when a switch starts. -/
theorem Opening.get?_old (hm : m.Lawful) (o : Opening m r disk) {folder : Path}
    (h : o.old = some folder) : disk.tree.get? (folder.spot disk.current) ≠ none :=
  (View.locate_eq_ok (o.locate_old hm h)).2

variable {o : Opening m r disk}

/-! ### Staging -/

/-- A disk on which a switch has made its staging folder and changed nothing outside it. -/
structure Staged (m : Means) (disk d : Disk) : Prop where
  vacant : Vacant disk.toView (m.stagingPath disk.toView) (m.stagingSpot disk)
  through : Through (Tree.Extends disk.tree) disk d
  same : Tree.SameOff (m.stagingSpot disk <+: ·) disk.tree d.tree
  folder : d.tree.isFolder (m.stagingSpot disk)

theorem staged_of_confined
    (hvacant : Vacant disk.toView (m.stagingPath disk.toView) (m.stagingSpot disk)) {d : Disk}
    (h : Through (Tree.SameOff (fun k => m.stagingSpot disk <+: k ∧ k ≠ m.stagingSpot disk)
      (disk.tree.put (m.stagingSpot disk) .folder))
      (disk.after (.put (m.stagingSpot disk) .folder)) d) : Staged m disk d := by
  have hput := hvacant.get?_put .folder
  have hmade : Tree.Extends disk.tree (disk.tree.put (m.stagingSpot disk) .folder) :=
    hvacant.extends_put .folder
  refine ⟨hvacant, ?_, fun k hk => ?_, ?_⟩
  · have hfirst : Through (Tree.Extends disk.tree) disk
        (disk.after (.put (m.stagingSpot disk) .folder)) := .edit (.refl _) hmade
    refine hfirst.trans (h.mono fun t ht => hmade.trans ?_)
    refine ht.extends fun k hk => ?_
    rw [hput, if_neg hk.2]
    exact Tree.get?_under hvacant.absent hk.1
  · rw [h.last k fun hp => hk hp.1, hput, if_neg]
    rintro rfl
    exact hk List.prefix_rfl
  · rw [Tree.isFolder, h.last _ fun hp => hp.2 rfl, hput, if_pos rfl]
    rfl

theorem staged_of_generate (hm : m.Lawful) (hc : m.Confined r disk) (o : Opening m r disk)
    {folder : Path} {made : Disk}
    (hmake : (m.makeFolder (Document.rootOf m.document) m.stagingName).on o.base =
      (.ok folder, made)) :
    folder = m.stagingPath disk.toView ∧
      Staged m disk ((m.generate o.deployer o.project.name (withDeploy o.project o.spec)
        o.spec.options folder).on made).2 := by
  have hconfined := hc o folder made hmake
  rw [o.base_eq hm] at hmake
  obtain ⟨hpath, hvacant, rfl⟩ := hm.makeFolder_ok hm.isName_stagingName hmake
  obtain rfl : folder = m.stagingPath disk.toView := hpath
  exact ⟨rfl, staged_of_confined hvacant hconfined⟩

namespace Staged

variable {d : Disk} (h : Staged m disk d)
include h

theorem current : d.current = disk.current := h.through.current

theorem extends_ : Tree.Extends disk.tree d.tree := h.through.last

/-- Discarding the staging folder brings back the tree from before the switch. -/
theorem get?_discarded (k : Location) :
    (d.discarded (m.stagingPath disk.toView)).tree.get? k = disk.tree.get? k :=
  h.vacant.get?_discarded h.current h.same h.folder k

theorem through_discarded : Through (Tree.Extends disk.tree) disk
    (d.discarded (m.stagingPath disk.toView)) := by
  have hremove := through_removeFolder (m.stagingPath disk.toView) d
  rw [h.current] at hremove
  rw [discarded_eq]
  exact h.through.trans (hremove.mono fun t ht => h.extends_.sameOff ht h.vacant.absent)

end Staged

/-- Being staged is a matter of what is where. -/
theorem Staged.congr {d d' : Disk} (h : Staged m disk d)
    (hthrough : Through (Tree.Extends disk.tree) d d')
    (heq : ∀ k, d'.tree.get? k = d.tree.get? k) : Staged m disk d' where
  vacant := h.vacant
  through := h.through.trans hthrough
  same k hk := (heq k).trans (h.same k hk)
  folder := by rw [Tree.isFolder, heq, ← Tree.isFolder, h.folder]

/-- The staging folder is made where nothing was, and nothing else is made with it. -/
theorem Staging.made_eq (hm : m.Lawful) (st : Staging o) :
    st.folder = m.stagingPath disk.toView ∧
      Vacant disk.toView (m.stagingPath disk.toView) (m.stagingSpot disk) ∧
      st.made = disk.after (.put (m.stagingSpot disk) .folder) := by
  have hmake := st.making
  rw [o.base_eq hm] at hmake
  obtain ⟨hpath, hvacant, hmade⟩ := hm.makeFolder_ok hm.isName_stagingName hmake
  rw [hpath] at hvacant hmade
  exact ⟨hpath, hvacant, hmade⟩

theorem Staging.made_current (hm : m.Lawful) (st : Staging o) :
    st.made.current = disk.current := by
  rw [(st.made_eq hm).2.2, after_current]

theorem Staging.spot_folder (hm : m.Lawful) (st : Staging o) :
    st.folder.spot disk.current = m.stagingSpot disk := by
  rw [(st.made_eq hm).1]
  rfl

theorem Staging.staged (hm : m.Lawful) (hc : m.Confined r disk) (st : Staging o) :
    st.folder = m.stagingPath disk.toView ∧ Staged m disk st.disk := by
  have h := staged_of_generate hm hc o st.making
  rw [st.generating] at h
  exact h

/-! ### Moving the old folder aside -/

theorem temporaryPath_congr {v v' : View} (h : v'.current = v.current) (folder : Path)
    (name : String) : temporaryPath v' folder name = temporaryPath v folder name := by
  simp only [temporaryPath, fromTop, h]

/-- A disk on which a switch has made the folder for the old files. -/
structure Held (m : Means) (disk d : Disk) : Prop where
  staged : Staged m disk d
  vacant : Vacant d.toView (m.holderPath disk.toView) (m.holderSpot disk)

/-- The disk with the folder for the old files made. -/
def withHolder (m : Means) (disk d : Disk) : Disk := d.after (.put (m.holderSpot disk) .folder)

theorem withHolder_current (m : Means) (disk d : Disk) :
    (withHolder m disk d).current = d.current := after_current _ _

theorem held_of_makeFolder (hm : m.Lawful) {d made : Disk} (hs : Staged m disk d) {holder : Path}
    (h : (m.makeFolder (Document.rootOf m.document) m.retiredName).on d = (.ok holder, made)) :
    holder = m.holderPath disk.toView ∧ Held m disk d ∧ made = withHolder m disk d := by
  obtain ⟨hpath, hvacant, hmade⟩ := hm.makeFolder_ok hm.isName_retiredName h
  rw [temporaryPath_congr hs.current] at hpath
  have hspot : holder.spot d.current = m.holderSpot disk := by
    rw [hpath, hs.current]
    rfl
  rw [hspot] at hvacant hmade
  rw [hpath] at hvacant
  exact ⟨hpath, ⟨hs, hvacant⟩, hmade⟩

namespace Held

variable {d : Disk} (h : Held m disk d)
include h

theorem absent : disk.tree.get? (m.holderSpot disk) = none := by
  by_contra hne
  obtain ⟨e, he⟩ := Option.ne_none_iff_exists'.1 hne
  have := h.staged.extends_ _ e he
  rw [h.vacant.absent] at this
  cases this

theorem through : Through (Tree.Extends disk.tree) disk (withHolder m disk d) :=
  h.staged.through.step _ (h.staged.extends_.trans (h.vacant.extends_put .folder))

theorem get?_withHolder (k : Location) : (withHolder m disk d).tree.get? k =
    if k = m.holderSpot disk then some .folder else d.tree.get? k :=
  h.vacant.get?_put .folder k

/-- What holds in a tree holds with the folder for the old files made. -/
theorem isFolder_withHolder : (withHolder m disk d).tree.isFolder (m.holderSpot disk) := by
  rw [Tree.isFolder, h.get?_withHolder, if_pos rfl]
  rfl

theorem trail : ∀ s ∈ Location.trail ((m.holderPath disk.toView).origin d.current)
    (m.holderPath disk.toView).segments, (withHolder m disk d).tree.isFolder s := fun s hs =>
  (h.vacant.extends_put .folder).isFolder (h.vacant.trail s hs)

/-- Discarding the folder for the old files leaves the staged ones. -/
theorem staged_discarded :
    Staged m disk ((withHolder m disk d).discarded (m.holderPath disk.toView)) := by
  have hsame : Tree.SameOff (m.holderSpot disk <+: ·) d.tree (withHolder m disk d).tree := by
    intro k hk
    rw [h.get?_withHolder, if_neg]
    rintro rfl
    exact hk List.prefix_rfl
  have hremove := through_removeFolder (m.holderPath disk.toView) (withHolder m disk d)
  rw [withHolder_current, h.staged.current] at hremove
  refine h.staged.congr ?_
    (h.vacant.get?_discarded (withHolder_current m disk d) hsame h.isFolder_withHolder)
  have hmade : Through (Tree.Extends disk.tree) d (withHolder m disk d) :=
    .edit h.staged.extends_ h.through.last
  refine hmade.trans ?_
  rw [discarded_eq]
  exact hremove.mono fun t ht => h.through.last.sameOff ht h.absent

/-- A move to the kept place makes no folders. -/
theorem on_makeFoldersTo (hm : m.Lawful) :
    (makeFoldersTo ((m.holderPath disk.toView).child previousName)).on (withHolder m disk d) =
      (.ok (), withHolder m disk d) :=
  h.vacant.on_makeFoldersTo rfl hm.isName_retiredName isName_previousName
    (withHolder_current m disk d) h.trail
    h.isFolder_withHolder

/-- The move of the old folder is refused and changes nothing, or it is done. -/
theorem rename_cases (hm : m.Lawful) (n : Nat) (folder : Path) :
    (∃ e, (m.rename n folder ((m.holderPath disk.toView).child previousName)).on
      (withHolder m disk d) = (.error e, withHolder m disk d)) ∨
    (m.rename n folder ((m.holderPath disk.toView).child previousName)).on
        (withHolder m disk d) =
      (.ok (), (withHolder m disk d).after
        (.move (folder.spot disk.current) (m.previousSpot disk))) ∧
    Tree.Movable (withHolder m disk d).tree (folder.spot disk.current) (m.previousSpot disk) := by
  have hmake := h.on_makeFoldersTo hm
  rcases hm.rename n folder ((m.holderPath disk.toView).child previousName)
    (withHolder m disk d) with heq | ⟨e, d', heq, hd⟩
  · have hc : (withHolder m disk d).current = disk.current :=
      (withHolder_current m disk d).trans h.staged.current
    have hspot : ((m.holderPath disk.toView).child previousName).spot disk.current =
        m.previousSpot disk := Path.spot_child isName_previousName _ _
    have hcases := Disk.rename_cases folder ((m.holderPath disk.toView).child previousName)
      (withHolder m disk d) rfl rfl rfl
    rw [hmake, hc, hspot] at hcases
    rw [heq]
    rcases hcases with ⟨e, heq⟩ | ⟨-, hsame, hthere⟩ | ⟨heq, hmove, -⟩
    · exact .inl ⟨e, heq⟩
    · exfalso
      rw [hsame, h.get?_withHolder, if_neg (by simp [Means.previousSpot]), Means.previousSpot,
        Tree.get?_append_of_none h.vacant.absent] at hthere
      exact hthere rfl
    · exact .inr ⟨heq, hmove⟩
  · refine .inl ⟨e, ?_⟩
    rw [hmake] at hd
    rcases hd with rfl | rfl <;> exact heq

end Held

/-- What a retirement did: nothing where there was no old folder, else one move to the kept
place. -/
inductive Retired (m : Means) (disk before : Disk) : Option Path → Option Path → Disk → Prop
  | nothing : Retired m disk before none none before
  | moved {folder : Path} (held : Held m disk before)
      (movable : Tree.Movable (withHolder m disk before).tree (folder.spot disk.current)
        (m.previousSpot disk)) :
      Retired m disk before (some folder) (some (m.holderPath disk.toView))
        ((withHolder m disk before).after
          (.move (folder.spot disk.current) (m.previousSpot disk)))

theorem Retirement.retired_eq (hm : m.Lawful) (hc : m.Confined r disk) {st : Staging o}
    (rt : Retirement st) : Retired m disk st.disk o.old rt.retired rt.disk := by
  rcases rt.how with ⟨hold, hretired, hdisk⟩ | ⟨folder, holder, made, hold, hretired, hmake, hmove⟩
  · rw [hold, hretired, hdisk]
    exact .nothing
  · obtain ⟨rfl, hheld, rfl⟩ := held_of_makeFolder hm (st.staged hm hc).2 hmake
    rw [hold, hretired]
    rcases hheld.rename_cases hm 1 folder with ⟨e, heq⟩ | ⟨heq, hmovable⟩
    · cases heq.symm.trans hmove
    · have : rt.disk = _ := congrArg Prod.snd (hmove.symm.trans heq)
      rw [this]
      exact .moved hheld hmovable

/-! ### Moving the new files to their place -/

/-- What a promotion did: folders for the target at most, and the move, unless the staging
folder was the target. -/
inductive Promoted (m : Means) (disk before : Disk) (target : Path) : Disk → Prop
  | stayed {made : Disk}
      (growing : Through (Tree.Grows (Within disk.current target) before.tree) before made)
      (same : m.stagingSpot disk = target.spot disk.current) : Promoted m disk before target made
  | moved {made : Disk}
      (growing : Through (Tree.Grows (Within disk.current target) before.tree) before made)
      (movable : Tree.Movable made.tree (m.stagingSpot disk) (target.spot disk.current))
      (trail : ∀ s ∈ trail ((m.stagingPath disk.toView).origin disk.current)
        (m.stagingPath disk.toView).segments, made.tree.isFolder s ∨ s = m.stagingSpot disk)
      (place : ∃ pl, made.place target = .ok pl ∧ pl.location? = .ok (target.spot disk.current)) :
      Promoted m disk before target
        (made.after (.move (m.stagingSpot disk) (target.spot disk.current)))

theorem promote_rename_cases (hm : m.Lawful) (n : Nat) (target : Path) {d : Disk}
    (hcurrent : d.current = disk.current) :
    (∃ e d', (m.rename n (m.stagingPath disk.toView) target).on d = (.error e, d') ∧
      Through (Tree.Grows (Within disk.current target) d.tree) d d') ∨
    ∃ d', (m.rename n (m.stagingPath disk.toView) target).on d = (.ok (), d') ∧
      Promoted m disk d target d' := by
  have hgrowing := through_makeFoldersTo target d
  rw [hcurrent] at hgrowing
  rcases hm.rename n (m.stagingPath disk.toView) target d with heq | ⟨e, d', heq, hd⟩
  · have hcases := Disk.rename_cases (m.stagingPath disk.toView) target d rfl rfl rfl
    rw [hcurrent] at hcases
    rw [heq]
    rcases hcases with ⟨e, heq⟩ | ⟨heq, hsame, -⟩ | ⟨heq, hmovable, htrail, hplace⟩
    · exact .inl ⟨e, _, heq, hgrowing⟩
    · exact .inr ⟨_, heq, .stayed hgrowing hsame⟩
    · exact .inr ⟨_, heq, .moved hgrowing hmovable htrail hplace⟩
  · refine .inl ⟨e, d', heq, ?_⟩
    rcases hd with rfl | rfl
    · exact .rest (.refl _ _)
    · exact hgrowing

end Rollout.Switch

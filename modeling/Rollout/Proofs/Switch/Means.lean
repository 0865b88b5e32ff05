import Mathlib.Tactic.Common
import Rollout.Switch.Standard
import Rollout.Proofs.Output.Files

/-!
# Means that keep their promises

What a switch relies on: each of its means works as it should or fails, and what it leaves
behind when it fails is bounded (`Means.Lawful`). The means of the program keep these promises
with any faults (`lawful_applyTo`).
-/

namespace Rollout.Switch

open Disk DiskTask

/-- Each of the means does what it should or fails. Loading changes nothing, a failed save keeps
the old document, a failed move leaves both ends as they were, and a failed deletion has deleted
only what it was to delete. -/
structure Means.Lawful (m : Means) : Prop where
  load : ∀ d, (m.load.on d).2 = d
  present : ∀ d w d', m.load.on d = (.ok w, d') →
    ∃ content, d.tree.get? (m.document.spot d.current) = some (.file content)
  save : ∀ w d, (m.save w).on d = (Document.save .never m.document w).on d ∨
    ∃ e d', (m.save w).on d = (.error e, d') ∧ Through (Tree.Extends d.tree) d d'
  makeFolder : ∀ folder name d,
    (m.makeFolder folder name).on d = (makeTemporary folder name).on d ∨
      ∃ e, (m.makeFolder folder name).on d = (.error e, d)
  rename : ∀ n source target d,
    (m.rename n source target).on d = (Disk.rename source target).on d ∨
      ∃ e d', (m.rename n source target).on d = (.error e, d') ∧
        (d' = d ∨ d' = ((makeFoldersTo target).on d).2)
  removeFolder : ∀ p d, (m.removeFolder p).on d = (Disk.removeFolder p).on d ∨
    ∃ e d', (m.removeFolder p).on d = (.error e, d') ∧
      Through (Tree.SameOff (p.spot d.current <+: ·) d.tree) d d'
  regenerate : ∀ w root d,
    (m.regenerate w root).on d = (Workflow.regenerate .never w root).on d ∨
      ∃ e d', (m.regenerate w root).on d = (.error e, d') ∧
        Through (Tree.ExtendsBut ((Workflow.fileIn root).spot d.current) d.tree) d d'
  stagingName : ∃ suffix, '/' ∉ suffix.toList ∧ m.stagingName = stagingPrefix ++ suffix
  retiredName : ∃ suffix, '/' ∉ suffix.toList ∧ m.retiredName = retiredPrefix ++ suffix

theorem isName_append {start suffix : String} (h : 4 ≤ start.toList.length)
    (hstart : '/' ∉ start.toList) (hsuffix : '/' ∉ suffix.toList) :
    Path.IsName (start ++ suffix) := by
  have hlength : 4 ≤ (start ++ suffix).toList.length := by
    rw [String.toList_append, List.length_append]
    omega
  refine ⟨?_, ?_, ?_, ?_⟩
  · intro h
    rw [h] at hlength
    simp at hlength
  · intro h
    rw [h] at hlength
    simp at hlength
  · intro h
    rw [h] at hlength
    simp at hlength
  · rw [String.toList_append, List.mem_append]
    exact fun h => h.elim hstart hsuffix

namespace Means.Lawful

variable {m : Means} (hm : m.Lawful)
include hm

theorem isName_stagingName : Path.IsName m.stagingName := by
  obtain ⟨suffix, hsuffix, heq⟩ := hm.stagingName
  rw [heq]
  exact isName_append (by decide) (by decide) hsuffix

theorem isName_retiredName : Path.IsName m.retiredName := by
  obtain ⟨suffix, hsuffix, heq⟩ := hm.retiredName
  rw [heq]
  exact isName_append (by decide) (by decide) hsuffix

theorem names_ne : m.stagingName ≠ m.retiredName := by
  obtain ⟨s, -, hs⟩ := hm.stagingName
  obtain ⟨s', -, hs'⟩ := hm.retiredName
  rw [hs, hs']
  intro h
  have := congrArg (List.take 7 ∘ String.toList) h
  simp [stagingPrefix, retiredPrefix] at this

end Means.Lawful

/-! ### The means of the program -/

theorem on_read (p : Path) (d : Disk) :
    (∃ e, (Disk.read p).on d = (.error e, d)) ∨
      ∃ s, (Disk.read p).on d = (.ok s, d) ∧
        d.tree.get? (p.spot d.current) = some (.file (.text s)) := by
  rw [Disk.read, on_bind, on_get]
  simp only
  rw [on_bind, on_orFail]
  cases hl : d.locate p with
  | error t => exact .inl ⟨_, rfl⟩
  | ok l =>
    rw [← View.locate_eq_spot hl]
    simp only [Except.mapError]
    rcases d.tree.get? l with _ | _ | s | bytes
    · exact .inl ⟨_, rfl⟩
    · exact .inl ⟨_, rfl⟩
    · exact .inr ⟨s, rfl, rfl⟩
    · exact .inl ⟨_, rfl⟩

theorem on_load (document : Path) (d : Disk) :
    (∃ e, (Document.load document).on d = (.error e, d)) ∨
      ∃ s w, (Document.load document).on d = (.ok w, d) ∧ Document.read document s = .ok w ∧
        d.tree.get? (document.spot d.current) = some (.file (.text s)) := by
  rw [Document.load, on_bind, on_adapt]
  rcases on_read document d with ⟨e, h⟩ | ⟨s, h, hfile⟩
  · rw [h]
    exact .inl ⟨_, rfl⟩
  · rw [h]
    simp only [Except.mapError]
    cases hread : Document.read document s with
    | error e => exact .inl ⟨_, rfl⟩
    | ok w => exact .inr ⟨s, w, rfl, hread, hfile⟩

theorem through_removeAll {A : Location → Prop} (l : Location)
    (files : List (Location × Content)) (hA : ∀ file ∈ files, ∀ k, l ++ file.1 <+: k → A k)
    (d : Disk) :
    Through (Tree.SameOff A d.tree) d
      (DiskTask.on (ε := FileError) (forIn files PUnit.unit fun file _ => do
        Disk.edit (.remove (l ++ file.1))
        pure (ForInStep.yield PUnit.unit)) d).2 := by
  induction files generalizing d with
  | nil => exact .rest (.refl _ _)
  | cons file files ih =>
    rw [List.forIn_cons, on_bind, on_bind, on_edit]
    simp only [on_pure]
    have hfirst : Tree.SameOff A d.tree (d.tree.remove (l ++ file.1)) := fun k hk =>
      Tree.get?_alter_of_not_prefix _ _ fun hp => hk (hA file (by simp) k hp)
    have hrest := ih (fun file hfile => hA file (by simp [hfile]))
      (d.after (.remove (l ++ file.1)))
    exact (Through.edit (.refl _ _) hfirst).trans (hrest.mono fun t ht => hfirst.trans ht)

theorem through_removeSome (count : Nat) (p : Path) (d : Disk) :
    Through (Tree.SameOff (p.spot d.current <+: ·) d.tree) d ((removeSome count p).on d).2 := by
  rw [removeSome, on_bind, on_get]
  simp only
  cases hl : d.locate p with
  | error t => exact .rest (.refl _ _)
  | ok l =>
    simp only
    rw [on_bind, on_get]
    simp only
    rw [on_bind]
    have hall := through_removeAll (A := (p.spot d.current <+: ·)) l
      ((d.tree.filesBelow l).take count)
      (fun file _ k hk => View.locate_eq_spot hl ▸ (List.prefix_append l file.1).trans hk) d
    generalize DiskTask.on _ d = rest at hall ⊢
    obtain ⟨_ | _, d'⟩ := rest <;> exact hall

/-- The means of the program keep their promises with any faults. -/
theorem lawful_applyTo (f : Faults) (document : Path) {suffix : String} (h : '/' ∉ suffix.toList)
    (approves : String → Path → Bool) :
    (f.applyTo (Means.standard document suffix approves)).Lawful where
  load d := by
    rcases on_load document d with ⟨e, h⟩ | ⟨s, w, h, -⟩
    · exact congrArg Prod.snd h
    · exact congrArg Prod.snd h
  present d w d' hload := by
    rcases on_load document d with ⟨e, h⟩ | ⟨s, w', h, -, hfile⟩
    · cases h.symm.trans hload
    · exact ⟨_, hfile⟩
  save w d := by
    have refused (e : StoreError) : ∃ e' d', DiskTask.on (throw e : DiskTask StoreError Unit) d =
        (.error e', d') ∧ Through (Tree.Extends d.tree) d d' :=
      ⟨e, d, on_throw _ _, .rest (.refl _)⟩
    simp only [Faults.applyTo, Means.standard]
    cases f.save with
    | some message => exact .inr (refused _)
    | none =>
      simp only [Document.save, WriteFaults.write]
      cases f.documentWrites 1 document with
      | some e => exact .inr ⟨_, d, rfl, .rest (.refl _)⟩
      | none => exact .inl rfl
  makeFolder folder name d := .inl rfl
  rename n source target d := by
    simp only [Faults.applyTo, Means.standard]
    cases f.rename n with
    | some e => exact .inr ⟨e, d, rfl, .inl rfl⟩
    | none => exact .inl rfl
  removeFolder p d := by
    simp only [Faults.applyTo, Means.standard]
    cases f.removal with
    | none => exact .inl rfl
    | some removal =>
      obtain ⟨count, e⟩ := removal
      have hthrough := through_removeSome count p d
      simp only
      rw [on_bind]
      generalize (removeSome count p).on d = rest at hthrough
      obtain ⟨e' | _, d'⟩ := rest
      · exact .inr ⟨e', d', rfl, hthrough⟩
      · exact .inr ⟨e, d', rfl, hthrough⟩
  regenerate w root d := by
    rcases Workflow.regenerate_eq_never f.workflowWrites w root d with h | ⟨e, h⟩
    · exact .inl h
    · exact .inr ⟨e, d, h, .rest (Tree.Extends.refl _).but⟩
  stagingName := ⟨suffix, h, rfl⟩
  retiredName := ⟨suffix, h, rfl⟩

end Rollout.Switch

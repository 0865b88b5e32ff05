import Mathlib.Tactic.Common
import Rollout.Proofs.FileTree.Walk
import Rollout.FileTree.Disk

/-!
# Changes of trees

How a tree relates to what it was: what it still holds (`Extends`, `ExtendsBut`, `Holds`), where
it can differ (`SameOff`) and where it only got new folders (`Grows`). `Disk.Through` says that
something is true of every tree that a disk had on its way.
-/

namespace Rollout

namespace Tree

/-- All that was there is there. -/
def Extends (t₀ t : Tree) : Prop := ∀ k e, t₀.get? k = some e → t.get? k = some e

/-- All that was there is there, a file at one location aside. -/
def ExtendsBut (l : Location) (t₀ t : Tree) : Prop :=
  ∀ k e, t₀.get? k = some e → t.get? k = some e ∨ k = l ∧ e ≠ .folder

/-- What was at and below one location is at and below another. -/
def Holds (t₀ : Tree) (a : Location) (t : Tree) (b : Location) : Prop :=
  ∀ r e, t₀.get? (a ++ r) = some e → t.get? (b ++ r) = some e

/-- What was at and below one location is at and below another, a file at a third one aside. -/
def HoldsBut (l : Location) (t₀ : Tree) (a : Location) (t : Tree) (b : Location) : Prop :=
  ∀ r e, t₀.get? (a ++ r) = some e → t.get? (b ++ r) = some e ∨ b ++ r = l ∧ e ≠ .folder

/-- What was at and below one location is at and below another, whatever is in the files. -/
def HoldsKinds (t₀ : Tree) (a : Location) (t : Tree) (b : Location) : Prop :=
  ∀ r e, t₀.get? (a ++ r) = some e →
    ∃ e', t.get? (b ++ r) = some e' ∧ (e' = .folder ↔ e = .folder)

/-- All is as it was, some locations aside. -/
def SameOff (A : Location → Prop) (t₀ t : Tree) : Prop := ∀ k, ¬ A k → t.get? k = t₀.get? k

/-- All is as it was, new folders at some locations aside. -/
def Grows (A : Location → Prop) (t₀ t : Tree) : Prop :=
  ∀ k, t.get? k = t₀.get? k ∨ A k ∧ t₀.get? k = none ∧ t.get? k = some .folder

variable {t₀ t₁ t₂ t : Tree} {A B : Location → Prop} {a b c k l : Location}

theorem Extends.refl (t : Tree) : Extends t t := fun _ _ h => h

theorem Extends.trans (h₁ : Extends t₀ t₁) (h₂ : Extends t₁ t₂) : Extends t₀ t₂ :=
  fun k e h => h₂ k e (h₁ k e h)

theorem Extends.but (h : Extends t₀ t) : ExtendsBut l t₀ t := fun k e hk => .inl (h k e hk)

theorem Extends.holds (h : Extends t₀ t) : Holds t₀ a t a := fun r e hr => h (a ++ r) e hr

theorem Extends.isFolder (h : Extends t₀ t) (hk : t₀.isFolder k) : t.isFolder k := by
  simp [Tree.isFolder, h k .folder (get?_of_isFolder hk)]

theorem Holds.trans (h₁ : Holds t₀ a t₁ b) (h₂ : Holds t₁ b t₂ c) : Holds t₀ a t₂ c :=
  fun r e h => h₂ r e (h₁ r e h)

theorem Holds.extends (h₁ : Holds t₀ a t₁ b) (h₂ : Extends t₁ t₂) : Holds t₀ a t₂ b :=
  h₁.trans h₂.holds

theorem ExtendsBut.trans (h₁ : ExtendsBut l t₀ t₁) (h₂ : ExtendsBut l t₁ t₂) :
    ExtendsBut l t₀ t₂ := by
  intro k e hk
  rcases h₁ k e hk with h | h
  · exact h₂ k e h
  · exact .inr h

theorem ExtendsBut.isFolder (h : ExtendsBut l t₀ t) (hk : t₀.isFolder k) : t.isFolder k := by
  rcases h k .folder (get?_of_isFolder hk) with h | ⟨-, h⟩
  · simp [Tree.isFolder, h]
  · exact absurd rfl h

/-- What is held stays held where no file of it is the one that may be replaced. -/
theorem Holds.extendsBut (h₁ : Holds t₀ a t₁ b) (h₂ : ExtendsBut l t₁ t₂)
    (h : ∀ r e, t₀.get? (a ++ r) = some e → b ++ r = l → e = .folder) : Holds t₀ a t₂ b := by
  intro r e hr
  rcases h₂ _ e (h₁ r e hr) with hk | ⟨hl, he⟩
  · exact hk
  · exact absurd (h r e hr hl) he

theorem Holds.refl (t : Tree) (a : Location) : Holds t a t a := fun _ _ h => h

theorem Holds.but (h : Holds t₀ a t b) : HoldsBut l t₀ a t b := fun r e hr => .inl (h r e hr)

theorem Holds.extendsBut' (h₁ : Holds t₀ a t₁ b) (h₂ : ExtendsBut l t₁ t₂) :
    HoldsBut l t₀ a t₂ b := fun r e hr => h₂ (b ++ r) e (h₁ r e hr)

theorem Holds.kinds (h : Holds t₀ a t b) : HoldsKinds t₀ a t b :=
  fun r e hr => ⟨e, h r e hr, Iff.rfl⟩

theorem ExtendsBut.kinds (h : ExtendsBut l t₀ t) {content : Content}
    (hl : t.get? l = some (.file content)) (a : Location) : HoldsKinds t₀ a t a := by
  intro r e hr
  rcases h (a ++ r) e hr with hk | ⟨heq, he⟩
  · exact ⟨e, hk, Iff.rfl⟩
  · exact ⟨.file content, heq ▸ hl, by simp [he]⟩

theorem HoldsKinds.trans (h₁ : HoldsKinds t₀ a t₁ b) (h₂ : HoldsKinds t₁ b t₂ c) :
    HoldsKinds t₀ a t₂ c := by
  intro r e hr
  obtain ⟨e₁, he₁, hkind₁⟩ := h₁ r e hr
  obtain ⟨e₂, he₂, hkind₂⟩ := h₂ r e₁ he₁
  exact ⟨e₂, he₂, hkind₂.trans hkind₁⟩

theorem HoldsKinds.isFolder (h : HoldsKinds t₀ a t b) {r : Location}
    (hr : t₀.isFolder (a ++ r)) : t.isFolder (b ++ r) := by
  obtain ⟨e, he, hkind⟩ := h r .folder (get?_of_isFolder hr)
  exact decide_eq_true (hkind.2 rfl ▸ he)

theorem HoldsKinds.file (h : HoldsKinds t₀ a t b) {r : Location} {content : Content}
    (hr : t₀.get? (a ++ r) = some (.file content)) :
    ∃ content, t.get? (b ++ r) = some (.file content) := by
  obtain ⟨_ | content, he, hkind⟩ := h r _ hr
  · cases hkind.1 rfl
  · exact ⟨content, he⟩

theorem SameOff.refl (A : Location → Prop) (t : Tree) : SameOff A t t := fun _ _ => rfl

theorem SameOff.trans (h₁ : SameOff A t₀ t₁) (h₂ : SameOff A t₁ t₂) : SameOff A t₀ t₂ :=
  fun k hk => (h₂ k hk).trans (h₁ k hk)

theorem SameOff.mono (h : SameOff A t₀ t) (hAB : ∀ k, A k → B k) : SameOff B t₀ t :=
  fun k hk => h k fun ha => hk (hAB k ha)

theorem SameOff.isFolder (h : SameOff A t₀ t) (hA : ¬ A k) : t.isFolder k = t₀.isFolder k := by
  rw [Tree.isFolder, Tree.isFolder, h k hA]

/-- What changes only where nothing was keeps all that was there. -/
theorem SameOff.extends (h : SameOff A t₀ t) (hA : ∀ k, A k → t₀.get? k = none) :
    Extends t₀ t := by
  intro k e hk
  rw [h k fun ha => ?_, hk]
  rw [hA k ha] at hk
  cases hk

/-- A change below a location where nothing was to be kept keeps all that was. -/
theorem Extends.sameOff (h : Extends t₀ t₁) (hs : SameOff (l <+: ·) t₁ t₂)
    (hn : t₀.get? l = none) : Extends t₀ t₂ := by
  intro k e hk
  rw [hs k fun hp => ?_, h k e hk]
  rw [get?_under hn hp] at hk
  cases hk

/-- What is held stays held in a change away from it. -/
theorem Holds.sameOff (h : Holds t₀ a t₁ b) (hs : SameOff A t₁ t₂)
    (hA : ∀ r, t₀.get? (a ++ r) ≠ none → ¬ A (b ++ r)) : Holds t₀ a t₂ b := by
  intro r e hr
  rw [hs _ (hA r (by simp [hr])), h r e hr]

theorem Grows.refl (A : Location → Prop) (t : Tree) : Grows A t t := fun _ => .inl rfl

theorem Grows.trans (h₁ : Grows A t₀ t₁) (h₂ : Grows A t₁ t₂) : Grows A t₀ t₂ := by
  intro k
  rcases h₁ k with h₁ | ⟨hA, h₀, h₁⟩ <;> rcases h₂ k with h₂ | ⟨hA', h₁', h₂⟩
  · exact .inl (h₂.trans h₁)
  · exact .inr ⟨hA', h₁ ▸ h₁', h₂⟩
  · exact .inr ⟨hA, h₀, h₂.trans h₁⟩
  · rw [h₁] at h₁'
    cases h₁'

theorem Grows.mono (h : Grows A t₀ t) (hAB : ∀ k, A k → B k) : Grows B t₀ t := by
  intro k
  rcases h k with h | ⟨hA, h⟩
  · exact .inl h
  · exact .inr ⟨hAB k hA, h⟩

theorem Grows.extends (h : Grows A t₀ t) : Extends t₀ t := by
  intro k e hk
  rcases h k with h | ⟨-, h, -⟩
  · exact h.trans hk
  · rw [h] at hk
    cases hk

theorem Grows.sameOff (h : Grows A t₀ t) : SameOff A t₀ t := by
  intro k hk
  rcases h k with h | ⟨hA, -⟩
  · exact h
  · exact absurd hA hk

/-! ### Edits -/

theorem ne_nil_of_none (h : t.get? k = none) : k ≠ [] := by
  rintro rfl
  cases h

/-- Putting something where nothing is changes nothing else. -/
theorem get?_put_absent {e : Entry} (h : t.get? k = none) (hf : t.isFolder k.dropLast)
    (l : Location) : (t.put k e).get? l = if l = k then some e else t.get? l := by
  rw [get?_put t l e (ne_nil_of_none h) hf]
  split_ifs with h₁ h₂
  · rfl
  · exact (get?_under h h₂).symm
  · rfl

theorem extends_put {e : Entry} (h : t.get? k = none) (hf : t.isFolder k.dropLast) :
    Extends t (t.put k e) := by
  intro l e' hl
  rw [get?_put_absent h hf, if_neg, hl]
  rintro rfl
  rw [h] at hl
  cases hl

theorem grows_put (h : t.get? k = none) (hf : t.isFolder k.dropLast) (hA : A k) :
    Grows A t (t.put k .folder) := by
  intro l
  rw [get?_put_absent h hf]
  split_ifs with hl
  · subst hl
    exact .inr ⟨hA, h, rfl⟩
  · exact .inl rfl

/-- A location that can be moved to another: the target is away from it, in a folder, and holds
nothing but at most an entry of the same kind. -/
structure Movable (t : Tree) (a b : Location) : Prop where
  source : a ≠ []
  target : b ≠ []
  there : t.get? a ≠ none
  apart : ¬ a <+: b
  folder : t.isFolder b.dropLast
  free : ∀ r e, t.get? (b ++ r) = some e → r = [] ∧ (e = .folder ↔ t.isFolder a)

namespace Movable

variable (h : Movable t a b)
include h

theorem get? (k : Location) : (t.move a b).get? k =
    if b <+: k then t.get? (a ++ k.drop b.length) else if a <+: k then none else t.get? k := by
  refine get?_move t k h.source h.target ?_
  rw [isFolder, get?_remove t _ h.source, if_neg, ← isFolder, h.folder]
  exact fun hp => h.apart (hp.trans (List.dropLast_prefix b))

theorem get?_target (r : Location) : (t.move a b).get? (b ++ r) = t.get? (a ++ r) := by
  rw [h.get?, if_pos (List.prefix_append b r), List.drop_left]

/-- A move of a folder keeps all else. -/
theorem get?_of_isFolder (hf : t.isFolder a) (hk : ¬ a <+: k) {e : Entry}
    (he : t.get? k = some e) : (t.move a b).get? k = some e := by
  by_cases hb : b <+: k
  · obtain ⟨r, rfl⟩ := hb
    obtain ⟨rfl, hiff⟩ := h.free r e he
    rw [h.get?_target, List.append_nil, Tree.get?_of_isFolder hf, hiff.2 hf]
  · rw [h.get?, if_neg hb, if_neg hk, he]

theorem holds : Holds t a (t.move a b) b := by
  intro r e hr
  rw [h.get?_target, hr]

/-- Nothing else changes in a move. -/
theorem sameOff : SameOff (fun k => a <+: k ∨ b <+: k) t (t.move a b) := by
  intro k hk
  rw [not_or] at hk
  rw [h.get?, if_neg hk.2, if_neg hk.1]

end Movable

end Tree

/-! ### Disks on their way -/

namespace Disk

/-- The disk after one more edit. -/
def after (d : Disk) (e : Edit) : Disk :=
  { d with tree := e.apply d.tree, journal := e :: d.journal }

@[simp] theorem after_current (d : Disk) (e : Edit) : (d.after e).current = d.current := rfl

/-- Every tree from the one of a disk on, edit by edit, to that of a later one has a property. -/
inductive Through (P : Tree → Prop) : Disk → Disk → Prop
  | rest {d : Disk} : P d.tree → Through P d d
  | step {d d' : Disk} (e : Edit) :
      Through P d d' → P (e.apply d'.tree) → Through P d (d'.after e)

namespace Through

variable {P Q : Tree → Prop} {d d₁ d₂ : Disk}

theorem first (h : Through P d d₁) : P d.tree := by
  induction h with
  | rest h => exact h
  | step _ _ _ ih => exact ih

theorem last (h : Through P d d₁) : P d₁.tree := by
  cases h with
  | rest h => exact h
  | step _ _ h => exact h

theorem current (h : Through P d d₁) : d₁.current = d.current := by
  induction h with
  | rest _ => rfl
  | step _ _ _ ih => exact ih

theorem trans (h₁ : Through P d d₁) (h₂ : Through P d₁ d₂) : Through P d d₂ := by
  induction h₂ with
  | rest _ => exact h₁
  | step e _ h ih => exact ih.step e h

theorem mono (h : Through P d d₁) (hPQ : ∀ t, P t → Q t) : Through Q d d₁ := by
  induction h with
  | rest h => exact .rest (hPQ _ h)
  | step e _ h ih => exact ih.step e (hPQ _ h)

theorem edit {e : Edit} (h₁ : P d.tree) (h₂ : P (e.apply d.tree)) : Through P d (d.after e) :=
  (Through.rest h₁).step e h₂

end Through
end Disk

/-! ### Tasks -/

namespace DiskTask

variable {ε ε' α β : Type} (d : Disk)

theorem on_pure (a : α) : (pure a : DiskTask ε α).on d = (.ok a, d) := rfl

theorem on_throw (e : ε) : (throw e : DiskTask ε α).on d = (.error e, d) := rfl

theorem on_get : (get : DiskTask ε Disk).on d = (.ok d, d) := rfl

theorem on_edit (e : Edit) :
    DiskTask.on (liftM (Disk.edit e) : DiskTask ε Unit) d = (.ok (), d.after e) := rfl

theorem on_bind (x : DiskTask ε α) (f : α → DiskTask ε β) :
    (x >>= f).on d = match x.on d with
      | (.ok a, d') => (f a).on d'
      | (.error e, d') => (.error e, d') := by
  unfold DiskTask.on
  rw [ExceptT.run_bind, StateT.run_bind]
  simp only [Bind.bind]
  generalize StateT.run (ExceptT.run x) d = r
  obtain ⟨a | a, d'⟩ := r <;> rfl

theorem on_adapt (f : ε → ε') (x : DiskTask ε α) :
    DiskTask.on (ExceptT.adapt f x : DiskTask ε' α) d = ((x.on d).1.mapError f, (x.on d).2) := rfl

end DiskTask
end Rollout

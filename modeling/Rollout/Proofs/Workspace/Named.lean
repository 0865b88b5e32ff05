import Mathlib.Tactic.Common
import Rollout.Proofs.Dict
import Rollout.Workspace.Store
import Rollout.Switch.Plan

/-!
# Named projects

In a workspace that was read from a document every project is named by its key and the keys are
sorted (`Document.normal_of_read`). Changing a project by its name then changes that project and
no other (`Workspace.update_eq_ok`).
-/

namespace Rollout

namespace Workspace

/-- Every project is named by its key. -/
def Named (w : Workspace) : Prop := ∀ key p, w.projects.get? key = some p → p.name = key

/-- What a workspace is that was read from a document. -/
structure Normal (w : Workspace) : Prop where
  named : w.Named
  sorted : w.projects.Sorted

theorem get?_named (w : Workspace) (key : String) :
    w.named.projects.get? key = (w.projects.get? key).map fun p => { p with name := key } := by
  unfold named
  simp only
  induction w.projects with
  | nil => rfl
  | cons e rest ih =>
    obtain ⟨k, p⟩ := e
    by_cases hk : k = key
    · subst hk
      simp [Dict.get?]
    · simp [Dict.get?, hk, ih]

theorem named_named (w : Workspace) : w.named.Named := by
  intro key p h
  rw [get?_named] at h
  obtain ⟨q, -, rfl⟩ := Option.map_eq_some_iff.1 h
  rfl

/-- Naming the projects after a change of one is changing it once they are named. -/
theorem named_insert (w : Workspace) (key : String) (p : Project) :
    ({ w with projects := w.projects.insert key p } : Workspace).named =
      { w.named with projects := w.named.projects.insert key { p with name := key } } :=
  congrArg (fun projects => { w with projects })
    (Dict.map_insert (fun key p => { p with name := key }) key p w.projects)

theorem project_eq_ok {w : Workspace} {name : String} {p : Project} :
    w.project name = .ok p ↔ w.projects.get? name = some p := by
  unfold project
  split
  · rename_i q h
    simp [h]
  · rename_i h
    simp [h]

/-- A change by name is a change at a key. -/
theorem update_eq_ok {w : Workspace} {name : String} {p : Project} {f : Project → Project}
    (h : w.project name = .ok p) :
    w.update name f = .ok { w with projects := w.projects.insert name (f p) } := by
  rw [update, h]
  rfl

theorem keys_named (w : Workspace) : w.named.projects.keys = w.projects.keys := by
  simp [named, Dict.keys, Function.comp_def]

end Workspace

namespace Document

theorem sorted_of_dict {α : Type} {reader : Reader α} {room : Nat} {source : Json.Source}
    {d : Dict α} (h : dict reader room source = some d) : d.Sorted := by
  simp only [dict, bind, Option.bind_eq_some_iff] at h
  obtain ⟨⟨room, members⟩, -, entries, -, hd⟩ := h
  cases hd
  exact Dict.sorted_ofEntries entries

theorem sorted_of_field {α : Type} {reader : Reader α} {room : Nat}
    {members : List (String × Json.Source)} {key : String} {d : Dict α}
    (h : field (dict reader) [] room members key = some d) : d.Sorted := by
  simp only [field, bind, Option.bind_eq_some_iff] at h
  obtain ⟨source, -, hd⟩ := h
  cases source with
  | none =>
    cases hd
    exact Dict.sorted_nil
  | some source => exact sorted_of_dict hd

/-- A workspace that was read has sorted keys, and its projects are named by them. -/
theorem normal_of_read {file : Path} {content : String} {w : Workspace}
    (h : read file content = .ok w) : w.Normal := by
  unfold read at h
  split at h
  · cases h
  · rename_i found w' hread
    split at h
    · cases h
      refine ⟨w'.named_named, ?_⟩
      rw [Dict.Sorted, w'.keys_named]
      obtain ⟨source, -, hread⟩ := Option.bind_eq_some_iff.1 hread
      simp only [workspace, bind, Option.bind_eq_some_iff] at hread
      obtain ⟨⟨room, members⟩, -, version, -, info, -, projects, hprojects, build, -,
        environments, -, infrastructure, -, extra, -, hw⟩ := hread
      cases hw
      exact sorted_of_field hprojects
    · cases h

end Document
end Rollout

import Mathlib.Tactic.Common
import Rollout.Dict

/-!
# Sorted dictionaries

A dictionary with sorted keys is determined by its entries (`eq_of_mem_iff`), and look-up finds
just those. Sorting names keeps each of them once (`mem_sortedKeys`).
-/

namespace Rollout

namespace Dict

variable {α β : Type}

instance (d : Dict α) : Decidable d.Sorted := inferInstanceAs (Decidable (List.Pairwise _ _))

/-- In a dictionary with sorted keys, to be an entry is to be found. -/
theorem get?_eq_some_iff {d : Dict α} (h : d.Sorted) {key : String} {v : α} :
    d.get? key = some v ↔ (key, v) ∈ d := by
  induction d with
  | nil => simp [get?]
  | cons e rest ih =>
    obtain ⟨k, w⟩ := e
    obtain ⟨head, tail⟩ := List.pairwise_cons.1 h
    by_cases hk : k = key
    · subst hk
      have hrest : (k, v) ∉ rest := fun hmem =>
        String.lt_irrefl k (head k (List.mem_map_of_mem hmem))
      simp [get?, hrest, eq_comm]
    · simp [get?, hk, ih tail, Ne.symm hk]

theorem mem_of_get? {d : Dict α} {key : String} {v : α} (h : d.get? key = some v) :
    (key, v) ∈ d := by
  induction d with
  | nil => cases h
  | cons e rest ih =>
    obtain ⟨k, w⟩ := e
    rw [get?] at h
    split at h
    · rename_i hk
      cases h
      exact hk ▸ List.mem_cons_self
    · exact List.mem_cons_of_mem _ (ih h)

theorem Sorted.nodup_keys {d : Dict α} (h : d.Sorted) : d.keys.Nodup :=
  List.Pairwise.imp (fun {a b} (hlt : a < b) (heq : a = b) => String.lt_irrefl b (heq ▸ hlt)) h

/-- The entry of a key is the only one with it. -/
theorem filter_key {d : Dict α} (h : d.keys.Nodup) (key : String) :
    List.filter (fun e => e.1 = key) d = ((d.get? key).map (key, ·)).toList := by
  induction d with
  | nil => rfl
  | cons e rest ih =>
    obtain ⟨k, v⟩ := e
    obtain ⟨head, tail⟩ := List.nodup_cons.1 h
    by_cases hk : k = key
    · subst hk
      have hother : ∀ e ∈ rest, e.1 ≠ k := by
        intro e he heq
        have hmem : e.1 ∈ keys rest := List.mem_map_of_mem he
        exact head (heq ▸ hmem)
      have hrest : List.filter (fun e => e.1 = k) rest = [] :=
        List.filter_eq_nil_iff.2 fun e he => by simpa using hother e he
      simp [get?, hrest]
    · simp [get?, hk, ih tail]

theorem get?_eq_head?_filter (key : String) (d : Dict α) :
    d.get? key = (List.head? (List.filter (fun e => e.1 = key) d)).map (·.2) := by
  induction d with
  | nil => rfl
  | cons e rest ih =>
    obtain ⟨k, v⟩ := e
    by_cases hk : k = key <;> simp [get?, hk, ih]

theorem get?_reverse {d : Dict α} (h : d.keys.Nodup) (key : String) :
    get? key d.reverse = d.get? key := by
  have hfilter := filter_key h key
  rw [get?_eq_head?_filter, List.filter_reverse, hfilter]
  cases d.get? key <;> rfl

theorem get?_filter {keep : String × α → Bool} {key : String} (h : ∀ v, keep (key, v) = true)
    (d : Dict α) : get? key (List.filter keep d) = d.get? key := by
  induction d with
  | nil => rfl
  | cons e rest ih =>
    obtain ⟨k, v⟩ := e
    by_cases hk : k = key
    · subst hk
      simp [get?, h]
    · by_cases hkeep : keep (k, v) = true <;> simp [get?, hk, hkeep, ih]

theorem get?_map (f : α → β) (key : String) (d : Dict α) :
    get? key (List.map (fun e => (e.1, f e.2)) d) = (d.get? key).map f := by
  induction d with
  | nil => rfl
  | cons e rest ih =>
    obtain ⟨k, v⟩ := e
    by_cases hk : k = key <;> simp [get?, hk, ih]

theorem mem_keys_iff {key : String} {d : Dict α} : key ∈ d.keys ↔ d.get? key ≠ none := by
  induction d with
  | nil => simp [keys, get?]
  | cons e rest ih =>
    obtain ⟨k, v⟩ := e
    by_cases hk : k = key
    · simp [keys, get?, hk]
    · simp only [keys, List.map_cons, List.mem_cons, get?, if_neg hk] at ih ⊢
      rw [← ih]
      simp [Ne.symm hk]

theorem get?_append (key : String) (d e : Dict α) :
    get? key (d ++ e) = (get? key d).or (get? key e) := by
  induction d with
  | nil => rfl
  | cons entry rest ih =>
    obtain ⟨k, v⟩ := entry
    rw [List.cons_append]
    by_cases hk : k = key
    · simp [get?, hk]
    · simp [get?, hk, ih]

/-- In a union the last entry of the upper layer counts, and then the lower layer. -/
theorem get?_overlay (key : String) (lower upper : Dict α) :
    (overlay lower upper).get? key = (get? key upper.reverse).or (lower.get? key) := by
  unfold overlay
  induction upper generalizing lower with
  | nil => rfl
  | cons e rest ih =>
    obtain ⟨k, v⟩ := e
    rw [List.foldl_cons, ih, List.reverse_cons, get?_append, Option.or_assoc, get?_insert]
    by_cases hk : k = key <;> simp [get?, hk]

/-- Of entries with one key the last counts. -/
theorem get?_ofEntries (key : String) (entries : List (String × α)) :
    (ofEntries entries).get? key = get? key entries.reverse := by
  rw [ofEntries, get?_overlay]
  exact Option.or_none

/-- Replacing a value keeps the keys. -/
theorem keys_insert_of_mem {key : String} {v : α} {d : Dict α} (h : d.Sorted)
    (hmem : key ∈ d.keys) : (d.insert key v).keys = d.keys := by
  induction d with
  | nil => simp [keys] at hmem
  | cons e rest ih =>
    obtain ⟨k, w⟩ := e
    obtain ⟨head, tail⟩ := List.pairwise_cons.1 h
    by_cases hk : key = k
    · subst hk
      simp [insert, keys]
    · have hmem : key ∈ Dict.keys rest := by simpa [keys, hk] using hmem
      have hlt : ¬ key < k := fun hlt => String.lt_irrefl k (String.lt_trans (head key hmem) hlt)
      simp only [insert, if_neg hk, if_neg hlt]
      exact congrArg (k :: ·) (ih tail hmem)

/-- There is one order for the entries of a dictionary with sorted keys. -/
theorem eq_of_mem_iff {d d' : Dict α} (h : d.Sorted) (h' : d'.Sorted)
    (hmem : ∀ e, e ∈ d ↔ e ∈ d') : d = d' := by
  have before {d : Dict α} (h : d.Sorted) : d.Pairwise fun a b => a.1 < b.1 := List.pairwise_map.1 h
  have nodup {d : Dict α} (h : d.Sorted) : d.Nodup :=
    List.Pairwise.imp (fun {a b} (hlt : a.1 < b.1) (heq : a = b) =>
      String.lt_irrefl b.1 (heq ▸ hlt)) (before h)
  have hperm : d.Perm d' := (List.perm_ext_iff_of_nodup (nodup h) (nodup h')).2 hmem
  refine hperm.eq_of_pairwise (fun a b _ _ hab hba => ?_) (before h) (before h')
  exact absurd (String.lt_trans hab hba) (String.lt_irrefl _)

theorem Sorted.filter {d : Dict α} (h : d.Sorted) (keep : String × α → Bool) :
    Sorted (List.filter keep d) := by
  have hpairs : d.Pairwise fun a b => a.1 < b.1 := List.pairwise_map.1 h
  exact List.pairwise_map.2 (hpairs.filter keep)

theorem get?_filter_of_sorted {d : Dict α} (h : d.Sorted) (keep : String × α → Bool)
    (key : String) : get? key (List.filter keep d) = (d.get? key).filter fun v => keep (key, v) := by
  ext v
  rw [get?_eq_some_iff (h.filter keep), List.mem_filter, Option.filter_eq_some_iff,
    get?_eq_some_iff h]

theorem Sorted.set {d : Dict α} (h : d.Sorted) (key : String) (v : Option α) :
    (d.set key v).Sorted := by
  cases v with
  | none => exact h.filter _
  | some v => exact sorted_insert h key v

theorem eq_of_get? {d d' : Dict α} (h : d.Sorted) (h' : d'.Sorted)
    (hget : ∀ key, d.get? key = d'.get? key) : d = d' := by
  refine eq_of_mem_iff h h' fun e => ?_
  rw [← get?_eq_some_iff h, ← get?_eq_some_iff h', hget]

/-- What was at a key is of no account for what is inserted there. -/
theorem insert_set {d : Dict α} (h : d.Sorted) (key : String) (v : Option α) (v' : α) :
    (d.set key v).insert key v' = d.insert key v' := by
  refine eq_of_get? (sorted_insert (h.set key v) key v') (sorted_insert h key v') fun k => ?_
  rw [get?_insert, get?_insert, get?_set]
  split_ifs <;> rfl

theorem mem_of_mem_insert {e : String × α} {key : String} {v : α} {d : Dict α}
    (h : e ∈ d.insert key v) : e = (key, v) ∨ e ∈ d := by
  induction d with
  | nil => exact .inl (List.mem_singleton.1 h)
  | cons head rest ih =>
    obtain ⟨k, w⟩ := head
    simp only [insert] at h
    split at h
    · exact (List.mem_cons.1 h).imp_right (List.mem_cons_of_mem _)
    · split at h
      · exact List.mem_cons.1 h
      · rcases List.mem_cons.1 h with rfl | h
        · exact .inr List.mem_cons_self
        · exact (ih h).imp_right (List.mem_cons_of_mem _)

/-- What is done to each entry by its key is done to a new one as well. -/
theorem map_insert (f : String → α → β) (key : String) (v : α) (d : Dict α) :
    (d.insert key v).map (fun e => (e.1, f e.1 e.2)) =
      Dict.insert key (f key v) (d.map fun e => (e.1, f e.1 e.2)) := by
  induction d with
  | nil => rfl
  | cons e rest ih =>
    obtain ⟨k, w⟩ := e
    simp only [insert, List.map_cons]
    split_ifs
    · rfl
    · rfl
    · rw [List.map_cons, ih]

theorem mem_of_mem_overlay {e : String × α} {lower upper : Dict α} (h : e ∈ overlay lower upper) :
    e ∈ upper ∨ e ∈ lower := by
  unfold overlay at h
  induction upper generalizing lower with
  | nil => exact .inr h
  | cons head rest ih =>
    rcases ih h with hrest | hinsert
    · exact .inl (List.mem_cons_of_mem _ hrest)
    · rcases mem_of_mem_insert hinsert with rfl | hlower
      · exact .inl List.mem_cons_self
      · exact .inr hlower

theorem mem_of_mem_ofEntries {e : String × α} {entries : List (String × α)}
    (h : e ∈ ofEntries entries) : e ∈ entries :=
  (mem_of_mem_overlay h).resolve_right List.not_mem_nil

theorem get?_of_mem {d : Dict α} (h : d.keys.Nodup) {key : String} {v : α} (hmem : (key, v) ∈ d) :
    d.get? key = some v := by
  have hfilter : (key, v) ∈ List.filter (fun e => e.1 = key) d :=
    List.mem_filter.2 ⟨hmem, decide_eq_true rfl⟩
  rw [filter_key h] at hfilter
  simpa using hfilter

/-- Sorting loses no entry where no key is there twice. -/
theorem mem_ofEntries {e : String × α} {entries : List (String × α)} (h : (keys entries).Nodup) :
    e ∈ ofEntries entries ↔ e ∈ entries := by
  refine ⟨mem_of_mem_ofEntries, fun hmem => ?_⟩
  rw [← get?_eq_some_iff (sorted_ofEntries entries), get?_ofEntries, get?_reverse h]
  exact get?_of_mem h hmem

/-- What has a greater key than an entry stands behind it. -/
theorem mem_of_lt {front back : Dict α} {key later : String} {v w : α}
    (h : Sorted (front ++ (key, v) :: back)) (hlt : key < later)
    (hmem : (later, w) ∈ front ++ (key, v) :: back) : (later, w) ∈ back := by
  obtain ⟨-, -, hcross⟩ := List.pairwise_append.1 (List.pairwise_map.1 h)
  rcases List.mem_append.1 hmem with hfront | hrest
  · have hgt : later < key := hcross _ hfront _ List.mem_cons_self
    exact absurd (String.lt_trans hlt hgt) (String.lt_irrefl _)
  · refine (List.mem_cons.1 hrest).resolve_left fun heq => ?_
    cases heq
    exact String.lt_irrefl _ hlt

theorem insert_of_keys_lt {key : String} {d : Dict α} (h : ∀ k ∈ d.keys, k < key) (v : α) :
    d.insert key v = d ++ [(key, v)] := by
  induction d with
  | nil => rfl
  | cons e rest ih =>
    obtain ⟨k, w⟩ := e
    have hk : k < key := h k List.mem_cons_self
    have hne : key ≠ k := fun heq => String.lt_irrefl k (heq ▸ hk)
    have hnot : ¬ key < k := fun hlt => String.lt_irrefl k (String.lt_trans hk hlt)
    rw [insert, if_neg hne, if_neg hnot, ih fun k' hk' => h k' (List.mem_cons_of_mem _ hk')]
    rfl

/-- Above all keys of the lower layer, the upper one is just put behind it. -/
theorem overlay_eq_append {lower upper : Dict α} (h : Sorted (lower ++ upper)) :
    overlay lower upper = lower ++ upper := by
  induction upper generalizing lower with
  | nil => exact (List.append_nil lower).symm
  | cons e rest ih =>
    have hlt : ∀ k ∈ lower.keys, k < e.1 := fun k hk => by
      rw [Sorted, keys, List.map_append] at h
      exact (List.pairwise_append.1 h).2.2 k hk e.1 List.mem_cons_self
    have hstep : overlay lower (e :: rest) = overlay (lower ++ [e]) rest :=
      congrArg (overlay · rest) (insert_of_keys_lt hlt e.2)
    rw [hstep, ih (by simpa using h), List.append_assoc, List.singleton_append]

/-- Entries that are sorted stay as they are. -/
theorem ofEntries_eq_self {d : Dict α} (h : d.Sorted) : ofEntries d = d := overlay_eq_append h

theorem mem_keys_overlay {key : String} {lower upper : Dict α} :
    key ∈ (overlay lower upper).keys ↔ key ∈ upper.keys ∨ key ∈ lower.keys := by
  unfold overlay
  induction upper generalizing lower with
  | nil => simp [keys]
  | cons e rest ih =>
    rw [List.foldl_cons, ih, mem_keys_insert]
    simp only [keys, List.map_cons, List.mem_cons]
    tauto

theorem mem_sortedKeys {name : String} {names : List String} :
    name ∈ sortedKeys names ↔ name ∈ names := by
  unfold sortedKeys ofEntries
  rw [mem_keys_overlay]
  simp [keys]

theorem pairwise_sortedKeys (names : List String) : (sortedKeys names).Pairwise (· < ·) :=
  sorted_ofEntries _

end Dict
end Rollout

/-!
# Dictionaries with sorted keys

A dictionary is a list of entries; every operation here keeps the keys strictly increasing in
the order of their code points, which is also the order in which entries are shown. Lookup
(`get?`) is the view by which the operations are described.
-/

namespace Rollout

/-- Entries with text keys. -/
abbrev Dict (α : Type) := List (String × α)

namespace Dict

variable {α β : Type}

def get? (key : String) : Dict α → Option α
  | [] => none
  | (k, v) :: rest => if k = key then some v else get? key rest

def has (key : String) (d : Dict α) : Bool := (d.get? key).isSome

def keys (d : Dict α) : List String := d.map (·.1)

/-- Adds an entry in its place, or replaces the value at its key. -/
def insert (key : String) (value : α) : Dict α → Dict α
  | [] => [(key, value)]
  | (k, v) :: rest =>
    if key = k then (key, value) :: rest
    else if key < k then (key, value) :: (k, v) :: rest
    else (k, v) :: insert key value rest

def erase (key : String) (d : Dict α) : Dict α := d.filter fun (k, _) => k ≠ key

/-- Replaces the value at a key, or the lack of one. -/
def set (key : String) : Option α → Dict α → Dict α
  | some value, d => d.insert key value
  | none, d => d.erase key

/-- The union; the entries of `upper` win. -/
def overlay (lower upper : Dict α) : Dict α := upper.foldl (fun d (k, v) => d.insert k v) lower

/-- Sorts entries; of two with one key the later wins. -/
def ofEntries (entries : List (String × α)) : Dict α := overlay [] entries

/-- Keys with nothing attached, sorted and without repetition. -/
def sortedKeys (names : List String) : List String :=
  keys (ofEntries (names.map fun name => (name, ())))

def mapValues (f : α → β) (d : Dict α) : Dict β := d.map fun (k, v) => (k, f v)

/-- The keys are strictly increasing. -/
def Sorted (d : Dict α) : Prop := d.keys.Pairwise (· < ·)

theorem get?_nil (key : String) : get? key ([] : Dict α) = none := rfl

theorem get?_insert (key k : String) (v : α) (d : Dict α) :
    (d.insert k v).get? key = if k = key then some v else d.get? key := by
  induction d with
  | nil => simp [insert, get?]
  | cons e rest ih =>
    obtain ⟨k', v'⟩ := e
    simp only [insert]
    split
    · rename_i h
      subst h
      by_cases hk : k = key <;> simp [get?, hk]
    · split
      · simp [get?]
      · rename_i hne _
        simp only [get?, ih]
        by_cases hk : k = key
        · subst hk
          simp [Ne.symm hne]
        · simp [hk]

theorem get?_erase (key k : String) (d : Dict α) :
    (erase k d).get? key = if k = key then none else d.get? key := by
  induction d with
  | nil => simp [erase, get?]
  | cons e rest ih =>
    obtain ⟨k', v'⟩ := e
    by_cases h : k' = k
    · subst h
      simp only [erase, ne_eq, decide_not, decide_true, Bool.not_true, List.filter_cons] at ih ⊢
      simp only [get?]
      by_cases hk : k' = key <;> simp_all
    · simp only [erase, ne_eq, decide_not, List.filter_cons, h, decide_false, Bool.not_false,
        if_true, get?] at ih ⊢
      by_cases hk : k' = key
      · subst hk
        simp [Ne.symm h]
      · simp [hk, ih]

theorem get?_set (key k : String) (v : Option α) (d : Dict α) :
    (d.set k v).get? key = if k = key then v else d.get? key := by
  cases v with
  | none => exact get?_erase key k d
  | some v => exact get?_insert key k v d

theorem mem_keys_insert {key k : String} {v : α} {d : Dict α} :
    key ∈ (d.insert k v).keys ↔ key = k ∨ key ∈ d.keys := by
  induction d with
  | nil => simp [insert, keys]
  | cons e rest ih =>
    obtain ⟨k', v'⟩ := e
    simp only [insert]
    split
    · rename_i h
      subst h
      simp [keys]
    · split
      · simp [keys]
      · simp only [keys, List.map_cons, List.mem_cons] at ih ⊢
        rw [ih]
        exact or_left_comm

theorem sorted_nil : Sorted ([] : Dict α) := List.Pairwise.nil

theorem sorted_insert {d : Dict α} (h : d.Sorted) (k : String) (v : α) :
    (d.insert k v).Sorted := by
  induction d with
  | nil => simp [Dict.insert, Sorted, keys]
  | cons e rest ih =>
    obtain ⟨k', v'⟩ := e
    obtain ⟨head, tail⟩ := List.pairwise_cons.1 h
    simp only [Dict.insert]
    split
    · rename_i hk
      subst hk
      exact List.pairwise_cons.2 ⟨head, tail⟩
    · split
      · rename_i hk
        refine List.pairwise_cons.2 ⟨?_, h⟩
        intro a ha
        rcases List.mem_cons.1 ha with rfl | ha
        · exact hk
        · exact String.lt_trans hk (head a ha)
      · rename_i hne hlt
        refine List.pairwise_cons.2 ⟨?_, ih tail⟩
        intro a ha
        rcases mem_keys_insert.1 ha with rfl | ha
        · exact Decidable.byContradiction fun h' =>
            hne (String.le_antisymm (String.not_lt.1 h') (String.not_lt.1 hlt))
        · exact head a ha

theorem sorted_overlay {lower : Dict α} (h : lower.Sorted) (upper : Dict α) :
    (overlay lower upper).Sorted := by
  unfold Dict.overlay
  induction upper generalizing lower with
  | nil => exact h
  | cons e rest ih => exact ih (sorted_insert h e.1 e.2)

theorem sorted_ofEntries (entries : List (String × α)) : (ofEntries entries).Sorted :=
  sorted_overlay sorted_nil entries

end Dict
end Rollout

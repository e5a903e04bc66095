/-!
# `Hallmark/Table.lean` — tables in order of first entry

A table has at most one value for each key. A key keeps the place of its first entry and has the value
of its last. Main statements: `get?_insert` says what a table answers after an entry, `size_insert` how
many keys it has.
-/

set_option autoImplicit false

namespace Hallmark

variable {κ α : Type} [DecidableEq κ]

/-- Enters a value for a key into a list of entries. -/
def insertEntry (key : κ) (value : α) : List (κ × α) → List (κ × α)
  | [] => [(key, value)]
  | entry :: rest =>
    if entry.1 = key then (key, value) :: rest else entry :: insertEntry key value rest

/-- The keys stay, or the new key comes last. -/
theorem map_fst_insertEntry (key : κ) (value : α) (entries : List (κ × α)) :
    (insertEntry key value entries).map Prod.fst =
      if key ∈ entries.map Prod.fst then entries.map Prod.fst else entries.map Prod.fst ++ [key] := by
  induction entries with
  | nil => simp [insertEntry]
  | cons entry rest ih =>
    by_cases h : entry.1 = key
    · simp [insertEntry, h]
    · have h' : ¬ key = entry.1 := fun e => h e.symm
      simp only [insertEntry, h, if_false, List.map_cons, ih, List.mem_cons, h', false_or]
      split <;> simp

theorem lookup_insertEntry (key other : κ) (value : α) (entries : List (κ × α)) :
    (insertEntry key value entries).lookup other =
      if other = key then some value else entries.lookup other := by
  induction entries with
  | nil =>
    by_cases h : other = key
    · simp [insertEntry, h]
    · simp [insertEntry, List.lookup_cons, h, beq_eq_false_iff_ne.2 h]
  | cons entry rest ih =>
    obtain ⟨k, v⟩ := entry
    by_cases h : k = key
    · subst h
      by_cases ho : other = k
      · simp [insertEntry, ho]
      · simp [insertEntry, List.lookup_cons, ho, beq_eq_false_iff_ne.2 ho]
    · by_cases ho : other = k
      · subst ho
        simp [insertEntry, h]
      · simp [insertEntry, h, List.lookup_cons, beq_eq_false_iff_ne.2 ho, ih]

/-- Values for keys, in order of first entry. -/
structure Table (κ α : Type) where
  entries : List (κ × α) := []
  distinct : (entries.map Prod.fst).Nodup := by simp
deriving Repr

instance : Inhabited (Table κ α) := ⟨{}⟩

namespace Table

def get? (table : Table κ α) (key : κ) : Option α := table.entries.lookup key

/-- Enters a value for a key, in place of an earlier one. -/
def insert (table : Table κ α) (key : κ) (value : α) : Table κ α where
  entries := insertEntry key value table.entries
  distinct := by
    rw [map_fst_insertEntry]
    split
    · exact table.distinct
    · rename_i h
      exact List.nodup_append.2 ⟨table.distinct, by simp, by
        rintro a ha b hb rfl
        exact h (List.mem_singleton.1 hb ▸ ha)⟩

def erase (table : Table κ α) (key : κ) : Table κ α where
  entries := table.entries.filter fun entry => entry.1 != key
  distinct := by
    have := table.distinct
    rw [List.Nodup, List.pairwise_map] at this ⊢
    exact this.filter _

/-- Forgets every key. -/
def clear (_ : Table κ α) : Table κ α := {}

def size (table : Table κ α) : Nat := table.entries.length

/-- The keys in order of first entry. -/
def keys (table : Table κ α) : List κ := table.entries.map Prod.fst

@[simp] theorem get?_empty (key : κ) : get? ({} : Table κ α) key = none := rfl

theorem mem_keys_iff {table : Table κ α} {key : κ} : key ∈ table.keys ↔ (table.get? key).isSome := by
  rw [keys, get?]
  induction table.entries with
  | nil => simp
  | cons entry rest ih =>
    obtain ⟨k, v⟩ := entry
    by_cases h : key = k
    · simp [h]
    · simp [List.lookup_cons, beq_eq_false_iff_ne.2 h, h, ih]

theorem get?_insert (table : Table κ α) (key other : κ) (value : α) :
    (table.insert key value).get? other = if other = key then some value else table.get? other :=
  lookup_insertEntry key other value table.entries

theorem size_insert (table : Table κ α) (key : κ) (value : α) :
    (table.insert key value).size = if key ∈ table.keys then table.size else table.size + 1 := by
  have h := congrArg List.length (map_fst_insertEntry key value table.entries)
  simp only [List.length_map] at h
  simp only [size, insert, keys, h]
  by_cases hk : key ∈ table.entries.map Prod.fst <;> simp only [hk, if_true, if_false] <;> simp

end Table

end Hallmark

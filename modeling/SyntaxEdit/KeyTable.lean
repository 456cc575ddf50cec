/-
Tables keyed by strings and listed in ascending order of their keys.

* `KeyTable.get?`, `KeyTable.insert` — look-up, and an entry that replaces the one with its key;
* `get?_insert`, `get?_insertAll`, `get?_insertAll_const` — what a look-up finds after one
  insertion, after those of another table, and after several with the same value;
* `mem_keys_iff`, `mem_entries_iff` — the keys and entries, told by look-ups.

A table carries the proof that its keys are in ascending order, which insertions keep
(`pairwise_keys_insertEntry`).
-/

namespace SyntaxEdit

/-- Entries in ascending order of their keys, at most one for each key. -/
structure KeyTable (α : Type) where
  entries : List (String × α)
  ascending : (entries.map Prod.fst).Pairwise (· < ·)
deriving DecidableEq

namespace KeyTable

variable {α : Type}

/-- The table without entries. -/
def empty : KeyTable α := ⟨[], .nil⟩

/-- Put an entry in its place in an ascending list. -/
def insertEntry (key : String) (value : α) : List (String × α) → List (String × α)
  | [] => [(key, value)]
  | (k, v) :: rest =>
    if key < k then (key, value) :: (k, v) :: rest
    else if key = k then (key, value) :: rest
    else (k, v) :: insertEntry key value rest

/-- No key comes in but that of the entry. -/
theorem mem_keys_insertEntry {key k : String} {value : α} {entries : List (String × α)}
    (h : k ∈ (insertEntry key value entries).map Prod.fst) :
    k = key ∨ k ∈ entries.map Prod.fst := by
  fun_induction insertEntry key value entries with
  | case1 => simpa using h
  | case2 => simpa using h
  | case3 v rest hbefore =>
    simp only [List.map_cons, List.mem_cons] at h ⊢
    exact h.imp_right Or.inr
  | case4 k' v rest hbefore hsame ih =>
    simp only [List.map_cons, List.mem_cons] at h ⊢
    rcases h with rfl | h
    · exact Or.inr (Or.inl rfl)
    · exact (ih h).imp_right Or.inr

/-- An insertion keeps the keys in ascending order. -/
theorem pairwise_keys_insertEntry (key : String) (value : α) (entries : List (String × α))
    (h : (entries.map Prod.fst).Pairwise (· < ·)) :
    ((insertEntry key value entries).map Prod.fst).Pairwise (· < ·) := by
  fun_induction insertEntry key value entries with
  | case1 => simp
  | case2 k' v rest hbefore =>
    -- The new key stands before the first one, and so before all.
    refine List.pairwise_cons.2 ⟨fun other hother => ?_, h⟩
    rcases List.mem_cons.1 hother with rfl | hrest
    · exact hbefore
    · exact String.lt_trans hbefore ((List.pairwise_cons.1 h).1 other hrest)
  | case3 v rest => exact h
  | case4 k' v rest hbefore hsame ih =>
    obtain ⟨hfirst, hrest⟩ := List.pairwise_cons.1 h
    have hafter : k' < key := Std.lt_of_le_of_ne (String.not_lt.1 hbefore) (Ne.symm hsame)
    refine List.pairwise_cons.2 ⟨fun other hother => ?_, ih hrest⟩
    rcases mem_keys_insertEntry hother with rfl | hold
    · exact hafter
    · exact hfirst other hold

/-- The table with an entry; an entry with the same key is replaced. -/
def insert (table : KeyTable α) (key : String) (value : α) : KeyTable α :=
  ⟨insertEntry key value table.entries, pairwise_keys_insertEntry key value _ table.ascending⟩

/-- The table with several entries, put in one after the other. -/
def insertAll (table : KeyTable α) (entries : List (String × α)) : KeyTable α :=
  entries.foldl (fun t (key, value) => t.insert key value) table

/-- The table of some entries; of those with one key the last counts. -/
def ofList (entries : List (String × α)) : KeyTable α :=
  empty.insertAll entries

/-- The value at a key. -/
def get? (table : KeyTable α) (key : String) : Option α :=
  (table.entries.find? fun entry => entry.1 = key).map Prod.snd

/-- The keys in ascending order. -/
def keys (table : KeyTable α) : List String :=
  table.entries.map Prod.fst

/-- The values in the order of their keys. -/
def values (table : KeyTable α) : List α :=
  table.entries.map Prod.snd

theorem find?_insertEntry (key k : String) (value : α) (entries : List (String × α)) :
    ((insertEntry key value entries).find? fun entry => entry.1 = k) =
      if key = k then some (key, value) else entries.find? fun entry => entry.1 = k := by
  induction entries with
  | nil => by_cases h : key = k <;> simp [insertEntry, h]
  | cons entry rest ih =>
    obtain ⟨k', v⟩ := entry
    simp only [insertEntry]
    split
    · by_cases h : key = k <;> simp [h]
    · split
      · rename_i same
        subst same
        by_cases h : key = k <;> simp [h]
      · rename_i differs
        by_cases h : key = k
        · subst h
          simp [Ne.symm differs, ih]
        · simp only [List.find?_cons, ih, h, if_false]

/-- A look-up after an insertion finds the new value at its key, and the old ones elsewhere. -/
theorem get?_insert (table : KeyTable α) (key k : String) (value : α) :
    (table.insert key value).get? k = if key = k then some value else table.get? k := by
  simp only [get?, insert, find?_insertEntry]
  split <;> rfl

@[simp] theorem get?_empty (key : String) : (empty : KeyTable α).get? key = none := rfl

/-- After one value was put in at several keys, a look-up finds it at these and the old ones
elsewhere. -/
theorem get?_insertAll_const (table : KeyTable α) (keys : List String) (value : α) (key : String) :
    (table.insertAll (keys.map fun k => (k, value))).get? key =
      if key ∈ keys then some value else table.get? key := by
  induction keys generalizing table with
  | nil => rfl
  | cons k rest ih =>
    show ((table.insert k value).insertAll (rest.map fun k => (k, value))).get? key = _
    rw [ih, get?_insert]
    by_cases hrest : key ∈ rest
    · rw [if_pos hrest, if_pos (List.mem_cons_of_mem k hrest)]
    · rw [if_neg hrest]
      by_cases hkey : k = key
      · rw [if_pos hkey, if_pos (hkey ▸ List.mem_cons_self)]
      · have hnot : key ∉ k :: rest := by
          simpa [hrest] using fun h => hkey h.symm
        rw [if_neg hkey, if_neg hnot]

/-! ### Keys -/

/-- The keys are those that a look-up finds a value at. -/
theorem mem_keys_iff (table : KeyTable α) (key : String) :
    key ∈ table.keys ↔ ∃ value, table.get? key = some value := by
  constructor
  · intro h
    obtain ⟨entry, hmem, rfl⟩ := List.mem_map.1 h
    cases hfound : table.entries.find? fun other => other.1 = entry.1 with
    | none =>
      have hdiffers := List.find?_eq_none.1 hfound entry hmem
      simp at hdiffers
    | some found => exact ⟨found.2, by rw [get?, hfound]; rfl⟩
  · rintro ⟨value, h⟩
    obtain ⟨entry, hfound, -⟩ := Option.map_eq_some_iff.1 h
    have hsame : entry.1 = key := by simpa using List.find?_some hfound
    exact hsame ▸ List.mem_map_of_mem (List.mem_of_find?_eq_some hfound)

/-- The entries are what a look-up finds. -/
theorem mem_entries_iff {table : KeyTable α} {key : String} {value : α} :
    (key, value) ∈ table.entries ↔ table.get? key = some value := by
  obtain ⟨entries, hascending⟩ := table
  induction entries with
  | nil => simp [get?]
  | cons entry rest ih =>
    obtain ⟨k, v⟩ := entry
    obtain ⟨hfirst, hrest⟩ := List.pairwise_cons.1 hascending
    by_cases hkey : k = key
    · -- The keys of the other entries come later, so this one is the only entry with its key.
      have hnot : (key, value) ∉ rest := fun hmem =>
        String.lt_irrefl key (hkey ▸ hfirst key (List.mem_map_of_mem hmem))
      simp [get?, hkey, hnot, eq_comm]
    · have hsame : get? ⟨(k, v) :: rest, hascending⟩ key = get? ⟨rest, hrest⟩ key := by
        simp [get?, hkey]
      rw [hsame, ← ih hrest]
      simp [Ne.symm hkey]

theorem get?_eq_none_of_notMem {table : KeyTable α} {key : String} (h : key ∉ table.keys) :
    table.get? key = none := by
  rw [Option.eq_none_iff_forall_ne_some]
  exact fun value hvalue => h ((mem_keys_iff table key).2 ⟨value, hvalue⟩)

/-- After the entries of another table were put in, a look-up finds the value that this one has, or
else the old one. -/
theorem get?_insertAll (table other : KeyTable α) (key : String) :
    (table.insertAll other.entries).get? key = (other.get? key).or (table.get? key) := by
  obtain ⟨entries, hascending⟩ := other
  induction entries generalizing table with
  | nil => rfl
  | cons entry rest ih =>
    obtain ⟨k, value⟩ := entry
    obtain ⟨hfirst, hrest⟩ := List.pairwise_cons.1 hascending
    show ((table.insert k value).insertAll rest).get? key = _
    rw [ih _ hrest, get?_insert]
    by_cases hkey : k = key
    · -- The keys of the other entries come later, so none of them replaces this value.
      have hnone : get? ⟨rest, hrest⟩ key = none :=
        get?_eq_none_of_notMem fun hmem => String.lt_irrefl key (hkey ▸ hfirst key hmem)
      rw [hnone, if_pos hkey]
      simp [get?, hkey]
    · rw [if_neg hkey]
      simp [get?, hkey]

end KeyTable

end SyntaxEdit

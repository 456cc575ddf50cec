/-
Entries about nodes, one for each node and in document order.

* `firstOfEach` — the first entry for each key;
* `inDocumentOrder` — the first entry for each node, by where the nodes start, and at one start the
  longer ones first;
* `mem_firstOfEach`, `exists_mem_firstOfEach` — nothing is made up, and no key is lost;
* `nodup_map_firstOfEach` — no key is kept twice.
-/
import SyntaxEdit.Tree.Node

namespace SyntaxEdit

/-- The first of the entries with each key, in their order. -/
def firstOfEach {α κ : Type} [DecidableEq κ] (key : α → κ) : List α → List α
  | [] => []
  | entry :: rest => entry :: (firstOfEach key rest).filter fun other => key other ≠ key entry

theorem mem_firstOfEach {α κ : Type} [DecidableEq κ] {key : α → κ} {entries : List α} {a : α}
    (h : a ∈ firstOfEach key entries) : a ∈ entries := by
  induction entries with
  | nil => exact h
  | cons entry rest ih =>
    rw [firstOfEach, List.mem_cons, List.mem_filter] at h
    rcases h with rfl | ⟨h, _⟩
    · exact List.mem_cons_self
    · exact List.mem_cons_of_mem _ (ih h)

/-- The entry kept for a key. -/
theorem exists_mem_firstOfEach {α κ : Type} [DecidableEq κ] {key : α → κ} {entries : List α} {a : α}
    (h : a ∈ entries) : ∃ b ∈ firstOfEach key entries, key b = key a := by
  induction entries with
  | nil => cases h
  | cons entry rest ih =>
    by_cases same : key a = key entry
    · exact ⟨entry, List.mem_cons_self, same.symm⟩
    · rcases List.mem_cons.1 h with rfl | h
      · exact absurd rfl same
      · obtain ⟨b, kept, eq⟩ := ih h
        refine ⟨b, List.mem_cons_of_mem _ (List.mem_filter.2 ⟨kept, ?_⟩), eq⟩
        simpa [eq] using same

/-- No key is kept twice. -/
theorem nodup_map_firstOfEach {α κ : Type} [DecidableEq κ] (key : α → κ) (entries : List α) :
    ((firstOfEach key entries).map key).Nodup := by
  induction entries with
  | nil => exact List.nodup_nil
  | cons entry rest ih =>
    rw [firstOfEach, List.map_cons, List.nodup_cons]
    refine ⟨fun hmem => ?_, ih.sublist (List.filter_sublist.map key)⟩
    obtain ⟨other, hother, same⟩ := List.mem_map.1 hmem
    simp [same] at hother

/-- Whether a node comes before another, or could: it starts earlier, or at the same offset and ends
no earlier. -/
def Located.precedes (m n : Located) : Bool :=
  m.start < n.start || (m.start == n.start && n.stop ≤ m.stop)

/-- The first entry for each node, sorted by their nodes. -/
def inDocumentOrder {α : Type} (nodeOf : α → Located) (entries : List α) : List α :=
  (firstOfEach (fun entry => (nodeOf entry).address) entries).mergeSort fun a b =>
    (nodeOf a).precedes (nodeOf b)

end SyntaxEdit

import DebugAdapter.Json.Basic

/-!
# Entering keys

Keys may be entered in any order, and of two values for one key the later one stays. So it makes no
difference whether a value stands in a list from the start or replaces another one in the end:
`sortKeys_cons`.
-/

namespace DebugAdapter.Json

section

variable {α : Type}

theorem insertKey_insertKey (key : String) (a b : α) (entries : List (String × α)) :
    insertKey key a (insertKey key b entries) = insertKey key a entries := by
  induction entries with
  | nil => grind [insertKey]
  | cons e entries ih => grind [insertKey]

theorem insertKey_comm {k l : String} (h : k ≠ l) (a b : α) (entries : List (String × α)) :
    insertKey k a (insertKey l b entries) = insertKey l b (insertKey k a entries) := by
  induction entries with
  | nil => grind [insertKey]
  | cons e entries ih => grind [insertKey]

theorem foldl_insertKey {key : String} (a : α) {entries : List (String × α)}
    (h : ∀ e ∈ entries, e.1 ≠ key) (sorted : List (String × α)) :
    entries.foldl (fun sorted e => insertKey e.1 e.2 sorted) (insertKey key a sorted) =
      insertKey key a (entries.foldl (fun sorted e => insertKey e.1 e.2 sorted) sorted) := by
  induction entries generalizing sorted with
  | nil => rfl
  | cons e entries ih =>
    rw [List.foldl_cons, insertKey_comm (h e List.mem_cons_self),
      ih fun e' he => h e' (List.mem_cons_of_mem _ he)]
    rfl

theorem sortKeys_cons {key : String} (a b : α) {entries : List (String × α)}
    (h : ∀ e ∈ entries, e.1 ≠ key) :
    sortKeys ((key, a) :: entries) = insertKey key a (sortKeys ((key, b) :: entries)) := by
  have hreplace : insertKey key a (insertKey key b []) = insertKey key a [] :=
    insertKey_insertKey key a b []
  rw [sortKeys, sortKeys, List.foldl_cons, List.foldl_cons, ← hreplace, foldl_insertKey a h]

end

theorem mem_orderedEntries {e : String × Json} {entries : List (String × Json)}
    (h : e ∈ orderedEntries entries) : ∃ f ∈ entries, f.1 = e.1 := by
  induction entries with
  | nil => cases h
  | cons f entries ih =>
    obtain ⟨k, j⟩ := f
    rw [orderedEntries, List.mem_cons] at h
    obtain rfl | h := h
    · exact ⟨(k, j), List.mem_cons_self, rfl⟩
    · obtain ⟨f, hf, hk⟩ := ih h
      exact ⟨f, List.mem_cons_of_mem _ hf, hk⟩

end DebugAdapter.Json

import Mathlib.Data.List.Nodup

/-! # Lists whose items have distinct keys

    Requests of a connection and calls of a client are looked up by their
    numbers in lists.  Where no two items share a key, the item that a look-up
    finds is the only one with its key, so that the list is that item and the
    others in some order (`List.perm_of_find?`), and what stands with a key is
    what a look-up finds (`List.find?_eq_some_of_mem`,
    `List.lookup_eq_some_of_unique`). -/

namespace List

variable {α κ : Type} [DecidableEq κ] {key : α → κ}

theorem key_of_find? {items : List α} {k : κ} {item : α}
    (found : items.find? (fun other => key other = k) = some item) : key item = k :=
  of_decide_eq_true (List.find?_some (p := fun other => decide (key other = k)) found)

/-- The item with a key, and the others. -/
theorem perm_of_find? {items : List α} {k : κ} {item : α} (nodup : (items.map key).Nodup)
    (found : items.find? (fun other => key other = k) = some item) :
    items.Perm (item :: items.filter fun other => key other ≠ k) := by
  have named := key_of_find? found
  obtain ⟨-, before, after, rfl, others⟩ := List.find?_eq_some_iff_append.mp found
  have first : ∀ other ∈ before, key other ≠ k := by
    intro other mem
    simpa using others other mem
  have last : ∀ other ∈ after, key other ≠ k := by
    intro other mem same
    rw [List.map_append, List.map_cons] at nodup
    have alone := (List.nodup_cons.mp (List.nodup_append.mp nodup).2.1).1
    exact alone (List.mem_map.mpr ⟨other, mem, same.trans named.symm⟩)
  rw [List.filter_append, List.filter_cons, if_neg (by simp [named]),
    List.filter_eq_self.mpr (by simpa using first), List.filter_eq_self.mpr (by simpa using last)]
  exact List.perm_middle

/-- An item is the one that is found with its key. -/
theorem find?_eq_some_of_mem {items : List α} (nodup : (items.map key).Nodup) {item : α}
    (mem : item ∈ items) : items.find? (fun other => key other = key item) = some item := by
  induction items with
  | nil => exact nomatch mem
  | cons first items ih =>
      obtain ⟨alone, nodup⟩ := List.nodup_cons.mp nodup
      rcases mem_cons.mp mem with rfl | mem
      · exact find?_cons_of_pos (by simp)
      · have other : key first ≠ key item := fun same =>
          alone (mem_map.mpr ⟨item, mem, same.symm⟩)
        rw [find?_cons_of_neg (by simpa using other)]
        exact ih nodup mem

/-- A key has a value if it stands with no other one. -/
theorem lookup_eq_some_of_unique {β : Type} {entries : List (κ × β)} {k : κ} {value : β}
    (mem : (k, value) ∈ entries)
    (unique : ∀ entry ∈ entries, entry.1 = k → entry.2 = value) :
    entries.lookup k = some value := by
  induction entries with
  | nil => exact nomatch mem
  | cons entry entries ih =>
      obtain ⟨other, value'⟩ := entry
      by_cases same : k = other
      · rw [lookup_cons, beq_iff_eq.mpr same]
        exact congrArg some (unique _ (.head _) same.symm)
      · rw [lookup_cons, beq_eq_false_iff_ne.mpr same]
        rcases mem_cons.mp mem with first | mem
        · exact absurd (congrArg Prod.fst first) same
        · exact ih mem fun entry mem => unique entry (.tail _ mem)

end List

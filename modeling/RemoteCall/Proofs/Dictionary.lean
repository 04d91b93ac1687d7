import RemoteCall.Dictionary

/-! # What the entries of a dictionary are after a change

    The entries of a dictionary are those that its keys have, each once.  So
    an insertion is told, up to the order, by the other entries and the new one
    (`insert_perm`), and a restriction by what passes it (`get?_filter`). -/

namespace RemoteCall.Dictionary

variable {α : Type}

/-- No key stands twice. -/
theorem nodup_keys (dictionary : Dictionary α) : dictionary.keys.Nodup := by
  rw [keys, List.Nodup, List.pairwise_map]
  refine dictionary.increasing.imp fun {a b} less (same : a.1 = b.1) => ?_
  exact String.lt_irrefl b.1 (same ▸ less)

/-- The keys are those that have something. -/
theorem mem_keys_iff {dictionary : Dictionary α} {key : String} :
    key ∈ dictionary.keys ↔ dictionary.contains key = true := by
  rw [contains, Option.isSome_iff_exists, keys, List.mem_map]
  constructor
  · rintro ⟨⟨_, value⟩, mem, rfl⟩
    exact ⟨value, get?_eq_some_iff.mpr mem⟩
  · rintro ⟨value, found⟩
    exact ⟨(key, value), get?_eq_some_iff.mp found, rfl⟩

/-- Erasing a key that has nothing changes nothing. -/
theorem erase_of_get?_eq_none {dictionary : Dictionary α} {key : String}
    (h : dictionary.get? key = none) : dictionary.erase key = dictionary := by
  refine ext_get? fun other => ?_
  rw [get?_erase]
  split
  · next same => rw [same, h]
  · rfl

/-- At most one entry has a key. -/
theorem filterMap_entries {β : Type} (f : α → β) (dictionary : Dictionary α) (key : String) :
    (dictionary.entries.filterMap fun entry => if key = entry.1 then some (f entry.2) else none)
      = ((dictionary.get? key).map f).toList := by
  obtain ⟨entries, increasing⟩ := dictionary
  rw [get?]
  induction entries with
  | nil => rfl
  | cons entry rest ih =>
      obtain ⟨first, tail⟩ := List.pairwise_cons.mp increasing
      rw [List.filterMap_cons, ih tail, lookup_cons]
      by_cases same : key = entry.1
      · have later : rest.lookup key = none := lookup_eq_none fun other mem eq =>
          String.lt_irrefl entry.1 (eq.trans same ▸ first other mem)
        rw [if_pos same, if_pos same, later]
        rfl
      · rw [if_neg same, if_neg same]

/-- Erasing a key that has something takes one entry. -/
theorem size_erase {dictionary : Dictionary α} {key : String} {value : α}
    (found : dictionary.get? key = some value) :
    (dictionary.erase key).size + 1 = dictionary.size := by
  have alone := congrArg List.length (filterMap_entries id dictionary key)
  rw [found, List.length_filterMap_eq_countP] at alone
  have parts := dictionary.entries.length_eq_countP_add_countP fun entry => entry.1 ≠ key
  have one : dictionary.entries.countP (fun entry => ¬ (decide (entry.1 ≠ key)) = true) = 1 := by
    rw [← show _ = 1 from alone]
    refine List.countP_congr fun entry _ => ?_
    by_cases same : key = entry.1
    · simp [same]
    · simp [same, Ne.symm same]
  rw [one, List.countP_eq_length_filter] at parts
  exact parts.symm

theorem get?_filter (p : String → α → Bool) (dictionary : Dictionary α) (key : String) :
    (dictionary.filter p).get? key = (dictionary.get? key).filter (p key) := by
  ext value
  rw [get?_eq_some_iff, Option.filter_eq_some_iff, get?_eq_some_iff, filter, List.mem_filter]

theorem insertEntry_perm (key : String) (value : α) {entries : List (String × α)}
    (h : entries.Pairwise fun a b => a.1 < b.1) :
    (insertEntry key value entries).Perm
      ((key, value) :: entries.filter fun entry => entry.1 ≠ key) := by
  induction entries with
  | nil => exact .refl _
  | cons entry rest ih =>
      obtain ⟨first, tail⟩ := List.pairwise_cons.mp h
      -- behind an entry with the key or a greater one, no entry has the key
      have others (le : key ≤ entry.1) : rest.filter (fun entry => entry.1 ≠ key) = rest := by
        refine List.filter_eq_self.mpr fun other mem => decide_eq_true fun same => ?_
        exact String.not_lt.mpr le (same ▸ first other mem)
      rw [insertEntry]
      by_cases less : key < entry.1
      · have apart : entry.1 ≠ key := fun same => String.lt_irrefl key (same ▸ less)
        rw [if_pos less, List.filter_cons_of_pos (by simp [apart]),
          others (String.not_lt.mp (String.lt_asymm less))]
      · rw [if_neg less]
        by_cases same : key = entry.1
        · rw [if_pos same, List.filter_cons_of_neg (by simp [same]),
            others (same ▸ String.le_refl key)]
        · rw [if_neg same, List.filter_cons_of_pos (by simp [Ne.symm same])]
          exact ((ih tail).cons entry).trans (.swap ..)

/-- An insertion leaves the entries of the other keys and adds one. -/
theorem insert_perm (dictionary : Dictionary α) (key : String) (value : α) :
    (dictionary.insert key value).entries.Perm
      ((key, value) :: dictionary.entries.filter fun entry => entry.1 ≠ key) :=
  insertEntry_perm key value dictionary.increasing

end RemoteCall.Dictionary

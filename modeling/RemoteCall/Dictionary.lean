/-!
# Dictionaries

A dictionary has a value for each of finitely many keys and lists them in increasing order of the
keys; the order of the entries is part of the type. What `insert`, `erase` and `ofList` do is told by
what a key has afterwards (`get?_insert`, `get?_erase`), and a dictionary is told by what its keys have
(`ext_get?`).
-/

namespace RemoteCall

/-- Keys in increasing order, each with its value. -/
structure Dictionary (α : Type) where
  entries : List (String × α)
  increasing : entries.Pairwise fun a b => a.1 < b.1

namespace Dictionary

variable {α : Type}

/-- The dictionary without keys. -/
def empty : Dictionary α :=
  ⟨[], .nil⟩

/-- Increasing entries with a value for one more key. -/
def insertEntry (key : String) (value : α) : List (String × α) → List (String × α)
  | [] => [(key, value)]
  | entry :: rest =>
    if key < entry.1 then (key, value) :: entry :: rest
    else if key = entry.1 then (key, value) :: rest
    else entry :: insertEntry key value rest

theorem mem_insertEntry {key : String} {value : α} {entries : List (String × α)}
    {e : String × α} (h : e ∈ insertEntry key value entries) : e = (key, value) ∨ e ∈ entries := by
  induction entries with
  | nil => simpa [insertEntry] using h
  | cons entry rest ih =>
    simp only [insertEntry] at h
    split at h
    · simpa using h
    · split at h
      · rcases List.mem_cons.mp h with rfl | h
        · exact .inl rfl
        · exact .inr (List.mem_cons_of_mem _ h)
      · rcases List.mem_cons.mp h with rfl | h
        · exact .inr (List.mem_cons_self ..)
        · exact (ih h).imp_right (List.mem_cons_of_mem _)

theorem increasing_insertEntry (key : String) (value : α) {entries : List (String × α)}
    (h : entries.Pairwise fun a b => a.1 < b.1) :
    (insertEntry key value entries).Pairwise fun a b => a.1 < b.1 := by
  induction entries with
  | nil => simp [insertEntry]
  | cons entry rest ih =>
    obtain ⟨first, tail⟩ := List.pairwise_cons.mp h
    simp only [insertEntry]
    split
    · next lt =>
      refine List.pairwise_cons.mpr ⟨fun e mem => ?_, h⟩
      rcases List.mem_cons.mp mem with rfl | mem
      · exact lt
      · exact String.lt_trans lt (first e mem)
    · split
      · next eq => exact List.pairwise_cons.mpr ⟨fun e mem => eq ▸ first e mem, tail⟩
      · next nlt neq =>
        refine List.pairwise_cons.mpr ⟨fun e mem => ?_, ih tail⟩
        rcases mem_insertEntry mem with rfl | mem
        · rcases Std.lt_trichotomy entry.1 key with lt | eq | gt
          · exact lt
          · exact absurd eq.symm neq
          · exact absurd gt nlt
        · exact first e mem

/-- Increasing entries without a key. -/
theorem increasing_filter (p : String × α → Bool) {entries : List (String × α)}
    (h : entries.Pairwise fun a b => a.1 < b.1) :
    (entries.filter p).Pairwise fun a b => a.1 < b.1 :=
  h.sublist List.filter_sublist

/-- The dictionary in which a key has a new value. -/
def insert (dictionary : Dictionary α) (key : String) (value : α) : Dictionary α :=
  ⟨insertEntry key value dictionary.entries, increasing_insertEntry key value dictionary.increasing⟩

/-- The dictionary in which a key has no value. -/
def erase (dictionary : Dictionary α) (key : String) : Dictionary α :=
  ⟨dictionary.entries.filter fun entry => entry.1 ≠ key, increasing_filter _ dictionary.increasing⟩

/-- The value of a key. -/
def get? (dictionary : Dictionary α) (key : String) : Option α :=
  dictionary.entries.lookup key

/-- Whether a key has a value. -/
def contains (dictionary : Dictionary α) (key : String) : Bool :=
  (dictionary.get? key).isSome

/-- The keys in increasing order. -/
def keys (dictionary : Dictionary α) : List String :=
  dictionary.entries.map (·.1)

/-- The values in the order of their keys. -/
def values (dictionary : Dictionary α) : List α :=
  dictionary.entries.map (·.2)

/-- How many keys there are. -/
def size (dictionary : Dictionary α) : Nat :=
  dictionary.entries.length

/-- Whether there is no key. -/
def isEmpty (dictionary : Dictionary α) : Bool :=
  dictionary.entries.isEmpty

/-- The dictionary of the entries that satisfy a condition. -/
def filter (p : String → α → Bool) (dictionary : Dictionary α) : Dictionary α :=
  ⟨dictionary.entries.filter fun entry => p entry.1 entry.2,
    increasing_filter _ dictionary.increasing⟩

/-- The dictionary of some entries, of which a later one replaces an earlier one of its key. -/
def ofList (entries : List (String × α)) : Dictionary α :=
  entries.foldl (fun dictionary entry => dictionary.insert entry.1 entry.2) empty

/-! ## What a key has -/

theorem lookup_cons (key : String) (entry : String × α) (rest : List (String × α)) :
    (entry :: rest).lookup key = if key = entry.1 then some entry.2 else rest.lookup key := by
  rw [List.lookup_cons]
  by_cases eq : key = entry.1
  · simp [eq]
  · simp [eq, beq_eq_false_iff_ne.mpr eq]

theorem lookup_eq_none {key : String} {entries : List (String × α)}
    (h : ∀ e ∈ entries, e.1 ≠ key) : entries.lookup key = none := by
  induction entries with
  | nil => rfl
  | cons entry rest ih =>
    rw [lookup_cons, if_neg fun eq => h entry (List.mem_cons_self ..) eq.symm]
    exact ih fun e mem => h e (List.mem_cons_of_mem _ mem)

theorem lookup_insertEntry (key other : String) (value : α) (entries : List (String × α)) :
    (insertEntry key value entries).lookup other =
      if other = key then some value else entries.lookup other := by
  induction entries with
  | nil => simp [insertEntry, lookup_cons]
  | cons entry rest ih =>
    simp only [insertEntry]
    split
    · simp only [lookup_cons]
    · split
      · next same =>
        simp only [lookup_cons, same]
        split <;> rfl
      · next apart =>
        simp only [lookup_cons, ih]
        split
        · next eq => rw [if_neg fun same : other = key => apart (same.symm.trans eq)]
        · rfl

theorem get?_insert (dictionary : Dictionary α) (key other : String) (value : α) :
    (dictionary.insert key value).get? other =
      if other = key then some value else dictionary.get? other :=
  lookup_insertEntry key other value dictionary.entries

theorem lookup_filter_ne (key other : String) (entries : List (String × α)) :
    (entries.filter fun entry => entry.1 ≠ key).lookup other =
      if other = key then none else entries.lookup other := by
  induction entries with
  | nil => simp
  | cons entry rest ih =>
    by_cases same : entry.1 = key
    · rw [List.filter_cons_of_neg (by simp [same]), ih, lookup_cons, same]
      split <;> rfl
    · rw [List.filter_cons_of_pos (by simp [same]), lookup_cons, lookup_cons, ih]
      split
      · next eq => rw [if_neg (eq ▸ same)]
      · rfl

theorem get?_erase (dictionary : Dictionary α) (key other : String) :
    (dictionary.erase key).get? other = if other = key then none else dictionary.get? other :=
  lookup_filter_ne key other dictionary.entries

@[simp] theorem get?_empty (key : String) : (empty : Dictionary α).get? key = none :=
  rfl

theorem lookup_eq_some_iff {key : String} {value : α} {entries : List (String × α)}
    (h : entries.Pairwise fun a b => a.1 < b.1) :
    entries.lookup key = some value ↔ (key, value) ∈ entries := by
  induction entries with
  | nil => simp
  | cons entry rest ih =>
    obtain ⟨first, tail⟩ := List.pairwise_cons.mp h
    rw [lookup_cons, List.mem_cons]
    split
    · next same =>
      constructor
      · intro found
        exact .inl (Prod.ext same (Option.some.inj found).symm)
      · rintro (rfl | mem)
        · rfl
        · exact absurd (same ▸ first _ mem) (String.lt_irrefl _)
    · next other =>
      rw [ih tail]
      exact ⟨.inr, fun found => found.resolve_left fun eq => other (congrArg Prod.fst eq)⟩

theorem get?_eq_some_iff {dictionary : Dictionary α} {key : String} {value : α} :
    dictionary.get? key = some value ↔ (key, value) ∈ dictionary.entries :=
  lookup_eq_some_iff dictionary.increasing

/-- Increasing entries are determined by what they contain. -/
theorem eq_of_mem_iff {entries others : List (String × α)}
    (h : entries.Pairwise fun a b => a.1 < b.1) (h' : others.Pairwise fun a b => a.1 < b.1)
    (same : ∀ e, e ∈ entries ↔ e ∈ others) : entries = others := by
  induction entries generalizing others with
  | nil =>
    cases others with
    | nil => rfl
    | cons e rest => exact absurd ((same e).mpr (List.mem_cons_self ..)) (List.not_mem_nil)
  | cons e rest ih =>
    cases others with
    | nil => exact absurd ((same e).mp (List.mem_cons_self ..)) (List.not_mem_nil)
    | cons f others =>
      obtain ⟨first, tail⟩ := List.pairwise_cons.mp h
      obtain ⟨first', tail'⟩ := List.pairwise_cons.mp h'
      have eq : e = f := by
        rcases List.mem_cons.mp ((same e).mp (List.mem_cons_self ..)) with eq | mem
        · exact eq
        · rcases List.mem_cons.mp ((same f).mpr (List.mem_cons_self ..)) with eq | mem'
          · exact eq.symm
          · exact absurd (String.lt_trans (first f mem') (first' e mem)) (String.lt_irrefl _)
      subst eq
      congr 1
      refine ih tail tail' fun g => ⟨fun mem => ?_, fun mem => ?_⟩
      · rcases List.mem_cons.mp ((same g).mp (List.mem_cons_of_mem _ mem)) with rfl | mem'
        · exact absurd (first g mem) (String.lt_irrefl _)
        · exact mem'
      · rcases List.mem_cons.mp ((same g).mpr (List.mem_cons_of_mem _ mem)) with rfl | mem'
        · exact absurd (first' g mem) (String.lt_irrefl _)
        · exact mem'

/-- Dictionaries are equal when all keys have the same. -/
theorem ext_get? {a b : Dictionary α} (h : ∀ key, a.get? key = b.get? key) : a = b := by
  have same : a.entries = b.entries := eq_of_mem_iff a.increasing b.increasing fun e => by
    rw [show e = (e.1, e.2) from rfl, ← get?_eq_some_iff, ← get?_eq_some_iff, h]
  cases a
  cases b
  cases same
  rfl

end Dictionary

end RemoteCall

import RemoteCall.Directory.Cache
import RemoteCall.Proofs.Directory.Soundness

/-! # What a cache notices of changes

    The watchers that a cache leaves in a store do nothing but report.  Where
    no others are there, delivery always comes to an end, and the cache hears
    one event for each change of a path that it watches (`Watches.deliver_eq`,
    `absorb_told`).

    Changes that tell what changed replace the list of a watched key exactly if
    the children of its service changed (`get?_foldl_notice_of_tells`), and no
    weight outlives the replacement of a list (`weights_foldl_notice`).  Lists
    only come and never go, each with a new generation (`Extends`, `Numbered`). -/

namespace RemoteCall.Directory

open RemoteCall.Directory.Path Store Balance

namespace Cache

variable (cache : Cache) (store : Store Event) {key : String}

/-! ## What a cache watches -/

theorem servicePath_injective {other : String}
    (same : cache.servicePath key = cache.servicePath other) : key = other := by
  have lists := congrArg String.toList same
  simp only [servicePath, String.toList_append] at lists
  exact String.toList_inj.mp (List.append_cancel_left lists)

/-- The key whose changes the cache is told of through the watchers of a path. -/
def keyAt? (path : String) : Option String :=
  cache.watched.keys.find? fun key => cache.servicePath key = path

theorem keyAt?_eq_some_iff {path : String} :
    cache.keyAt? path = some key
      ↔ cache.watched.contains key = true ∧ cache.servicePath key = path := by
  rw [keyAt?, ← Dictionary.mem_keys_iff]
  constructor
  · intro found
    exact ⟨List.mem_of_find?_eq_some found, by simpa using List.find?_some found⟩
  · rintro ⟨mem, rfl⟩
    cases found : cache.watched.keys.find? fun other => cache.servicePath other = cache.servicePath key with
    | none => exact absurd (List.find?_eq_none.mp found key mem) (by simp)
    | some other =>
        have same : cache.servicePath other = cache.servicePath key := by
          simpa using List.find?_some found
        rw [cache.servicePath_injective same]

/-- The watchers of the store are those of the cache. -/
def Watches : Prop :=
  ∀ path, store.watchersOf path = (cache.keyAt? path).toList.map watcher

/-- What the cache is told of a change. -/
def told (change : Change) : Option Event :=
  (cache.keyAt? change.path).map fun key => .changed key change.children

variable {cache store}

theorem keyAt?_watch (cache : Cache) (key path : String) :
    { cache with watched := cache.watched.insert key () }.keyAt? path
      = if path = cache.servicePath key then some key else cache.keyAt? path := by
  ext other
  rw [keyAt?_eq_some_iff, Dictionary.contains, Dictionary.get?_insert]
  by_cases own : path = cache.servicePath key
  · rw [if_pos own, Option.some_inj, own]
    constructor
    · exact fun watched => (cache.servicePath_injective watched.2).symm
    · rintro rfl
      rw [if_pos rfl]
      exact ⟨rfl, rfl⟩
  · rw [if_neg own, keyAt?_eq_some_iff]
    refine and_congr_left fun path' => ?_
    rw [if_neg fun same : other = key => own (same ▸ path'.symm)]
    rfl

/-- A watcher for one more key is one of the cache. -/
theorem Watches.watch (watches : cache.Watches store)
    (unwatched : cache.watched.contains key = false) :
    { cache with watched := cache.watched.insert key () }.Watches { store with
      watchers := store.watchers.insert (cache.servicePath key)
        (store.watchersOf (cache.servicePath key) ++ [watcher key]) } := by
  have added := watches_insert store (cache.servicePath key) (watcher key)
  intro path
  rw [keyAt?_watch]
  by_cases own : path = cache.servicePath key
  · have nobody : cache.keyAt? path = none := by
      refine Option.eq_none_iff_forall_ne_some.mpr fun other at? => ?_
      obtain ⟨watched, path'⟩ := cache.keyAt?_eq_some_iff.mp at?
      rw [cache.servicePath_injective (path'.trans own), unwatched] at watched
      exact nomatch watched
    rw [if_pos own, own, added.own, watches, ← own, nobody]
    rfl
  · rw [if_neg own, added.others path own, watches]

/-- What the watchers of the cache report while a change is delivered. -/
theorem Watches.callOldest_eq (watches : cache.Watches store) (change : Change)
    (others : List Change) :
    store.callOldest change others
      = ((cache.told change).toList, { store with queue := others, isDelivering := true }) := by
  rw [callOldest, watches, told]
  cases cache.keyAt? change.path <;> rfl

/-- Delivery comes to an end, because the watchers of the cache do nothing but report. -/
theorem Watches.delivers (watches : cache.Watches store) :
    ∃ log, Delivers store log { store with queue := [], isDelivering := false }
      ∧ eventsOf log = store.queue.filterMap cache.told := by
  obtain ⟨tree, watchers, queue, isDelivering, isAvailable⟩ := store
  induction queue generalizing isDelivering with
  | nil => exact ⟨[], .done rfl, rfl⟩
  | cons change others ih =>
      have outcome := watches.callOldest_eq change others
      obtain ⟨log, later, events⟩ := ih true watches
      refine ⟨_, .next change others rfl (by rw [outcome]; exact later), ?_⟩
      rw [eventsOf_append, callOldestLog, events_callLog, events, List.filterMap_cons]
      have first := congrArg Prod.fst outcome
      rw [callOldest] at first
      rw [first]
      cases cache.told change <;> rfl

theorem Watches.deliver_eq (watches : cache.Watches store) :
    store.deliver
      = (store.queue.filterMap cache.told, { store with queue := [], isDelivering := false }) := by
  obtain ⟨log, delivers, events⟩ := watches.delivers
  rw [delivers.deliver_eq, events]

/-! ## What a cache notices -/

section Noticing

variable (cache) (change : Change)

/-- What a change does to a cache that may watch its path. -/
def notice : Cache :=
  match cache.keyAt? change.path with
  | some key => cache.change key change.children
  | none => cache

theorem keyAt?_notice (path : String) : (cache.notice change).keyAt? path = cache.keyAt? path := by
  rw [notice]
  cases cache.keyAt? change.path <;> rfl

theorem keyAt?_foldl_notice (changes : List Change) (path : String) :
    (changes.foldl notice cache).keyAt? path = cache.keyAt? path := by
  induction changes generalizing cache with
  | nil => rfl
  | cons change changes ih => rw [List.foldl_cons, ih, keyAt?_notice]

/-- A cache that is told of changes notices them. -/
theorem absorb_told (changes : List Change) :
    (changes.filterMap cache.told).foldl absorb cache = changes.foldl notice cache := by
  induction changes generalizing cache with
  | nil => rfl
  | cons change changes ih =>
      have same : (cache.notice change).told = cache.told := by
        funext other
        rw [told, told, keyAt?_notice]
      rw [List.foldl_cons, ← ih, same, List.filterMap_cons, told, notice]
      cases cache.keyAt? change.path <;> rfl

end Noticing

/-- A cache later on: it has the lists that it had, or newer ones. -/
structure Extends (before after : Cache) : Prop where
  root : after.root = before.root
  next : before.nextGeneration ≤ after.nextGeneration
  kept : ∀ key list, before.lists.get? key = some list → ∃ list', after.lists.get? key = some list'
  lists : ∀ key list, after.lists.get? key = some list →
    before.lists.get? key = some list ∨ before.nextGeneration ≤ list.generation

/-- The lists of a cache have generations of their own. -/
structure Numbered (cache : Cache) : Prop where
  below : ∀ key list, cache.lists.get? key = some list → list.generation < cache.nextGeneration
  apart : ∀ key other list list', cache.lists.get? key = some list →
    cache.lists.get? other = some list' → list.generation = list'.generation → key = other

theorem Extends.refl (cache : Cache) : cache.Extends cache :=
  ⟨rfl, Nat.le_refl _, fun _ list found => ⟨list, found⟩, fun _ _ => .inl⟩

theorem Extends.servicePath_eq {before after : Cache} (later : before.Extends after)
    (key : String) : after.servicePath key = before.servicePath key := by
  rw [servicePath, servicePath, later.root]

theorem Extends.trans {before between after : Cache} (first : before.Extends between)
    (second : between.Extends after) : before.Extends after where
  root := second.root.trans first.root
  next := Nat.le_trans first.next second.next
  kept key list found := by
    obtain ⟨list', found'⟩ := first.kept key list found
    exact second.kept key list' found'
  lists key list found := by
    rcases second.lists key list found with old | new
    · exact first.lists key list old
    · exact .inr (Nat.le_trans first.next new)

section Taking

variable (cache) (key) (addresses : List String)

theorem get?_take (other : String) :
    (cache.take key addresses).2.lists.get? other
      = if other = key then some ⟨cache.nextGeneration, addresses⟩ else cache.lists.get? other :=
  Dictionary.get?_insert ..

theorem extends_take : cache.Extends (cache.take key addresses).2 where
  root := rfl
  next := Nat.le_succ _
  kept other list found := by
    rw [get?_take]
    split
    · exact ⟨_, rfl⟩
    · exact ⟨list, found⟩
  lists other list found := by
    rw [get?_take] at found
    split at found
    · exact .inr (Option.some.inj found ▸ Nat.le_refl _)
    · exact .inl found

theorem Numbered.take {cache : Cache} (numbered : cache.Numbered) (key : String)
    (addresses : List String) : (cache.take key addresses).2.Numbered where
  below other list found := by
    rw [get?_take] at found
    split at found
    · exact Option.some.inj found ▸ Nat.lt_succ_self _
    · exact Nat.lt_succ_of_lt (numbered.below other list found)
  apart other another list list' found found' same := by
    rw [get?_take] at found found'
    -- the generation that is taken now is greater than those of the other lists
    split at found <;> split at found'
    · next first second => exact first.trans second.symm
    · have less := numbered.below another list' found'
      rw [← same, ← Option.some.inj found] at less
      exact absurd less (Nat.lt_irrefl _)
    · have less := numbered.below other list found
      rw [same, ← Option.some.inj found'] at less
      exact absurd less (Nat.lt_irrefl _)
    · exact numbered.apart other another list list' found found' same

end Taking

section Noticed

variable {change : Change} {changes : List Change}

theorem extends_notice (cache : Cache) (change : Change) : cache.Extends (cache.notice change) := by
  rw [notice]
  cases cache.keyAt? change.path with
  | none => exact .refl cache
  | some key =>
      obtain ⟨root, next, kept, lists⟩ := cache.extends_take key change.children
      exact ⟨root, next, kept, lists⟩

theorem extends_foldl_notice (cache : Cache) (changes : List Change) :
    cache.Extends (changes.foldl notice cache) := by
  induction changes generalizing cache with
  | nil => exact .refl cache
  | cons change changes ih => exact (cache.extends_notice change).trans (ih _)

theorem Numbered.notice (numbered : cache.Numbered) (change : Change) :
    (cache.notice change).Numbered := by
  rw [Cache.notice]
  cases cache.keyAt? change.path with
  | none => exact numbered
  | some key =>
      obtain ⟨below, apart⟩ := numbered.take key change.children
      exact ⟨below, apart⟩

theorem Numbered.foldl_notice (numbered : cache.Numbered) (changes : List Change) :
    (changes.foldl Cache.notice cache).Numbered := by
  induction changes generalizing cache with
  | nil => exact numbered
  | cons change changes ih => exact ih (numbered.notice change)

theorem watched_notice (cache : Cache) (change : Change) :
    (cache.notice change).watched = cache.watched := by
  rw [notice]
  cases cache.keyAt? change.path <;> rfl

theorem watched_foldl_notice (cache : Cache) (changes : List Change) :
    (changes.foldl notice cache).watched = cache.watched := by
  induction changes generalizing cache with
  | nil => rfl
  | cons change changes ih => rw [List.foldl_cons, ih, watched_notice]

/-- A change that is not of the path of a key does not touch its list. -/
theorem get?_notice_of_ne (apart : cache.keyAt? change.path ≠ some key) :
    (cache.notice change).lists.get? key = cache.lists.get? key := by
  rw [notice]
  cases at? : cache.keyAt? change.path with
  | none => rfl
  | some other =>
      have distinct : key ≠ other := fun same => apart (same ▸ at?)
      exact (cache.get?_take other change.children key).trans (if_neg distinct)

/-- A change of the path of a key replaces the list of the key. -/
theorem get?_notice_of_eq (watched : cache.watched.contains key = true)
    (same : change.path = cache.servicePath key) :
    (cache.notice change).lists.get? key = some ⟨cache.nextGeneration, change.children⟩ := by
  rw [notice, same, cache.keyAt?_eq_some_iff.mpr ⟨watched, rfl⟩]
  exact (cache.get?_take key change.children key).trans (if_pos rfl)

theorem get?_foldl_notice_of_ne
    (apart : ∀ change ∈ changes, cache.keyAt? change.path ≠ some key) :
    (changes.foldl notice cache).lists.get? key = cache.lists.get? key := by
  induction changes generalizing cache with
  | nil => rfl
  | cons change changes ih =>
      rw [List.foldl_cons, ih, get?_notice_of_ne (apart change (.head _))]
      intro other mem
      rw [keyAt?_notice]
      exact apart other (.tail _ mem)

/-- No list comes under a key that the cache does not watch. -/
theorem get?_foldl_notice_of_unwatched (unwatched : cache.watched.contains key = false) :
    (changes.foldl notice cache).lists.get? key = cache.lists.get? key := by
  refine get?_foldl_notice_of_ne fun change _ at? => ?_
  rw [(cache.keyAt?_eq_some_iff.mp at?).1] at unwatched
  exact nomatch unwatched

/-- A cache that notices anything has no weights then. -/
theorem weights_foldl_notice (cache : Cache) (changes : List Change) :
    changes.foldl notice cache = cache ∨ (changes.foldl notice cache).weights = .empty := by
  induction changes generalizing cache with
  | nil => exact .inl rfl
  | cons change changes ih =>
      rw [List.foldl_cons]
      cases at? : cache.keyAt? change.path with
      | none =>
          have same : cache.notice change = cache := by rw [notice, at?]
          rw [same]
          exact ih cache
      | some key =>
          rcases ih (cache.notice change) with same | voided
          · rw [same, notice, at?]
            exact .inr rfl
          · exact .inr voided

/-- Changes that tell what changed replace the list of a key exactly if its service changed. -/
theorem get?_foldl_notice_of_tells {before after : Tree} {list : AddressList}
    (tells : Tree.Tells before after changes) (watched : cache.watched.contains key = true)
    (valid : isValid (cache.servicePath key) = true)
    (found : cache.lists.get? key = some list) :
    (before.children (cache.servicePath key) = after.children (cache.servicePath key)
        ∧ (changes.foldl notice cache).lists.get? key = some list)
      ∨ before.children (cache.servicePath key) ≠ after.children (cache.servicePath key)
        ∧ ∃ list', (changes.foldl notice cache).lists.get? key = some list'
          ∧ list'.addresses = after.children (cache.servicePath key)
          ∧ cache.nextGeneration ≤ list'.generation := by
  have apart (change : Change) (path : change.path ≠ cache.servicePath key) :
      cache.keyAt? change.path ≠ some key :=
    fun at? => path (cache.keyAt?_eq_some_iff.mp at?).2.symm
  have mine := tells _ valid
  split at mine
  · next same =>
      refine .inl ⟨same, ?_⟩
      rw [get?_foldl_notice_of_ne, found]
      intro change mem
      exact apart change (by simpa using List.filter_eq_nil_iff.mp mine change mem)
  · next differ =>
      refine .inr ⟨differ, ?_⟩
      obtain ⟨front, back, rfl, -, -, rest⟩ := List.filter_eq_cons_iff.mp mine
      have first := cache.extends_foldl_notice front
      have watched' : (front.foldl notice cache).watched.contains key = true := by
        rwa [watched_foldl_notice]
      refine ⟨⟨(front.foldl notice cache).nextGeneration, _⟩, ?_, rfl, first.next⟩
      rw [List.foldl_append, List.foldl_cons, get?_foldl_notice_of_ne]
      · exact get?_notice_of_eq watched' (first.servicePath_eq key).symm
      · intro change mem
        rw [keyAt?_notice, keyAt?_foldl_notice]
        exact apart change (by simpa using List.filter_eq_nil_iff.mp rest change mem)

end Noticed

end Cache

end RemoteCall.Directory

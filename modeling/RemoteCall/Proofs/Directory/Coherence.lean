import RemoteCall.Proofs.Directory.CachedStore

/-! # Lookups tell how the store is

    A faithful cache answers a lookup from what the store has at that moment,
    or fails and takes in nothing (`Faithful.lookup_of_canTell`,
    `Faithful.lookup_of_not_canTell`).  Along a run the list of a service is
    the same one as long as the service does not change, and gets a greater
    generation when it does (`Faithful.list_run`).  So generations tell whether
    anything changed between two lookups (`coherent_of_run`). -/

namespace RemoteCall.Directory.CachedStore

open RemoteCall.Directory.Path Store Balance

variable {view : CachedStore}

/-- Whether the addresses of a service can be told: the cache has them, or the store can be asked. -/
def CanTell (view : CachedStore) (key : String) : Prop :=
  (∃ list, view.cache.lists.get? key = some list)
    ∨ IsPath (view.cache.servicePath key) ∧ view.store.isAvailable = true

/-! ## One lookup -/

theorem nonEmpty_cases (key : String) (list : AddressList) :
    list.addresses = [] ∧ Cache.nonEmpty key list = .error (.noProvider key)
      ∨ list.addresses ≠ [] ∧ Cache.nonEmpty key list = .ok list := by
  rw [Cache.nonEmpty]
  cases found : list.addresses with
  | nil => exact .inl ⟨rfl, rfl⟩
  | cons address rest => exact .inr ⟨nofun, rfl⟩

/-- What can be told is told from a list that the cache has from then on. -/
theorem Faithful.lookup_of_canTell (faithful : view.Faithful) {key : String}
    (canTell : view.CanTell key) : ∃ list, view.lookup key = Cache.nonEmpty key list
      ∧ list.addresses = view.addresses key
      ∧ (view.perform (.lookup key)).cache.lists.get? key = some list := by
  rw [lookup, perform]
  rcases view.cache.lookup_cases view.store key faithful.unwatched with
    ⟨list, found, outcome⟩ | ⟨absent, ⟨-, outcome⟩ | ⟨unreadable, reason, outcome⟩⟩
  · rw [outcome]
    exact ⟨list, rfl, faithful.current key list found, found⟩
  · rw [outcome]
    exact ⟨_, rfl, rfl, (Cache.get?_take ..).trans (if_pos rfl)⟩
  · rcases canTell with ⟨list, found⟩ | ⟨isPath, within⟩
    · rw [absent] at found
      cases found
    · exact absurd ⟨(isValid_iff_isPath _).mpr isPath, within⟩ unreadable

/-- Where nothing can be told, nothing is taken in. -/
theorem Faithful.lookup_of_not_canTell (faithful : view.Faithful) {key : String}
    (cannot : ¬ view.CanTell key) : (∃ reason, view.lookup key = .error (.directory reason))
      ∧ view.perform (.lookup key) = view := by
  rw [lookup, perform]
  rcases view.cache.lookup_cases view.store key faithful.unwatched with
    ⟨list, found, -⟩ | ⟨-, ⟨⟨valid, within⟩, -⟩ | ⟨-, reason, outcome⟩⟩
  · exact absurd (.inl ⟨list, found⟩) cannot
  · exact absurd (.inr ⟨(isValid_iff_isPath _).mp valid, within⟩) cannot
  · rw [outcome]
    exact ⟨⟨reason, rfl⟩, rfl⟩

theorem eq_of_lookup {key : String} {list list' : AddressList}
    (cached : view.cache.lists.get? key = some list) (found : view.lookup key = .ok list') :
    list' = list := by
  rw [lookup, Cache.lookup, cached] at found
  rcases nonEmpty_cases key list with ⟨-, none⟩ | ⟨-, same⟩
  · cases none.symm.trans found
  · exact (Except.ok.inj (same.symm.trans found)).symm

/-- What a successful lookup gives is the list that the cache has then. -/
theorem Faithful.lookup_eq_ok (faithful : view.Faithful) {key : String} {list : AddressList}
    (found : view.lookup key = .ok list) : list.addresses ≠ []
      ∧ list.addresses = view.addresses key
      ∧ (view.perform (.lookup key)).cache.lists.get? key = some list := by
  by_cases canTell : view.CanTell key
  · obtain ⟨list', outcome, current, cached⟩ := faithful.lookup_of_canTell canTell
    rw [outcome] at found
    rcases nonEmpty_cases key list' with ⟨-, none⟩ | ⟨some, same⟩
    · rw [none] at found
      exact nomatch found
    · rw [same] at found
      obtain rfl := Except.ok.inj found
      exact ⟨some, current, cached⟩
  · obtain ⟨⟨reason, outcome⟩, -⟩ := faithful.lookup_of_not_canTell canTell
    rw [outcome] at found
    exact nomatch found

/-! ## Two lookups -/

/-- Whether no act changes the addresses of a service. -/
def Unchanged (view : CachedStore) (key : String) (acts : List Act) : Prop :=
  ∀ before act after, acts = before ++ act :: after →
    (view.run before).addresses key = ((view.run before).perform act).addresses key

theorem unchanged_nil (key : String) : view.Unchanged key [] := by
  intro before act after split
  exact absurd split.symm (List.append_ne_nil_of_right_ne_nil before (List.cons_ne_nil act after))

theorem unchanged_cons {key : String} {act : Act} {acts : List Act} :
    view.Unchanged key (act :: acts)
      ↔ view.addresses key = (view.perform act).addresses key
        ∧ (view.perform act).Unchanged key acts := by
  constructor
  · intro unchanged
    constructor
    · exact unchanged [] act acts rfl
    · intro before other after split
      exact unchanged (act :: before) other after (congrArg (act :: ·) split)
  · rintro ⟨first, others⟩ before other after split
    cases before with
    | nil =>
        obtain ⟨rfl, rfl⟩ := List.cons.inj split
        exact first
    | cons act' before =>
        obtain ⟨rfl, rest⟩ := List.cons.inj split
        exact others before other after rest

/-- The list of a service stays as long as the service does, and else gets a greater generation. -/
theorem Faithful.list_run (faithful : view.Faithful) {key : String} {list : AddressList}
    (found : view.cache.lists.get? key = some list) (acts : List Act) :
    view.Unchanged key acts ∧ (view.run acts).cache.lists.get? key = some list
      ∨ ¬ view.Unchanged key acts ∧ ∃ list', (view.run acts).cache.lists.get? key = some list'
        ∧ list.generation < list'.generation := by
  induction acts generalizing view with
  | nil => exact .inl ⟨unchanged_nil key, found⟩
  | cons act acts ih =>
      obtain ⟨faithful', follows⟩ := faithful.follows act
      rw [unchanged_cons]
      by_cases same : view.addresses key = (view.perform act).addresses key
      · rcases ih faithful' (follows.stays key list found same) with
          ⟨unchanged, kept⟩ | ⟨changed, newer⟩
        · exact .inl ⟨⟨same, unchanged⟩, kept⟩
        · exact .inr ⟨fun both => changed both.2, newer⟩
      · refine .inr ⟨fun both => same both.1, ?_⟩
        obtain ⟨between, found', newer⟩ := follows.renewed key list found same
        have later := faithful'.later_run acts
        obtain ⟨last, found''⟩ := later.kept key between found'
        refine ⟨last, found'', Nat.lt_of_lt_of_le (faithful.numbered.below key list found) ?_⟩
        rcases later.lists key last found'' with old | new
        · rw [found'] at old
          exact Option.some.inj old ▸ newer
        · exact Nat.le_trans follows.later.next new

/-- A generation belongs to one list of one service for ever. -/
theorem Faithful.eq_of_generation (faithful : view.Faithful) {key other : String}
    {list list' : AddressList} (found : view.cache.lists.get? key = some list) (acts : List Act)
    (found' : (view.run acts).cache.lists.get? other = some list')
    (same : list.generation = list'.generation) : list = list' := by
  rcases (faithful.later_run acts).lists other list' found' with old | new
  · obtain rfl := faithful.numbered.apart key other list list' found old same
    rw [found] at old
    exact Option.some.inj old
  · have less := faithful.numbered.below key list found
    rw [same] at less
    exact absurd less (Nat.not_lt.mpr new)

/-! ## Coherence -/

/-- A cache shows how the store is, and its lookups tell so. -/
structure Coherent (view : CachedStore) : Prop where
  /-- Nothing is left to be delivered. -/
  rests : view.store.Rests
  lists : ∀ key list, view.cache.lists.get? key = some list →
    list.addresses = view.addresses key
  /-- A lookup gives the addresses that the store has. -/
  finds : ∀ key, view.CanTell key → view.addresses key ≠ [] →
    ∃ list, view.lookup key = .ok list ∧ list.addresses = view.addresses key
  misses : ∀ key, view.CanTell key → view.addresses key = [] →
    view.lookup key = .error (.noProvider key)
  /-- Where the store cannot be asked, nothing becomes cached or watched. -/
  refuses : ∀ key, ¬ view.CanTell key →
    (∃ reason, view.lookup key = .error (.directory reason))
      ∧ view.perform (.lookup key) = view
  /-- A weight stands in the store, at its address, for a service that the cache has. -/
  weights : ∀ address weight, view.cache.weights.get? address = some weight →
    ∃ key, view.Gives key address weight

theorem Faithful.coherent (faithful : view.Faithful) : view.Coherent := by
  constructor
  case rests => exact faithful.rests
  case lists => exact faithful.current
  case finds =>
    intro key canTell some
    obtain ⟨list, outcome, current, -⟩ := faithful.lookup_of_canTell canTell
    rcases nonEmpty_cases key list with ⟨empty, -⟩ | ⟨-, same⟩
    · exact absurd (current.symm.trans empty) some
    · exact ⟨list, outcome.trans same, current⟩
  case misses =>
    intro key canTell none
    obtain ⟨list, outcome, current, -⟩ := faithful.lookup_of_canTell canTell
    rcases nonEmpty_cases key list with ⟨-, same⟩ | ⟨some, -⟩
    · exact outcome.trans same
    · exact absurd (current.trans none) some
  case refuses => exact fun key cannot => faithful.lookup_of_not_canTell cannot
  case weights => exact faithful.weights

/-- Whatever anybody does with a store and a cache that reads it: the cache shows how the store is,
lists that differ have different generations, and two lookups of a service give the same generation
exactly if the addresses of the service did not change in between. -/
theorem coherent_of_run (root : String) (acts : List Act) :
    let view := (ofRoot root).run acts
    view.Coherent
      ∧ (∀ key, view.cache.servicePath key = withoutTail root ++ "/" ++ key)
      ∧ ∀ key list, view.lookup key = .ok list → ∀ later other list',
        let found := view.perform (.lookup key)
        (found.run later).lookup other = .ok list' →
          (list.generation = list'.generation → list = list')
            ∧ (other = key → (list.generation = list'.generation ↔ found.Unchanged key later)) := by
  have faithful := faithful_run root acts
  refine ⟨faithful.coherent, servicePath_run root acts, ?_⟩
  intro key list outcome later other list' found outcome'
  obtain ⟨-, -, cached⟩ := faithful.lookup_eq_ok outcome
  have faithful' : found.Faithful := (faithful.follows (.lookup key)).1
  obtain ⟨-, -, cached'⟩ := (faithful'.run later).lookup_eq_ok outcome'
  rw [← run_concat] at cached'
  refine ⟨faithful'.eq_of_generation cached _ cached', ?_⟩
  rintro rfl
  rcases faithful'.list_run cached later with ⟨unchanged, kept⟩ | ⟨changed, newest, found', newer⟩
  · rw [eq_of_lookup kept outcome']
    exact iff_of_true rfl unchanged
  · rw [eq_of_lookup found' outcome']
    exact iff_of_false (Nat.ne_of_lt newer) changed

end RemoteCall.Directory.CachedStore

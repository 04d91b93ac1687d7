import RemoteCall.Proofs.Directory.Noticing

/-! # A cache beside its store

    A cache reads a store and hears of changes only from the watchers it left
    there; together they are a `CachedStore`.  Anybody may use the store, and the
    cache is asked for lists and weights (`Act`).

    The invariant of a run is `Faithful`: the cache watches the services that
    it has, their lists are how the store is, and every weight that it has
    stands in the store for some service.  `Follows` tells all that an act can
    do to lists and weights; an act of a faithful one does no more
    (`Faithful.follows`), and so every run keeps it faithful
    (`faithful_run`). -/

namespace RemoteCall.Directory

open RemoteCall.Directory.Path Store Balance

/-! ## Weights in the store -/

/-- Whether the data of a node is the text of a decimal number, perhaps between blanks. -/
def Tree.Weighs (tree : Tree) (path : String) (weight : Int32) : Prop :=
  ∃ text, tree.nodes.get? path = some (Bytes.ofText text)
    ∧ Decimal.int? 32 (Text.trim text) = some weight.toInt

theorem Tree.Weighs.contains {tree : Tree} {path : String} {weight : Int32}
    (weighs : tree.Weighs path weight) : tree.contains path = true := by
  obtain ⟨text, found, -⟩ := weighs
  exact Option.isSome_of_eq_some found

/-- The data of a node spells one number at most. -/
theorem Tree.Weighs.unique {tree : Tree} {path : String} {weight weight' : Int32}
    (weighs : tree.Weighs path weight) (weighs' : tree.Weighs path weight') : weight = weight' := by
  obtain ⟨text, found, spelled⟩ := weighs
  obtain ⟨text', found', spelled'⟩ := weighs'
  have decoded := Utf8.decode_ofText text
  rw [Option.some.inj (found.symm.trans found'), Utf8.decode_ofText] at decoded
  obtain rfl := Except.ok.inj decoded
  exact Int32.toInt.inj (Option.some.inj (spelled.symm.trans spelled'))

theorem Tree.Weighs.keep {before after : Tree} {path : String} {weight : Int32}
    (weighs : before.Weighs path weight) (keeps : before.Keeps after)
    (there : after.contains path = true) : after.Weighs path weight := by
  obtain ⟨text, found, spelled⟩ := weighs
  exact ⟨text, keeps path _ found there, spelled⟩

/-- What a decimal number of 32 bits spells fits into 32 bits. -/
theorem toInt_ofInt_of_int? {text : String} {n : Int} (spelled : Decimal.int? 32 text = some n) :
    (Int32.ofInt n).toInt = n := by
  rw [Decimal.int?, Option.filter_eq_some_iff, Bool.and_eq_true, decide_eq_true_eq,
    decide_eq_true_eq] at spelled
  exact Int32.toInt_ofInt_of_le spelled.2.1 spelled.2.2

theorem Store.data_eq_ok_iff {store : Store Event} {path : String} {data : Bytes} :
    store.data path = .ok data
      ↔ store.isAvailable = true ∧ store.tree.nodes.get? path = some data := by
  rw [Store.data, reach]
  by_cases within : store.isAvailable = true
  · rw [if_pos within]
    show store.tree.data path = _ ↔ _
    rw [Tree.data]
    cases store.tree.nodes.get? path <;> simp [within]
  · rw [if_neg within]
    exact iff_of_false (fun found => by cases found) fun both => within both.1

namespace Cache

variable (cache : Cache) (store : Store Event) (key address : String)

theorem readWeight_eq_some_iff {weight : Int32} :
    cache.readWeight store key address = some weight
      ↔ store.isAvailable = true
        ∧ store.tree.Weighs (cache.servicePath key ++ "/" ++ address) weight := by
  have toOption_eq_some_iff {ε α : Type} (x : Except ε α) (a : α) :
      x.toOption = some a ↔ x = .ok a := by
    cases x <;> simp [Except.toOption]
  simp only [readWeight, Option.bind_eq_bind, Option.bind_eq_some_iff, toOption_eq_some_iff,
    data_eq_ok_iff, Option.pure_def, Option.some_inj]
  constructor
  · rintro ⟨data, ⟨within, found⟩, text, decoded, n, spelled, rfl⟩
    refine ⟨within, text, ?_, ?_⟩
    · rw [found, Utf8.eq_ofText_of_decode decoded]
    · rw [spelled, toInt_ofInt_of_int? spelled]
  · rintro ⟨within, text, found, spelled⟩
    exact ⟨_, ⟨within, found⟩, text, Utf8.decode_ofText text, _, spelled, Int32.ofInt_toInt weight⟩

/-- Whether the cached list of a service has an address. -/
def Lists : Prop :=
  ∃ list, cache.lists.get? key = some list ∧ address ∈ list.addresses

/-- The weight of an address is that which the cache has, else the one in the store, else minus
one. -/
theorem weight_cases :
    ¬ cache.Lists key address ∧ cache.weight store key address = (-1, cache)
      ∨ cache.Lists key address ∧
        ((∃ weight, cache.weights.get? address = some weight
            ∧ cache.weight store key address = (weight, cache))
          ∨ cache.weights.get? address = none ∧
            ((∃ weight, cache.readWeight store key address = some weight
                ∧ cache.weight store key address
                  = (weight, { cache with weights := cache.weights.insert address weight }))
              ∨ cache.readWeight store key address = none
                ∧ cache.weight store key address = (-1, cache))) := by
  have member : (cache.lists.get? key).any (·.contains address) = true
      ↔ cache.Lists key address := by
    rw [Option.any_eq_true, Lists]
    simp only [AddressList.contains, List.contains_iff_mem]
  rw [Cache.weight, ← member]
  by_cases listed : (cache.lists.get? key).any (·.contains address) = true
  · rw [if_pos listed]
    refine .inr ⟨listed, ?_⟩
    cases cached : cache.weights.get? address with
    | some weight => exact .inl ⟨weight, rfl, rfl⟩
    | none =>
        refine .inr ⟨rfl, ?_⟩
        cases cache.readWeight store key address with
        | some weight => exact .inl ⟨weight, rfl, rfl⟩
        | none => exact .inr ⟨rfl, rfl⟩
  · rw [if_neg listed]
    exact .inl ⟨listed, rfl⟩

/-- A watcher is refused with a fault of the directory. -/
theorem watch_refused {path : String} (watcher : Watcher Event)
    (refused : ¬ (isValid path = true ∧ store.isAvailable = true)) :
    ∃ reason, store.watch path watcher = (.error (.directory reason), store) := by
  rw [watch, checkPath]
  by_cases valid : isValid path = true
  · have within : ¬ store.isAvailable = true := fun within => refused ⟨valid, within⟩
    rw [if_pos valid]
    exact ⟨_, if_neg within⟩
  · rw [if_neg valid]
    exact ⟨_, rfl⟩

/-- The cache once it has read a service. -/
def reading : Cache :=
  ({ cache with watched := cache.watched.insert key () }.take key
    (store.tree.children (cache.servicePath key))).2

/-- The store once the cache has read a service. -/
def watching : Store Event :=
  { store with
    watchers := store.watchers.insert (cache.servicePath key)
      (store.watchersOf (cache.servicePath key) ++ [watcher key]) }

/-- A service that the cache does not watch is read, or the store refuses. -/
theorem lookup_cases (unwatched : cache.lists.get? key = none → cache.watched.contains key = false) :
    (∃ list, cache.lists.get? key = some list
        ∧ cache.lookup store key = (nonEmpty key list, cache, store))
      ∨ cache.lists.get? key = none ∧
        ((isValid (cache.servicePath key) = true ∧ store.isAvailable = true)
            ∧ cache.lookup store key
              = (nonEmpty key
                  ⟨cache.nextGeneration, store.tree.children (cache.servicePath key)⟩,
                cache.reading store key, cache.watching store key)
          ∨ ¬ (isValid (cache.servicePath key) = true ∧ store.isAvailable = true)
            ∧ ∃ reason, cache.lookup store key = (.error (.directory reason), cache, store)) := by
  rw [lookup]
  cases found : cache.lists.get? key with
  | some list => exact .inl ⟨list, rfl, rfl⟩
  | none =>
      refine .inr ⟨rfl, ?_⟩
      rw [ensureWatch, if_neg (by simp [unwatched found])]
      by_cases readable : isValid (cache.servicePath key) = true ∧ store.isAvailable = true
      · refine .inl ⟨readable, ?_⟩
        rcases store.watch_cases (cache.servicePath key) (watcher key) with
          ⟨refused, -⟩ | ⟨-, outcome⟩
        · exact absurd readable refused
        · rw [outcome]
          dsimp only
          rw [Store.children, reach, if_pos readable.2]
          rfl
      · obtain ⟨reason, outcome⟩ := watch_refused store (watcher key) readable
        rw [outcome]
        exact .inr ⟨readable, reason, rfl⟩

end Cache

/-! ## The system -/

/-- A store and a cache that reads it. -/
structure CachedStore where
  store : Store Event
  cache : Cache

namespace CachedStore

/-- What can be done with a store and a cache that reads it. -/
inductive Act where
  /-- Somebody creates a node. -/
  | create (path : String) (data : Bytes)
  /-- Somebody deletes a node. -/
  | delete (path : String)
  /-- The store comes within reach or gets out of reach. -/
  | become (isAvailable : Bool)
  /-- The cache is asked for the addresses of a service. -/
  | lookup (key : String)
  /-- The cache is asked for the weight of an address of a service. -/
  | weigh (key address : String)
  /-- Somebody makes a list of his own, which takes a generation. -/
  | number

/-- An empty store and a cache that has read nothing. -/
def ofRoot (root : String) : CachedStore :=
  ⟨.empty, .ofRoot root⟩

/-- The cache hears what its watchers reported of an operation. -/
def absorb (view : CachedStore) (outcome : List Event × Store Event) : CachedStore :=
  ⟨outcome.2, outcome.1.foldl Cache.absorb view.cache⟩

/-- What a lookup gives. -/
def lookup (view : CachedStore) (key : String) : Except Fault AddressList :=
  (view.cache.lookup view.store key).1

/-- The weight that is read of an address of a service. -/
def weight (view : CachedStore) (key address : String) : Int32 :=
  (view.cache.weight view.store key address).1

/-- What an act comes to. -/
def perform (view : CachedStore) : Act → CachedStore
  | .create path data => view.absorb (view.store.create path data).2
  | .delete path => view.absorb (view.store.delete path).2
  | .become isAvailable => { view with store := { view.store with isAvailable } }
  | .lookup key =>
    let outcome := (view.cache.lookup view.store key).2
    ⟨outcome.2, outcome.1⟩
  | .weigh key address =>
    { view with cache := (view.cache.weight view.store key address).2 }
  | .number =>
    { view with cache :=
        { view.cache with nextGeneration := view.cache.nextGeneration + 1 } }

/-- What acts come to, one after another. -/
def run (view : CachedStore) (acts : List Act) : CachedStore :=
  acts.foldl perform view

theorem run_append (view : CachedStore) (acts more : List Act) :
    view.run (acts ++ more) = (view.run acts).run more :=
  List.foldl_append

theorem run_concat (view : CachedStore) (acts : List Act) (act : Act) :
    view.run (acts ++ [act]) = (view.run acts).perform act :=
  run_append view acts [act]

/-- The names of the nodes under the path of a service. -/
def addresses (view : CachedStore) (key : String) : List String :=
  view.store.tree.children (view.cache.servicePath key)

/-- Whether a weight stands in the store at an address of a service, and the cached list of the
service has the address. -/
def Gives (view : CachedStore) (key address : String) (weight : Int32) : Prop :=
  view.cache.Lists key address
    ∧ view.store.tree.Weighs (view.cache.servicePath key ++ "/" ++ address) weight

/-- What a cache has is how its store is. -/
structure Faithful (view : CachedStore) : Prop where
  closed : view.store.tree.Closed
  rests : view.store.Rests
  watches : view.cache.Watches view.store
  watched : ∀ key, view.cache.watched.contains key = (view.cache.lists.get? key).isSome
  valid : ∀ key, view.cache.watched.contains key = true →
    isValid (view.cache.servicePath key) = true
  current : ∀ key list, view.cache.lists.get? key = some list →
    list.addresses = view.addresses key
  numbered : view.cache.Numbered
  weights : ∀ address weight, view.cache.weights.get? address = some weight →
    ∃ key, view.Gives key address weight

/-- What an act can do to the lists and weights of a cache. -/
structure Follows (before : CachedStore) (act : Act) (after : CachedStore) : Prop where
  later : before.cache.Extends after.cache
  /-- A list stays while its service does not change. -/
  stays : ∀ key list, before.cache.lists.get? key = some list →
    before.addresses key = after.addresses key → after.cache.lists.get? key = some list
  /-- A list is replaced when its service changes. -/
  renewed : ∀ key list, before.cache.lists.get? key = some list →
    before.addresses key ≠ after.addresses key → ∃ list', after.cache.lists.get? key = some list'
      ∧ before.cache.nextGeneration ≤ list'.generation
  /-- All weights go with a list. -/
  voided : ∀ key list, before.cache.lists.get? key = some list →
    before.addresses key ≠ after.addresses key → after.cache.weights = .empty
  /-- A weight was there before and still stands where it stood, or it is read now. -/
  weights : ∀ address weight, after.cache.weights.get? address = some weight →
    before.cache.weights.get? address = some weight
        ∧ (∀ key, before.Gives key address weight → after.Gives key address weight)
      ∨ ∃ key, act = .weigh key address ∧ after.Gives key address weight

section Acts

variable {view : CachedStore}

/-- An act that leaves lists and weights, and the tree, as they are. -/
theorem follows_of_same {before after : CachedStore} (act : Act)
    (tree : after.store.tree = before.store.tree) (root : after.cache.root = before.cache.root)
    (lists : after.cache.lists = before.cache.lists)
    (weights : after.cache.weights = before.cache.weights)
    (next : before.cache.nextGeneration ≤ after.cache.nextGeneration) :
    before.Follows act after := by
  have same (key : String) : before.addresses key = after.addresses key := by
    rw [addresses, addresses, tree, Cache.servicePath, Cache.servicePath, root]
  constructor
  case later =>
    refine ⟨root, next, fun key list found => ⟨list, ?_⟩, fun key list found => .inl ?_⟩
    · rwa [lists]
    · rwa [← lists]
  case stays =>
    intro key list found _
    rwa [lists]
  case renewed => exact fun key _ _ differ => absurd (same key) differ
  case voided => exact fun key _ _ differ => absurd (same key) differ
  case weights =>
    intro address weight found
    rw [weights] at found
    refine .inl ⟨found, fun key gives => ?_⟩
    rwa [Gives, Cache.Lists, lists, tree, Cache.servicePath, root]

/-- What stands in the store for some service before an act does so after it. -/
theorem Follows.stand {before after : CachedStore} {act : Act} (follows : before.Follows act after)
    (stand : ∀ address weight, before.cache.weights.get? address = some weight →
      ∃ key, before.Gives key address weight) {address : String} {weight : Int32}
    (found : after.cache.weights.get? address = some weight) :
    ∃ key, after.Gives key address weight := by
  rcases follows.weights address weight found with ⟨old, keeps⟩ | ⟨key, -, gives⟩
  · obtain ⟨key, gives⟩ := stand address weight old
    exact ⟨key, keeps key gives⟩
  · exact ⟨key, gives⟩

/-- A store with a cache whose tree has become another one, of which the cache has noticed changes. -/
def turned (view : CachedStore) (tree : Tree) (changes : List Change) : CachedStore :=
  ⟨{ view.store with tree := tree }, changes.foldl Cache.notice view.cache⟩

/-- What an operation on the tree queues is what the cache notices. -/
theorem Faithful.absorb_settle (faithful : view.Faithful)
    {outcome : Except Fault Unit × Store Event} (advances : view.store.Advances outcome) :
    view.absorb (settle outcome).2 = view.turned outcome.2.tree outcome.2.queue
      ∧ outcome.2.tree.Closed
      ∧ Tree.Tells view.store.tree outcome.2.tree outcome.2.queue := by
  rcases advances with ⟨fault, rfl⟩ | ⟨tree, changes, rfl, keeps⟩
  · have none := faithful.rests.1
    refine ⟨?_, faithful.closed, ?_⟩
    · rw [turned, none]
      rfl
    · intro path _
      rw [none, if_pos rfl]
      rfl
  · obtain ⟨closed, tells⟩ := keeps faithful.closed
    have watches : view.cache.Watches
        { view.store with tree := tree, queue := view.store.queue ++ changes } :=
      faithful.watches
    rw [settle, notify, if_neg (by simp [faithful.rests.2]), watches.deliver_eq, absorb, turned,
      faithful.rests.1, List.nil_append, Cache.absorb_told, ← faithful.rests.1,
      ← faithful.rests.2]
    exact ⟨rfl, closed, tells⟩

/-- A node of a service stands under the path of the service. -/
theorem Faithful.eq_below (faithful : view.Faithful) {key address : String}
    (there : view.store.tree.contains (view.cache.servicePath key ++ "/" ++ address) = true) :
    view.cache.servicePath key ++ "/" ++ address
      = below (view.cache.servicePath key) address := by
  rw [below]
  split
  · next root =>
      have valid := faithful.closed.valid _ there
      rw [isValid_iff_isPath, root] at valid
      refine absurd ?_ valid.2.1
      exact ⟨[], address.toList, by simp [String.toList_append]⟩
  · rfl

/-- A weight still stands where it stood if the service did not change. -/
theorem Faithful.gives_turn (faithful : view.Faithful) {key address : String} {weight : Int32}
    {tree : Tree} (gives : view.Gives key address weight) (keeps : view.store.tree.Keeps tree)
    (same : view.addresses key = tree.children (view.cache.servicePath key)) :
    tree.Weighs (view.cache.servicePath key ++ "/" ++ address) weight := by
  obtain ⟨⟨list, found, mem⟩, weighs⟩ := gives
  rw [faithful.current key list found, same] at mem
  refine weighs.keep keeps ?_
  rw [faithful.eq_below weighs.contains]
  exact (Tree.mem_children.mp mem).2

theorem Faithful.unwatched (faithful : view.Faithful) {key : String}
    (absent : view.cache.lists.get? key = none) : view.cache.watched.contains key = false := by
  rw [faithful.watched, absent]
  rfl

section Turning

variable {tree : Tree} {changes : List Change}

theorem addresses_turned (view : CachedStore) (tree : Tree) (changes : List Change) (key : String) :
    (view.turned tree changes).addresses key
      = tree.children (view.cache.servicePath key) := by
  rw [addresses]
  exact congrArg tree.children ((view.cache.extends_foldl_notice changes).servicePath_eq key)

/-- A list stays while its service does not change, and else it is replaced. -/
theorem Faithful.get?_turned (faithful : view.Faithful)
    (tells : Tree.Tells view.store.tree tree changes) {key : String} {list : AddressList}
    (found : view.cache.lists.get? key = some list) :
    view.addresses key = (view.turned tree changes).addresses key
        ∧ (view.turned tree changes).cache.lists.get? key = some list
      ∨ view.addresses key ≠ (view.turned tree changes).addresses key
        ∧ ∃ list', (view.turned tree changes).cache.lists.get? key = some list'
          ∧ list'.addresses = (view.turned tree changes).addresses key
          ∧ view.cache.nextGeneration ≤ list'.generation := by
  have watched : view.cache.watched.contains key = true := by
    rw [faithful.watched, found]
    rfl
  rw [addresses_turned]
  exact Cache.get?_foldl_notice_of_tells tells watched (faithful.valid key watched) found

/-- A cache that notices nothing has nothing to notice. -/
theorem Faithful.addresses_eq_of_unnoticed (faithful : view.Faithful)
    (tells : Tree.Tells view.store.tree tree changes)
    (unnoticed : (view.turned tree changes).cache = view.cache) {key : String}
    {list : AddressList} (found : view.cache.lists.get? key = some list) :
    view.addresses key = (view.turned tree changes).addresses key := by
  rcases faithful.get?_turned tells found with ⟨same, -⟩ | ⟨-, list', found', -, newer⟩
  · exact same
  · rw [unnoticed] at found'
    exact absurd (faithful.numbered.below key list' found') (Nat.not_lt.mpr newer)

theorem Faithful.follows_turned (faithful : view.Faithful) (act : Act)
    (tells : Tree.Tells view.store.tree tree changes) (keeps : view.store.tree.Keeps tree) :
    view.Follows act (view.turned tree changes) := by
  have later := view.cache.extends_foldl_notice changes
  constructor
  case later => exact later
  case stays =>
    intro key list found unchanged
    rcases faithful.get?_turned tells found with ⟨-, kept⟩ | ⟨differ, -⟩
    · exact kept
    · exact absurd unchanged differ
  case renewed =>
    intro key list found differ
    rcases faithful.get?_turned tells found with ⟨unchanged, -⟩ | ⟨-, list', found', -, newer⟩
    · exact absurd unchanged differ
    · exact ⟨list', found', newer⟩
  case voided =>
    intro key list found differ
    rcases view.cache.weights_foldl_notice changes with unnoticed | voided
    · exact absurd (faithful.addresses_eq_of_unnoticed tells unnoticed found) differ
    · exact voided
  case weights =>
    intro address weight found
    rcases view.cache.weights_foldl_notice changes with unnoticed | voided
    · have same : (view.turned tree changes).cache = view.cache := unnoticed
      rw [same] at found
      refine .inl ⟨found, fun key gives => ?_⟩
      obtain ⟨list, listed, -⟩ := gives.1
      have unchanged := faithful.addresses_eq_of_unnoticed tells unnoticed listed
      rw [addresses_turned] at unchanged
      rw [Gives, same]
      exact ⟨gives.1, faithful.gives_turn gives keeps unchanged⟩
    · have none : (view.turned tree changes).cache.weights = .empty := voided
      rw [none] at found
      exact nomatch found

theorem Faithful.turned (faithful : view.Faithful) (closed : tree.Closed)
    (tells : Tree.Tells view.store.tree tree changes) {act : Act}
    (follows : view.Follows act (view.turned tree changes)) :
    (view.turned tree changes).Faithful := by
  have later := view.cache.extends_foldl_notice changes
  have watched := view.cache.watched_foldl_notice changes
  -- no list comes under a key that the cache does not watch
  have none {key : String} (absent : view.cache.lists.get? key = none) :
      (changes.foldl Cache.notice view.cache).lists.get? key = none := by
    rw [Cache.get?_foldl_notice_of_unwatched (faithful.unwatched absent), absent]
  constructor
  case closed => exact closed
  case rests => exact faithful.rests
  case watches =>
    intro path
    show view.store.watchersOf path = _
    rw [CachedStore.turned, Cache.keyAt?_foldl_notice]
    exact faithful.watches path
  case watched =>
    intro key
    rw [CachedStore.turned, watched, faithful.watched]
    cases found : view.cache.lists.get? key with
    | some list =>
        obtain ⟨list', found'⟩ := later.kept key list found
        rw [found']
        rfl
    | none => rw [none found]
  case valid =>
    intro key isWatched
    rw [CachedStore.turned, watched] at isWatched
    rw [CachedStore.turned, later.servicePath_eq]
    exact faithful.valid key isWatched
  case current =>
    intro key list found
    cases old : view.cache.lists.get? key with
    | none => exact nomatch (none old).symm.trans found
    | some list' =>
        rcases faithful.get?_turned tells old with ⟨unchanged, kept⟩ | ⟨-, _, renewed, current, -⟩
        · rw [kept] at found
          obtain rfl := Option.some.inj found
          exact (faithful.current key _ old).trans unchanged
        · rw [renewed] at found
          obtain rfl := Option.some.inj found
          exact current
  case numbered => exact faithful.numbered.foldl_notice changes
  case weights => exact fun _ _ => follows.stand faithful.weights

end Turning

/-- An operation on the tree keeps the cache faithful. -/
theorem Faithful.follows_settle (faithful : view.Faithful) (act : Act)
    {outcome : Except Fault Unit × Store Event} (advances : view.store.Advances outcome)
    (keeps : view.store.tree.Keeps outcome.2.tree) :
    (view.absorb (settle outcome).2).Faithful
      ∧ view.Follows act (view.absorb (settle outcome).2) := by
  obtain ⟨same, closed, tells⟩ := faithful.absorb_settle advances
  have follows := faithful.follows_turned act tells keeps
  rw [same]
  exact ⟨faithful.turned closed tells follows, follows⟩

section Reading

variable {key : String}

/-- The store and the cache after a lookup that watches a service and reads its addresses. -/
def reading (view : CachedStore) (key : String) : CachedStore :=
  ⟨view.cache.watching view.store key, view.cache.reading view.store key⟩

theorem lists_reading (view : CachedStore) (key other : String) :
    (view.reading key).cache.lists.get? other
      = if other = key then some ⟨view.cache.nextGeneration, view.addresses key⟩
        else view.cache.lists.get? other :=
  Cache.get?_take ..

theorem watched_reading (view : CachedStore) (key other : String) :
    (view.reading key).cache.watched.contains other
      = if other = key then true else view.cache.watched.contains other := by
  show ((view.cache.watched.insert key ()).get? other).isSome = _
  rw [Dictionary.get?_insert]
  split <;> rfl

/-- The other lists stay. -/
theorem lists_reading_of_some (absent : view.cache.lists.get? key = none) {other : String}
    {list : AddressList} (found : view.cache.lists.get? other = some list) :
    (view.reading key).cache.lists.get? other = some list := by
  have differ : other ≠ key := by
    rintro rfl
    rw [absent] at found
    exact nomatch found
  rw [lists_reading, if_neg differ, found]

theorem follows_reading (absent : view.cache.lists.get? key = none) :
    view.Follows (.lookup key) (view.reading key) := by
  constructor
  case later =>
    obtain ⟨root, next, kept, lists⟩ := Cache.extends_take
      { view.cache with watched := view.cache.watched.insert key () } key
      (view.addresses key)
    exact ⟨root, next, kept, lists⟩
  case stays => exact fun _ _ found _ => lists_reading_of_some absent found
  case renewed => exact fun _ _ _ differ => absurd rfl differ
  case voided => exact fun _ _ _ differ => absurd rfl differ
  case weights =>
    intro address weight found
    refine .inl ⟨found, fun other gives => ⟨?_, gives.2⟩⟩
    obtain ⟨list, listed, mem⟩ := gives.1
    exact ⟨list, lists_reading_of_some absent listed, mem⟩

theorem Faithful.reading (faithful : view.Faithful)
    (absent : view.cache.lists.get? key = none)
    (valid : isValid (view.cache.servicePath key) = true) : (view.reading key).Faithful := by
  constructor
  case closed => exact faithful.closed
  case rests => exact faithful.rests
  case watches => exact faithful.watches.watch (faithful.unwatched absent)
  case watched =>
    intro other
    rw [lists_reading, watched_reading]
    split
    · rfl
    · exact faithful.watched other
  case valid =>
    intro other isWatched
    rw [watched_reading] at isWatched
    split at isWatched
    · next same => exact same ▸ valid
    · exact faithful.valid other isWatched
  case current =>
    intro other list found
    rw [lists_reading] at found
    split at found
    · next same =>
        rw [← Option.some.inj found, same]
        rfl
    · exact faithful.current other list found
  case numbered =>
    have numbered : Cache.Numbered
        { view.cache with watched := view.cache.watched.insert key () } :=
      ⟨faithful.numbered.below, faithful.numbered.apart⟩
    exact numbered.take key _
  case weights => exact fun _ _ => (follows_reading absent).stand faithful.weights

end Reading

/-- A lookup keeps the cache faithful. -/
theorem Faithful.follows_lookup (faithful : view.Faithful) (key : String) :
    (view.perform (.lookup key)).Faithful
      ∧ view.Follows (.lookup key) (view.perform (.lookup key)) := by
  have nothing : view.Follows (.lookup key) view :=
    follows_of_same _ rfl rfl rfl rfl (Nat.le_refl _)
  rw [perform]
  rcases view.cache.lookup_cases view.store key faithful.unwatched with
    ⟨list, -, outcome⟩ | ⟨absent, ⟨⟨valid, -⟩, outcome⟩ | ⟨-, reason, outcome⟩⟩
  · rw [outcome]
    exact ⟨faithful, nothing⟩
  · rw [outcome]
    exact ⟨faithful.reading absent valid, follows_reading absent⟩
  · rw [outcome]
    exact ⟨faithful, nothing⟩

/-- A lookup does no more to the store than to leave a watcher. -/
theorem Faithful.store_lookup (faithful : view.Faithful) (key : String) :
    (view.perform (.lookup key)).store.tree = view.store.tree
      ∧ (view.perform (.lookup key)).store.isAvailable = view.store.isAvailable := by
  rw [perform]
  rcases view.cache.lookup_cases view.store key faithful.unwatched with
    ⟨list, -, outcome⟩ | ⟨-, ⟨-, outcome⟩ | ⟨-, reason, outcome⟩⟩
  all_goals
    rw [outcome]
    exact ⟨rfl, rfl⟩

/-- A weight that was read from the store is one that a service gives. -/
theorem follows_weighed {key address : String} {weight : Int32}
    (gives : view.Gives key address weight) :
    view.Follows (.weigh key address) { view with cache :=
      { view.cache with weights := view.cache.weights.insert address weight } } := by
  constructor
  case later => exact ⟨rfl, Nat.le_refl _, fun _ list found => ⟨list, found⟩, fun _ _ => .inl⟩
  case stays => exact fun _ _ found _ => found
  case renewed => exact fun _ _ _ differ => absurd rfl differ
  case voided => exact fun _ _ _ differ => absurd rfl differ
  case weights =>
    intro other weight' found
    have found : (view.cache.weights.insert address weight).get? other = some weight' := found
    rw [Dictionary.get?_insert] at found
    split at found
    · next same =>
        obtain rfl := Option.some.inj found
        exact .inr ⟨key, by rw [same], same ▸ gives⟩
    · exact .inl ⟨found, fun _ gives => gives⟩

/-- Reading a weight keeps the cache faithful. -/
theorem Faithful.follows_weigh (faithful : view.Faithful) (key address : String) :
    (view.perform (.weigh key address)).Faithful
      ∧ view.Follows (.weigh key address) (view.perform (.weigh key address)) := by
  have nothing : view.Follows (.weigh key address) view :=
    follows_of_same _ rfl rfl rfl rfl (Nat.le_refl _)
  rw [perform]
  rcases view.cache.weight_cases view.store key address with ⟨-, outcome⟩
    | ⟨listed, ⟨weight, -, outcome⟩ | ⟨-, ⟨weight, read, outcome⟩ | ⟨-, outcome⟩⟩⟩
  · rw [outcome]
    exact ⟨faithful, nothing⟩
  · rw [outcome]
    exact ⟨faithful, nothing⟩
  · rw [outcome]
    have gives : view.Gives key address weight :=
      ⟨listed, ((view.cache.readWeight_eq_some_iff view.store key address).mp read).2⟩
    have follows := follows_weighed gives
    have numbered := faithful.numbered
    exact ⟨{ faithful with
      numbered := ⟨numbered.below, numbered.apart⟩
      weights := fun _ _ => follows.stand faithful.weights }, follows⟩
  · rw [outcome]
    exact ⟨faithful, nothing⟩

/-- Every act keeps the cache faithful. -/
theorem Faithful.follows (faithful : view.Faithful) (act : Act) :
    (view.perform act).Faithful ∧ view.Follows act (view.perform act) := by
  cases act with
  | create path data =>
      exact faithful.follows_settle _ (advances_queueCreate _ path data)
        (keeps_queueCreate _ path data)
  | delete path =>
      exact faithful.follows_settle _ (advances_queueDelete _ path) (keeps_queueDelete _ path)
  | become isAvailable =>
      exact ⟨{ faithful with }, follows_of_same _ rfl rfl rfl rfl (Nat.le_refl _)⟩
  | lookup key => exact faithful.follows_lookup key
  | weigh key address => exact faithful.follows_weigh key address
  | number =>
      refine ⟨{ faithful with numbered := ⟨fun key list found => ?_, faithful.numbered.apart⟩ },
        follows_of_same _ rfl rfl rfl rfl (Nat.le_succ _)⟩
      exact Nat.lt_succ_of_lt (faithful.numbered.below key list found)

end Acts

/-! ## Runs -/

theorem faithful_ofRoot (root : String) : (ofRoot root).Faithful where
  closed := Tree.closed_empty
  rests := ⟨rfl, rfl⟩
  watches _ := rfl
  watched _ := rfl
  valid _ := nofun
  current _ _ := nofun
  numbered := ⟨nofun, nofun⟩
  weights _ _ := nofun

theorem Faithful.run {view : CachedStore} (faithful : view.Faithful) (acts : List Act) :
    (view.run acts).Faithful := by
  induction acts generalizing view with
  | nil => exact faithful
  | cons act acts ih => exact ih (faithful.follows act).1

/-- A cache that is told of changes shows how the store is. -/
theorem faithful_run (root : String) (acts : List Act) : ((ofRoot root).run acts).Faithful :=
  (faithful_ofRoot root).run acts

theorem Faithful.later_run {view : CachedStore} (faithful : view.Faithful) (acts : List Act) :
    view.cache.Extends (view.run acts).cache := by
  induction acts generalizing view with
  | nil => exact .refl _
  | cons act acts ih =>
      obtain ⟨next, follows⟩ := faithful.follows act
      exact follows.later.trans (ih next)

/-- Where a service is does not change. -/
theorem servicePath_run (root : String) (acts : List Act) (key : String) :
    ((ofRoot root).run acts).cache.servicePath key = withoutTail root ++ "/" ++ key :=
  ((faithful_ofRoot root).later_run acts).servicePath_eq key

/-- What an act comes to, told without the delivery in between. -/
def next (view : CachedStore) : Act → CachedStore
  | .create path data =>
    let store := (view.store.queueCreate path data).2
    view.turned store.tree store.queue
  | .delete path =>
    let store := (view.store.queueDelete path).2
    view.turned store.tree store.queue
  | act => view.perform act

/-- The delivery in between comes to an end, and to what the acts tell. -/
theorem run_eq_next (root : String) (acts : List Act) :
    (ofRoot root).run acts = acts.foldl next (ofRoot root) := by
  have faithful := faithful_ofRoot root
  generalize ofRoot root = view at faithful
  induction acts generalizing view with
  | nil => rfl
  | cons act acts ih =>
      have same : view.perform act = view.next act := by
        cases act with
        | create path data => exact (faithful.absorb_settle (advances_queueCreate _ path data)).1
        | delete path => exact (faithful.absorb_settle (advances_queueDelete _ path)).1
        | become => rfl
        | lookup => rfl
        | weigh => rfl
        | number => rfl
      show (view.perform act).run acts = acts.foldl next (view.next act)
      rw [← same]
      exact ih _ (faithful.follows act).1

end CachedStore

end RemoteCall.Directory

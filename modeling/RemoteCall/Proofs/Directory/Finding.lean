import RemoteCall.Directory.Discovery
import RemoteCall.Proofs.Balance.Selection
import RemoteCall.Proofs.Directory.CachedStore

/-! # What finding an address comes to

    To find the address of a call is a lookup, a search for the strategy
    (`prepare_cases`) and a selection (`find_cases`).  A selection reads
    weights through the cache and may build a ring, and leaves all else as it
    is (`select_keeps`); whatever the weights are, it gives an address of the
    list (`select_selects`). -/

namespace RemoteCall

open Directory Balance

/-! ## Strategies by name -/

/-- To get an instance does not change what a name stands for. -/
theorem Extension.Loader.value_get {α : Type} (loader : Loader α) (name other : String) :
    (loader.get name).2.value other = loader.value other := by
  rw [get]
  cases found : loader.entries.get? name with
  | none => rfl
  | some entry =>
      cases built : entry.build with
      | some build =>
          dsimp only
          rw [built]
      | none =>
          dsimp only
          rw [built]
          dsimp only
          rw [value, value, Dictionary.get?_insert]
          by_cases same : other = name
          · rw [if_pos same, same, found]
          · rw [if_neg same]

namespace Directory

/-! ## Selecting -/

/-- Weights are read one after another. -/
theorem Cache.weigh_run (store : Store Event) (key : String) (cache : Cache)
    (addresses : List String) :
    (CachedStore.mk store (cache.weigh store key addresses).2)
        = (CachedStore.mk store cache).run (addresses.map (.weigh key))
      ∧ (cache.weigh store key addresses).1.length = addresses.length := by
  induction addresses generalizing cache with
  | nil => exact ⟨rfl, rfl⟩
  | cons address rest ih =>
      obtain ⟨same, length⟩ := ih (cache.weight store key address).2
      exact ⟨same, congrArg (· + 1) length⟩

namespace Discovery

variable (discovery : Discovery) (store : Store Event)

/-- The weights at which a strategy looks, and the cache that has read them. -/
def weighing (strategy : Strategy) (key : String) (list : AddressList) : List Int32 × Cache :=
  if strategy.weighs && 2 ≤ list.addresses.length then
    discovery.cache.weigh store key list.addresses
  else (list.addresses.map fun _ => 0, discovery.cache)

theorem weighing_run (strategy : Strategy) (key : String) (list : AddressList) :
    (∃ acts, CachedStore.mk store (discovery.weighing store strategy key list).2
        = (CachedStore.mk store discovery.cache).run acts)
      ∧ (discovery.weighing store strategy key list).1.length = list.addresses.length := by
  rw [weighing]
  split
  · obtain ⟨same, length⟩ := discovery.cache.weigh_run store key list.addresses
    exact ⟨⟨_, same⟩, length⟩
  · exact ⟨⟨[], rfl⟩, List.length_map _⟩

/-- The members of a list, each with its weight and its calls. -/
theorem members_eq (strategy : Strategy) (key : String) (list : AddressList) :
    let read := discovery.weighing store strategy key list
    discovery.members store strategy key list
      = ((list.addresses.zip read.1).map fun pair =>
          ⟨pair.1, pair.2, discovery.active.count pair.1⟩, { discovery with cache := read.2 }) :=
  rfl

theorem map_address_members (strategy : Strategy) (key : String) (list : AddressList) :
    (discovery.members store strategy key list).1.map (·.address) = list.addresses := by
  obtain ⟨-, length⟩ := discovery.weighing_run store strategy key list
  rw [members_eq, List.map_map]
  exact List.map_fst_zip (Nat.le_of_eq length.symm)

theorem active_of_mem_members {strategy : Strategy} {key : String} {list : AddressList}
    {member : Member} (mem : member ∈ (discovery.members store strategy key list).1) :
    member.active = discovery.active.count member.address := by
  rw [members_eq] at mem
  obtain ⟨pair, -, rfl⟩ := List.mem_map.mp mem
  rfl

/-- What a selection can change: weights are read, and a ring is built for the list. -/
theorem select_keeps (strategy : Strategy) (key : String) (list : AddressList) :
    let after := (discovery.select store strategy key list).2
    (∃ acts, CachedStore.mk store after.cache = (CachedStore.mk store discovery.cache).run acts)
      ∧ after.strategies = discovery.strategies
      ∧ after.active = discovery.active
      ∧ ∀ other ring, after.balancer.rings.get? other = some ring →
        discovery.balancer.rings.get? other = some ring
          ∨ ring = Ring.ofList Md5.window Ring.replicas list := by
  obtain ⟨read, -⟩ := discovery.weighing_run store strategy key list
  refine ⟨read, rfl, rfl, ?_⟩
  intro other ring found
  exact Balancer.rings_choose strategy list _ found

/-- A selection gives an address of the list. -/
theorem select_selects (strategy : Strategy) {key : String} {list : AddressList}
    (some : list.addresses ≠ []) (fits : ∀ address, discovery.active.count address < 2 ^ 64)
    (ring : RingFits Md5.window discovery.balancer.rings key list) :
    (discovery.select store strategy key list).1.SelectsFrom list.addresses := by
  refine Balancer.choose_selects strategy some
    (discovery.map_address_members store strategy key list) ?_ ring
  intro member mem
  rw [discovery.active_of_mem_members store mem]
  exact fits member.address

/-! ## Finding -/

/-- The discovery after a lookup. -/
def looking (key : String) : Discovery :=
  { discovery with cache := (discovery.cache.lookup store key).2.1 }

/-- The discovery after a lookup and the search for a strategy. -/
def ready (name key : String) : Discovery :=
  { discovery.looking store key with strategies := (discovery.strategies.get name).2 }

/-- What there is to select from and by, after a lookup and the search for a strategy. -/
theorem prepare_cases (name key : String) :
    let looked := discovery.cache.lookup store key
    let outcome := discovery.prepare store name key
    (∃ fault, looked.1 = .error fault
        ∧ outcome = (.error fault, discovery.looking store key, looked.2.2))
      ∨ ∃ list, looked.1 = .ok list
        ∧ outcome = ((discovery.strategies.get name).1.map fun found => (list, found.value),
          discovery.ready store name key, looked.2.2) := by
  dsimp only
  rw [prepare, looking, ready, looking]
  rcases discovery.cache.lookup store key with ⟨fault | list, cache, store'⟩
  · exact .inl ⟨fault, rfl, rfl⟩
  · exact .inr ⟨list, rfl, rfl⟩

/-- An address is found if the service has a list and the strategy is known. -/
theorem find_cases (numbers : List Nat) (name key : String) :
    let looked := discovery.cache.lookup store key
    let outcome := discovery.find store numbers name key
    (∃ fault, looked.1 = .error fault
        ∧ outcome = (.error fault, discovery.looking store key, looked.2.2))
      ∨ ∃ list, looked.1 = .ok list ∧
        ((∃ fault, discovery.strategies.value name = .error fault
            ∧ outcome = (.error fault, discovery.ready store name key, looked.2.2))
          ∨ ∃ strategy, discovery.strategies.value name = .ok strategy
            ∧ let selection := (discovery.ready store name key).select looked.2.2 strategy key list
              outcome = (resolve key (selection.1.resolve numbers), selection.2, looked.2.2)) := by
  intro looked outcome
  have same : outcome = discovery.find store numbers name key := rfl
  rcases discovery.prepare_cases store name key with
    ⟨fault, failed, prepared⟩ | ⟨list, found, prepared⟩
  all_goals
    rw [find, prepared] at same
  · exact .inl ⟨fault, failed, same⟩
  · refine .inr ⟨list, found, ?_⟩
    have value := discovery.strategies.value_eq_get name
    cases known : (discovery.strategies.get name).1 with
    | error fault =>
        rw [known] at same value
        exact .inl ⟨fault, value, same⟩
    | ok found =>
        rw [known] at same value
        exact .inr ⟨found.value, value, same⟩

end Discovery

end Directory

end RemoteCall

import RemoteCall.Proofs.Directory.Coherence

/-! # Whose weight is read

    Weights are cached by address, whatever the service, until a list changes.
    So what is read of an address of a service stands in the store there, or
    for another service that has the address.  It stands there for the service
    itself if no other service lent the address its weight (`Lends`), and the
    acts since a list last changed tell so (`lends_of_readsOnly`): to read
    weights of other addresses does no harm (`weight_of_run`), and to read the
    weight of this one for another service does (`weighs_other_service`). -/

namespace RemoteCall.Directory.CachedStore

open RemoteCall.Directory.Path Store Balance

variable {view : CachedStore} {key address : String}

/-- Whether a weight that is cached for an address stands in the store for a service. -/
def Lends (view : CachedStore) (key address : String) : Prop :=
  ∀ weight, view.cache.weights.get? address = some weight → view.Gives key address weight

theorem Faithful.lends_perform (faithful : view.Faithful) {act : Act}
    (lends : view.Lends key address)
    (own : ∀ other, act = .weigh other address → other = key) :
    (view.perform act).Lends key address := by
  intro weight found
  rcases (faithful.follows act).2.weights address weight found with ⟨old, keeps⟩ | ⟨other, read, gives⟩
  · exact keeps key (lends weight old)
  · exact own other read ▸ gives

theorem Faithful.lends_run (faithful : view.Faithful) {acts : List Act}
    (lends : view.Lends key address)
    (own : ∀ other, .weigh other address ∈ acts → other = key) :
    (view.run acts).Lends key address := by
  induction acts generalizing view with
  | nil => exact lends
  | cons act acts ih =>
      have first : ∀ other, act = .weigh other address → other = key := by
        rintro other rfl
        exact own other (.head _)
      refine ih (faithful.follows act).1 (faithful.lends_perform lends first) ?_
      intro other mem
      exact own other (.tail _ mem)

/-- Whether an act changes the addresses of a service that the cache has. -/
def Alters (view : CachedStore) (act : Act) : Prop :=
  ∃ key list, view.cache.lists.get? key = some list
    ∧ view.addresses key ≠ (view.perform act).addresses key

/-- Whether, since a list last changed, the weight of an address was read for one service only. -/
def ReadsOnly (root : String) (acts : List Act) (key address : String) : Prop :=
  ∃ earlier later, acts = earlier ++ later
    ∧ (earlier = []
      ∨ ∃ before act, earlier = before ++ [act] ∧ ((ofRoot root).run before).Alters act)
    ∧ ∀ other, .weigh other address ∈ later → other = key

theorem lends_of_readsOnly {root : String} {acts : List Act}
    (reads : ReadsOnly root acts key address) : ((ofRoot root).run acts).Lends key address := by
  obtain ⟨earlier, later, rfl, start, own⟩ := reads
  rw [run_append]
  refine (faithful_run root earlier).lends_run ?_ own
  rcases start with rfl | ⟨before, act, rfl, altered, list, found, differ⟩
  · intro weight found
    exact nomatch found
  · intro weight found'
    rw [run_concat, ((faithful_run root before).follows act).2.voided altered list found differ]
      at found'
    exact nomatch found'

/-- What is read of an address in a list: the cached weight, or the one in the store. -/
theorem weight_of_lists (within : view.store.isAvailable = true)
    (listed : view.cache.Lists key address) :
    view.cache.weights.get? address = some (view.weight key address)
      ∨ view.Gives key address (view.weight key address)
      ∨ view.weight key address = -1
        ∧ ∀ n, ¬ view.store.tree.Weighs (view.cache.servicePath key ++ "/" ++ address) n := by
  have read (n : Int32) := @Cache.readWeight_eq_some_iff view.cache view.store key address n
  rw [weight]
  rcases view.cache.weight_cases view.store key address with ⟨unlisted, -⟩
    | ⟨-, ⟨n, cached, outcome⟩ | ⟨-, ⟨n, found, outcome⟩ | ⟨none, outcome⟩⟩⟩
  · exact absurd listed unlisted
  · rw [outcome]
    exact .inl cached
  · rw [outcome]
    exact .inr (.inl ⟨listed, ((read n).mp found).2⟩)
  · rw [outcome]
    refine .inr (.inr ⟨rfl, fun n weighs => ?_⟩)
    exact nomatch none.symm.trans ((read n).mpr ⟨within, weighs⟩)

/-- What is read of an address that a service has: a weight that stands in the store for some
service, and if only this service lent the address its weight, the one that stands there for it. -/
theorem weight_of_run (root : String) (acts : List Act) {key address : String} {list : AddressList}
    (within : ((ofRoot root).run acts).store.isAvailable = true)
    (found : ((ofRoot root).run acts).lookup key = .ok list) (mem : address ∈ list.addresses) :
    let view := ((ofRoot root).run acts).perform (.lookup key)
    let own := view.store.tree.Weighs (withoutTail root ++ "/" ++ key ++ "/" ++ address)
    (ReadsOnly root acts key address →
        (∀ weight, own weight → view.weight key address = weight)
          ∧ ((∀ weight, ¬ own weight) → view.weight key address = -1))
      ∧ ((∃ other, view.Gives other address (view.weight key address))
        ∨ view.weight key address = -1 ∧ ∀ weight, ¬ own weight) := by
  have faithful := faithful_run root acts
  obtain ⟨-, -, cached⟩ := faithful.lookup_eq_ok found
  rw [← servicePath_run root (acts ++ [.lookup key]), run_concat]
  intro view own
  have faithful' : view.Faithful := (faithful.follows (.lookup key)).1
  have listed : view.cache.Lists key address := ⟨list, cached, mem⟩
  have outcome := weight_of_lists ((faithful.store_lookup key).2.trans within) listed
  constructor
  · intro reads
    have lends : view.Lends key address :=
      faithful.lends_perform (lends_of_readsOnly reads) nofun
    rcases outcome with cached | gives | ⟨none, unspelled⟩
    · have gives := lends _ cached
      exact ⟨fun _ stands => gives.2.unique stands, fun unspelled => absurd gives.2 (unspelled _)⟩
    · exact ⟨fun _ stands => gives.2.unique stands, fun unspelled => absurd gives.2 (unspelled _)⟩
    · exact ⟨fun _ stands => absurd stands (unspelled _), fun _ => none⟩
  · rcases outcome with cached | gives | unspelled
    · exact .inl (faithful'.weights address _ cached)
    · exact .inl ⟨key, gives⟩
    · exact .inr unspelled

/-- Once a list changed, the weight is read anew. -/
theorem weight_of_run_changed :
    let view := (ofRoot "/my-rpc").run [
      .create "/my-rpc/A/127.0.0.1:1" (Bytes.ofText "10"),
      .create "/my-rpc/B/127.0.0.1:1" (Bytes.ofText "20"),
      .lookup "A", .lookup "B", .weigh "A" "127.0.0.1:1",
      .create "/my-rpc/A/127.0.0.1:2" (Bytes.ofText "30")]
    view.store.isAvailable = true ∧ view.lookup "B" = .ok ⟨2, ["127.0.0.1:1"]⟩
      ∧ (view.perform (.lookup "B")).weight "B" "127.0.0.1:1" = 20 := by
  intro view
  have within : view.store.isAvailable = true := by
    rw [show view = _ from run_eq_next _ _]
    decide +kernel
  have found : view.lookup "B" = .ok ⟨2, ["127.0.0.1:1"]⟩ := by
    rw [show view = _ from run_eq_next _ _]
    decide +kernel
  refine ⟨within, found, ((weight_of_run _ _ within found (.head _)).1 ?_).1 20 ?_⟩
  · refine ⟨_, [], (List.append_nil _).symm, .inr ⟨[
      .create "/my-rpc/A/127.0.0.1:1" (Bytes.ofText "10"),
      .create "/my-rpc/B/127.0.0.1:1" (Bytes.ofText "20"),
      .lookup "A", .lookup "B", .weigh "A" "127.0.0.1:1"], _, rfl, "A", ⟨1, ["127.0.0.1:1"]⟩, ?_, ?_⟩,
      nofun⟩
    · rw [run_eq_next]
      decide +kernel
    · rw [← run_concat, run_eq_next, run_eq_next]
      decide +kernel
  · rw [← run_concat, run_eq_next]
    refine ⟨"20", ?_, ?_⟩
    all_goals decide +kernel

/-- A weight that was read for one service is what is read for another one that has the address,
whatever stands there. -/
theorem weighs_other_service :
    let view := (ofRoot "/my-rpc").run [
      .create "/my-rpc/A/127.0.0.1:1" (Bytes.ofText "10"),
      .create "/my-rpc/B/127.0.0.1:1" (Bytes.ofText "20"),
      .lookup "A", .lookup "B", .weigh "A" "127.0.0.1:1"]
    view.store.isAvailable = true
      ∧ view.lookup "B" = .ok ⟨2, ["127.0.0.1:1"]⟩
      ∧ view.store.tree.Weighs "/my-rpc/B/127.0.0.1:1" 20
      ∧ view.weight "B" "127.0.0.1:1" = 10 := by
  rw [run_eq_next]
  refine ⟨?_, ?_, ⟨"20", ?_, ?_⟩, ?_⟩
  all_goals decide +kernel

end RemoteCall.Directory.CachedStore

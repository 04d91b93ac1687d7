import RemoteCall.Extension.Catalogue
import RemoteCall.Proofs.Directory.Coherence
import RemoteCall.Proofs.Directory.Finding
import RemoteCall.Proofs.Directory.Registering

/-! # Servers and a client around a store

    A deployment is a store with servers that register themselves there and with
    a client that looks services up and selects addresses (`Act`).  What an act
    does to the store and to the client's cache is what some acts of a store with
    a cache do (`view_perform`), so the cache stays faithful
    (`faithful_view_run`).

    The client keeps rings between selections.  A run keeps the invariant
    `Sound`: a generation belongs to one of the lists that are known, and a
    ring that has the generation of a known list is the ring of that list
    (`sound_run`). -/

namespace RemoteCall.Directory

open Store Balance Extension

/-- A store, the servers that register themselves there and a client. -/
structure Deployment where
  store : Store Event
  discovery : Discovery
  /-- What each server registered. -/
  servers : Nat → Registration
  /-- The lists that somebody was given or made. -/
  lists : List AddressList

namespace Deployment

/-- What can be done. -/
inductive Act where
  /-- Somebody uses the store or the cache of the client. -/
  | view (act : CachedStore.Act)
  /-- A server registers an address of a service. -/
  | register (server : Nat) (key : String) (address : SocketAddress) (weight : UInt32)
  /-- A server deletes what it registered for an address. -/
  | clear (server : Nat) (address : SocketAddress)
  /-- The client finds an address of a service. -/
  | find (numbers : List Nat) (name key : String)
  /-- Somebody is given the list that the cache has of a service. -/
  | lend (key : String)
  /-- Somebody makes a list of his own. -/
  | wrap (addresses : List String)
  /-- The client selects from one of the lists that somebody has. -/
  | select (strategy : Strategy) (key : String) (number : Nat)
  /-- Calls begin and end. -/
  | calls (active : ActiveCalls) (fits : ∀ address, active.count address < 2 ^ 64)

/-- Nothing was done; all servers and the client use one root. -/
def ofRoot (root : String) : Deployment :=
  ⟨.empty, .ofRoot root Catalogue.standard.balancers, fun _ => .ofRoot root, []⟩

/-- The store and the cache of the client. -/
def view (site : Deployment) : CachedStore :=
  ⟨site.store, site.discovery.cache⟩

/-- The deployment with another store and another cache. -/
def reflect (site : Deployment) (view : CachedStore) : Deployment :=
  { site with store := view.store, discovery := { site.discovery with cache := view.cache } }

/-- The client hears what watchers reported, and a server knows what it registered. -/
def absorb (site : Deployment) (server : Nat) (outcome : List Event × Registration × Store Event) :
    Deployment :=
  { site with
    store := outcome.2.2
    discovery := outcome.1.foldl Discovery.absorb site.discovery
    servers := fun other => if other = server then outcome.2.1 else site.servers other }

/-- What an act comes to. -/
def perform (site : Deployment) : Act → Deployment
  | .view act => site.reflect (site.view.perform act)
  | .register server key address weight =>
    site.absorb server ((site.servers server).register site.store key address weight).2
  | .clear server address => site.absorb server ((site.servers server).clear site.store address).2
  | .find numbers name key =>
    let outcome := (site.discovery.find site.store numbers name key).2
    { site with discovery := outcome.1, store := outcome.2 }
  | .lend key => { site with lists := (site.discovery.cache.lists.get? key).toList ++ site.lists }
  | .wrap addresses =>
    let list := ⟨site.discovery.cache.nextGeneration, addresses⟩
    { site.reflect (site.view.perform .number) with lists := list :: site.lists }
  | .select strategy key number =>
    match site.lists[number]? with
    | none => site
    | some list => { site with discovery := (site.discovery.select site.store strategy key list).2 }
  | .calls active _ => { site with discovery := { site.discovery with active } }

/-- What acts come to, one after another. -/
def run (site : Deployment) (acts : List Act) : Deployment :=
  acts.foldl perform site

theorem run_append (site : Deployment) (acts more : List Act) :
    site.run (acts ++ more) = (site.run acts).run more :=
  List.foldl_append

theorem run_concat (site : Deployment) (acts : List Act) (act : Act) :
    site.run (acts ++ [act]) = (site.run acts).perform act :=
  run_append site acts [act]

/-! ## What happens to the store and the cache -/

variable {site : Deployment}

theorem foldl_absorb (discovery : Discovery) (events : List Event) :
    events.foldl Discovery.absorb discovery
      = { discovery with cache := events.foldl Cache.absorb discovery.cache } := by
  induction events generalizing discovery with
  | nil => rfl
  | cons event events ih => exact ih _

theorem view_absorb (site : Deployment) (server : Nat)
    (outcome : List Event × Registration × Store Event) :
    (site.absorb server outcome).view = site.view.absorb (outcome.1, outcome.2.2) := by
  rw [view, absorb, foldl_absorb]
  rfl

/-- A server creates a node at most. -/
theorem view_register (site : Deployment) (server : Nat) (key : String) (address : SocketAddress)
    (weight : UInt32) :
    let path := (site.servers server).nodePath key address
    (site.perform (.register server key address weight)).view = site.view
      ∨ (site.perform (.register server key address weight)).view
        = site.view.perform (.create path (Bytes.ofText (toString weight.toNat))) := by
  intro path
  rw [perform, view_absorb]
  rcases (site.servers server).register_cases site.store key address weight with
    ⟨-, outcome⟩ | ⟨-, ⟨-, fault, outcome⟩ | ⟨-, outcome⟩ | ⟨-, outcome⟩⟩
  · rw [outcome]
    exact .inl rfl
  · rw [outcome]
    exact .inl rfl
  · rw [outcome]
    exact .inl rfl
  · rw [outcome]
    exact .inr rfl

/-- The paths that a server deletes for an address. -/
def clearing (site : Deployment) (server : Nat) (address : SocketAddress) : List String :=
  (site.servers server).registered.filter (Registration.isOf address)

theorem view_clear (site : Deployment) (server : Nat) (address : SocketAddress) :
    (site.perform (.clear server address)).view
      = site.view.run ((site.clearing server address).map .delete) := by
  rw [perform, view_absorb]
  exact Registration.absorb_deleteAll site.view (site.servers server) _

theorem view_select (site : Deployment) (strategy : Strategy) (key : String) (number : Nat) :
    ∃ acts, (site.perform (.select strategy key number)).view = site.view.run acts := by
  rw [perform]
  cases site.lists[number]? with
  | none => exact ⟨[], rfl⟩
  | some list =>
      obtain ⟨read, -⟩ := site.discovery.select_keeps site.store strategy key list
      exact read

theorem view_find (site : Deployment) (numbers : List Nat) (name key : String) :
    ∃ acts, (site.perform (.find numbers name key)).view = site.view.run (.lookup key :: acts) := by
  rw [perform]
  rcases site.discovery.find_cases site.store numbers name key with
    ⟨fault, -, outcome⟩ | ⟨list, -, ⟨fault, -, outcome⟩ | ⟨strategy, -, outcome⟩⟩
  · rw [outcome]
    exact ⟨[], rfl⟩
  · rw [outcome]
    exact ⟨[], rfl⟩
  · rw [outcome]
    obtain ⟨⟨acts, read⟩, -⟩ := (site.discovery.ready site.store name key).select_keeps
      (site.discovery.cache.lookup site.store key).2.2 strategy key list
    exact ⟨acts, read⟩

/-- Whatever is done, the store and the cache are as after some acts of a view. -/
theorem view_perform (site : Deployment) (act : Act) :
    ∃ acts, (site.perform act).view = site.view.run acts := by
  cases act with
  | view act => exact ⟨[act], rfl⟩
  | register server key address weight =>
      rcases site.view_register server key address weight with same | same
      · exact ⟨[], same⟩
      · exact ⟨[.create _ _], same⟩
  | clear server address => exact ⟨_, site.view_clear server address⟩
  | find numbers name key =>
      obtain ⟨acts, same⟩ := site.view_find numbers name key
      exact ⟨_, same⟩
  | lend key => exact ⟨[], rfl⟩
  | wrap addresses => exact ⟨[.number], rfl⟩
  | select strategy key number => exact site.view_select strategy key number
  | calls active fits => exact ⟨[], rfl⟩

theorem view_run (site : Deployment) (acts : List Act) :
    ∃ acts', (site.run acts).view = site.view.run acts' := by
  induction acts generalizing site with
  | nil => exact ⟨[], rfl⟩
  | cons act acts ih =>
      obtain ⟨first, same⟩ := site.view_perform act
      obtain ⟨rest, same'⟩ := ih (site.perform act)
      refine ⟨first ++ rest, ?_⟩
      rw [CachedStore.run_append, ← same]
      exact same'

/-- The cache of the client shows how the store is, whatever is done. -/
theorem faithful_view_run (root : String) (acts : List Act) :
    ((ofRoot root).run acts).view.Faithful := by
  obtain ⟨acts', same⟩ := (ofRoot root).view_run acts
  rw [same]
  exact CachedStore.faithful_run root acts'

theorem servicePath_run (root : String) (acts : List Act) (key : String) :
    ((ofRoot root).run acts).view.cache.servicePath key = Path.withoutTail root ++ "/" ++ key := by
  obtain ⟨acts', same⟩ := (ofRoot root).view_run acts
  rw [same]
  exact CachedStore.servicePath_run root acts' key

/-! ## What the client keeps -/

/-- Whether a list is in the cache or somebody has it. -/
def Knows (site : Deployment) (list : AddressList) : Prop :=
  list ∈ site.lists ∨ ∃ key, site.discovery.cache.lists.get? key = some list

/-- The generation of the next list. -/
def next (site : Deployment) : Nat :=
  site.discovery.cache.nextGeneration

/-- The ring that is kept for a key. -/
def ring? (site : Deployment) (key : String) : Option Ring :=
  site.discovery.balancer.rings.get? key

/-- What the client keeps belongs to the lists that are known. -/
structure Sound (site : Deployment) : Prop where
  faithful : site.view.Faithful
  below : ∀ list, site.Knows list → list.generation < site.next
  /-- A generation belongs to one list. -/
  apart : ∀ list list', site.Knows list → site.Knows list' →
    list.generation = list'.generation → list = list'
  oldRings : ∀ key ring, site.ring? key = some ring → ring.generation < site.next
  /-- The ring kept for a key is that of the list, if it has its generation. -/
  rings : ∀ key list, site.Knows list →
    RingFits Md5.window site.discovery.balancer.rings key list
  strategies : ∀ strategy : Strategy, site.discovery.strategies.value strategy.name = .ok strategy
  fits : ∀ address, site.discovery.active.count address < 2 ^ 64

/-- How lists and rings can come. -/
structure Grows (before after : Deployment) : Prop where
  next : before.next ≤ after.next
  /-- A list that was not known has a new generation. -/
  known : ∀ list, after.Knows list → before.Knows list
    ∨ before.next ≤ list.generation ∧ list.generation < after.next
  apart : ∀ list list', after.Knows list → after.Knows list' → before.next ≤ list.generation →
    list.generation = list'.generation → list = list'
  /-- A ring that was not kept is that of a list that was known. -/
  rings : ∀ key ring, after.ring? key = some ring → before.ring? key = some ring
    ∨ ∃ list, before.Knows list ∧ ring = Ring.ofList Md5.window Ring.replicas list

/-- What comes later has another generation than what was known. -/
theorem Sound.grow {after : Deployment} (sound : site.Sound) (grows : site.Grows after)
    (faithful : after.view.Faithful)
    (strategies : ∀ strategy : Strategy,
      after.discovery.strategies.value strategy.name = .ok strategy)
    (fits : ∀ address, after.discovery.active.count address < 2 ^ 64) : after.Sound := by
  have old {list : AddressList} (known : after.Knows list) (less : list.generation < site.next) :
      site.Knows list :=
    (grows.known list known).resolve_right fun new => absurd less (Nat.not_lt.mpr new.1)
  have oldRings (key : String) (ring : Ring) (found : after.ring? key = some ring) :
      ring.generation < site.next := by
    rcases grows.rings key ring found with kept | ⟨list, known, rfl⟩
    · exact sound.oldRings key ring kept
    · exact sound.below list known
  constructor
  case faithful => exact faithful
  case below =>
    intro list known
    rcases grows.known list known with known | new
    · exact Nat.lt_of_lt_of_le (sound.below list known) grows.next
    · exact new.2
  case apart =>
    intro list list' known known' same
    by_cases less : list.generation < site.next
    · exact sound.apart list list' (old known less) (old known' (same ▸ less)) same
    · exact grows.apart list list' known known' (Nat.not_lt.mp less) same
  case oldRings =>
    intro key ring found
    exact Nat.lt_of_lt_of_le (oldRings key ring found) grows.next
  case rings =>
    intro key list known ring found same
    have known := old known (same ▸ oldRings key ring found)
    rcases grows.rings key ring found with kept | ⟨list', known', rfl⟩
    · exact sound.rings key list known ring kept same
    · rw [sound.apart list' list known' known same]
  case strategies => exact strategies
  case fits => exact fits

/-- What is done to the store and to the cache lets lists come with new generations. -/
theorem Sound.grows_of_view {after : Deployment} (sound : site.Sound) {acts : List CachedStore.Act}
    (same : after.view = site.view.run acts) (lists : ∀ list ∈ after.lists, site.Knows list)
    (rings : ∀ key ring, after.ring? key = some ring → site.ring? key = some ring
      ∨ ∃ list, site.Knows list ∧ ring = Ring.ofList Md5.window Ring.replicas list) :
    site.Grows after := by
  have later : site.discovery.cache.Extends after.discovery.cache := by
    have later := sound.faithful.later_run acts
    rw [← same] at later
    exact later
  have faithful : after.view.Faithful := by
    rw [same]
    exact sound.faithful.run acts
  -- what was not known is in the cache
  have known (list : AddressList) (known : after.Knows list) : site.Knows list
      ∨ site.next ≤ list.generation ∧ ∃ key, after.discovery.cache.lists.get? key = some list := by
    rcases known with mem | ⟨key, found⟩
    · exact .inl (lists list mem)
    · rcases later.lists key list found with old | new
      · exact .inl (.inr ⟨key, old⟩)
      · exact .inr ⟨new, key, found⟩
  constructor
  case next => exact later.next
  case known =>
    intro list known'
    rcases known list known' with old | ⟨new, key, found⟩
    · exact .inl old
    · exact .inr ⟨new, faithful.numbered.below key list found⟩
  case apart =>
    intro list list' known' known'' new equal
    have cached {list : AddressList} (known' : after.Knows list)
        (new : site.next ≤ list.generation) :
        ∃ key, after.discovery.cache.lists.get? key = some list := by
      rcases known list known' with old | ⟨-, cached⟩
      · exact absurd (sound.below list old) (Nat.not_lt.mpr new)
      · exact cached
    obtain ⟨key, found⟩ := cached known' new
    obtain ⟨key', found'⟩ := cached known'' (equal ▸ new)
    obtain rfl := faithful.numbered.apart key key' list list' found found' equal
    exact Option.some.inj (found.symm.trans found')
  case rings => exact rings

/-- Where only the store and the cache were used, what the client keeps stays. -/
theorem Sound.of_view {after : Deployment} (sound : site.Sound) (acts : List CachedStore.Act)
    (same : after.view = site.view.run acts) (lists : ∀ list ∈ after.lists, site.Knows list)
    (rings : after.discovery.balancer = site.discovery.balancer)
    (strategies : ∀ name, after.discovery.strategies.value name
      = site.discovery.strategies.value name)
    (active : after.discovery.active = site.discovery.active) : after.Sound := by
  have faithful : after.view.Faithful := by
    rw [same]
    exact sound.faithful.run acts
  have grows : site.Grows after := by
    refine sound.grows_of_view same lists ?_
    intro key ring found
    rw [ring?, rings] at found
    exact .inl found
  refine sound.grow grows faithful ?_ ?_
  · intro strategy
    rw [strategies]
    exact sound.strategies strategy
  · rw [active]
    exact sound.fits

/-- A selection from a known list keeps a ring of that list at most. -/
theorem Sound.select (sound : site.Sound) (strategy : Strategy) (key : String) {list : AddressList}
    (known : site.Knows list) :
    Sound { site with
      discovery := (site.discovery.select site.store strategy key list).2 } := by
  obtain ⟨⟨acts, read⟩, strategies, active, rings⟩ :=
    site.discovery.select_keeps site.store strategy key list
  refine sound.grow (sound.grows_of_view read (fun list mem => .inl mem) ?_) ?_ ?_ ?_
  · intro other ring found
    exact (rings other ring found).imp_right fun built => ⟨list, known, built⟩
  · show CachedStore.Faithful (CachedStore.mk site.store _)
    rw [read]
    exact sound.faithful.run acts
  · intro strategy'
    rw [strategies]
    exact sound.strategies strategy'
  · rw [active]
    exact sound.fits

/-- The deployment after the lookup and the search for a strategy with which finding begins. -/
def ready (site : Deployment) (name key : String) : Deployment :=
  { site with
    store := (site.discovery.cache.lookup site.store key).2.2
    discovery := site.discovery.ready site.store name key }

theorem Sound.ready (sound : site.Sound) (name key : String) : (site.ready name key).Sound :=
  sound.of_view [.lookup key] rfl (fun _ mem => .inl mem) rfl
    (fun other => site.discovery.strategies.value_get name other) rfl

/-- The list from which finding selects is known by then. -/
theorem Sound.knows_ready (sound : site.Sound) {name key : String} {list : AddressList}
    (found : site.view.lookup key = .ok list) : (site.ready name key).Knows list := by
  obtain ⟨-, -, cached⟩ := sound.faithful.lookup_eq_ok found
  exact .inr ⟨key, cached⟩

theorem Sound.find (sound : site.Sound) (numbers : List Nat) (name key : String) :
    (site.perform (.find numbers name key)).Sound := by
  rw [perform]
  rcases site.discovery.find_cases site.store numbers name key with
    ⟨fault, -, outcome⟩ | ⟨list, found, ⟨fault, -, outcome⟩ | ⟨strategy, -, outcome⟩⟩
  · rw [outcome]
    exact sound.of_view [.lookup key] rfl (fun _ mem => .inl mem) rfl (fun _ => rfl) rfl
  · rw [outcome]
    exact sound.ready name key
  · rw [outcome]
    exact (sound.ready name key).select strategy key (sound.knows_ready found)

/-- A list that somebody makes has a generation of its own. -/
theorem Sound.wrap (sound : site.Sound) (addresses : List String) :
    (site.perform (.wrap addresses)).Sound := by
  have faithful : (site.view.perform .number).Faithful := (sound.faithful.follows .number).1
  -- a list is the new one or was known
  have known (list : AddressList) (known : (site.perform (.wrap addresses)).Knows list) :
      list = ⟨site.next, addresses⟩ ∨ site.Knows list := by
    rcases known with mem | cached
    · exact (List.mem_cons.mp mem).imp_right .inl
    · exact .inr (.inr cached)
  refine sound.grow ?_ faithful sound.strategies sound.fits
  constructor
  case next => exact Nat.le_succ site.next
  case known =>
    intro list known'
    rcases known list known' with rfl | old
    · exact .inr ⟨Nat.le_refl _, Nat.lt_succ_self site.next⟩
    · exact .inl old
  case apart =>
    intro list list' known' known'' new equal
    have fresh {list : AddressList} (known' : (site.perform (.wrap addresses)).Knows list)
        (new : site.next ≤ list.generation) : list = ⟨site.next, addresses⟩ := by
      rcases known list known' with same | old
      · exact same
      · exact absurd (sound.below list old) (Nat.not_lt.mpr new)
    rw [fresh known' new, fresh known'' (equal ▸ new)]
  case rings => exact fun _ _ => .inl

/-- A server that uses the store changes nothing else at the client. -/
theorem Sound.absorb (sound : site.Sound) {server : Nat}
    {outcome : List Event × Registration × Store Event} {acts : List CachedStore.Act}
    (same : (site.absorb server outcome).view = site.view.run acts) :
    (site.absorb server outcome).Sound := by
  have discovery : (site.absorb server outcome).discovery = { site.discovery with
      cache := outcome.1.foldl Cache.absorb site.discovery.cache } := foldl_absorb _ _
  refine sound.of_view acts same (fun _ mem => .inl mem) ?_ ?_ ?_
  all_goals
    rw [discovery]
  intro name
  rfl

/-- Whatever is done, what the client keeps belongs to the lists that are known. -/
theorem Sound.perform (sound : site.Sound) (act : Act) : (site.perform act).Sound := by
  cases act with
  | view act =>
      exact sound.of_view [act] rfl (fun _ mem => .inl mem) rfl (fun _ => rfl) rfl
  | register server key address weight =>
      obtain ⟨acts, same⟩ := site.view_perform (.register server key address weight)
      exact sound.absorb same
  | clear server address =>
      obtain ⟨acts, same⟩ := site.view_perform (.clear server address)
      exact sound.absorb same
  | find numbers name key => exact sound.find numbers name key
  | lend key =>
      refine sound.of_view [] rfl ?_ rfl (fun _ => rfl) rfl
      intro list mem
      rcases List.mem_append.mp mem with lent | mem
      · exact .inr ⟨key, Option.mem_toList.mp lent⟩
      · exact .inl mem
  | wrap addresses => exact sound.wrap addresses
  | select strategy key number =>
      rw [Deployment.perform]
      cases found : site.lists[number]? with
      | none => exact sound
      | some list => exact sound.select strategy key (.inl (List.mem_of_getElem? found))
  | calls active fits => exact { sound with fits }

theorem sound_ofRoot (root : String) : (ofRoot root).Sound where
  faithful := CachedStore.faithful_ofRoot root
  below := by
    rintro list (mem | ⟨key, found⟩)
    · exact nomatch mem
    · exact nomatch found
  apart := by
    rintro list list' (mem | ⟨key, found⟩)
    · exact nomatch mem
    · exact nomatch found
  oldRings _ _ := nofun
  rings _ _ _ _ := nofun
  strategies strategy := by cases strategy <;> rfl
  fits _ := Nat.two_pow_pos 64

theorem sound_run (root : String) (acts : List Act) : ((ofRoot root).run acts).Sound := by
  have sound := sound_ofRoot root
  generalize ofRoot root = site at sound
  induction acts generalizing site with
  | nil => exact sound
  | cons act acts ih => exact ih (site.perform act) (sound.perform act)

end Deployment

end RemoteCall.Directory

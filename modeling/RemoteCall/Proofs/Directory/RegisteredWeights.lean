import RemoteCall.Proofs.Decimal.Printed
import RemoteCall.Proofs.Directory.Registrations
import RemoteCall.Proofs.Directory.Weights
import RemoteCall.Settings.Problem

/-! # Which weight is read of a registered address

    A server registers a weight of 32 bits without a sign, and settings allow
    each but zero; a weight is read as a number of 32 bits with a sign.  So the
    data of a new node spells a weight if the weight is below half of the range
    (`Tree.weighs_iff_of_printed`), and the data stays as long as the node does
    (`Faithful.keeps_perform`, `get?_run`).  No cached weight comes between if
    no other service has the address.

    So a weight of the lower half is read as it was registered, and one of the
    upper half is read as that of an address without a weight
    (`weight_of_register`, `misreads_weight`). -/

namespace RemoteCall.Directory

open RemoteCall.Directory.Path Balance

/-! ## The data of a node -/

/-- What stands before a name in a path is a path. -/
theorem Path.IsPath.of_append {front name : String} (isPath : IsPath (front ++ "/" ++ name))
    (nonempty : front ≠ "") : IsPath front := by
  have whole : (front ++ "/" ++ name).toList = front.toList ++ '/' :: name.toList := by
    simp [String.toList_append]
  obtain ⟨first, gapless, -⟩ := isPath
  rw [whole] at first gapless
  refine ⟨?_, ?_, ?_⟩
  · cases chars : front.toList with
    | nil => exact absurd (String.toList_inj.mp chars) nonempty
    | cons c rest => rwa [chars] at first
  · exact fun gap => gapless (gap.trans (List.prefix_append _ _).isInfix)
  · intro _ last
    obtain ⟨start, same⟩ := List.getLast?_eq_some_iff.mp last
    refine gapless ⟨start, name.toList, ?_⟩
    rw [same]
    simp

/-- A printed number spells a weight if it is below half of the range. -/
theorem Tree.weighs_iff_of_printed {tree : Tree} {path : String} {n : Nat}
    (found : tree.nodes.get? path = some (Bytes.ofText (toString n))) {weight : Int32} :
    tree.Weighs path weight ↔ n < 2 ^ 31 ∧ weight.toInt = n := by
  have read : Decimal.int? 32 (Text.trim (toString n)) = some weight.toInt
      ↔ n < 2 ^ 31 ∧ weight.toInt = n := by
    rw [Text.trim_toString, Decimal.int?_toString]
    by_cases less : n < 2 ^ 31
    · rw [if_pos less, Option.some_inj, eq_comm]
      exact (and_iff_right less).symm
    · rw [if_neg less]
      exact iff_of_false nofun fun both => less both.1
  rw [← read]
  constructor
  · rintro ⟨text, found', spelled⟩
    have decoded := Utf8.decode_ofText text
    rw [← Option.some.inj (found.symm.trans found'), Utf8.decode_ofText] at decoded
    rwa [Except.ok.inj decoded]
  · exact fun spelled => ⟨_, found, spelled⟩

namespace CachedStore

variable {view : CachedStore}

/-- What is read where a printed number stands, if no other service has the address. -/
theorem Faithful.toInt_weight (faithful : view.Faithful) {key address : String} {n : Nat}
    (within : view.store.isAvailable = true) (listed : view.cache.Lists key address)
    (found : view.store.tree.nodes.get? (view.cache.servicePath key ++ "/" ++ address)
      = some (Bytes.ofText (toString n)))
    (alone : ∀ other, other ≠ key →
      ¬ view.store.tree.contains (view.cache.servicePath other ++ "/" ++ address) = true) :
    (view.weight key address).toInt = if n < 2 ^ 31 then (n : Int) else -1 := by
  have own {weight : Int32} (gives : view.Gives key address weight) :
      weight.toInt = if n < 2 ^ 31 then (n : Int) else -1 := by
    obtain ⟨less, same⟩ := (Tree.weighs_iff_of_printed found).mp gives.2
    rw [if_pos less, same]
  rcases weight_of_lists within listed with cached | gives | ⟨none, unspelled⟩
  · obtain ⟨other, gives⟩ := faithful.weights address _ cached
    by_cases same : other = key
    · exact own (same ▸ gives)
    · exact absurd gives.2.contains (alone other same)
  · exact own gives
  · have large : ¬ n < 2 ^ 31 := by
      intro less
      refine unspelled (Int32.ofNat n) ((Tree.weighs_iff_of_printed found).mpr ⟨less, ?_⟩)
      exact Int32.toInt_ofNat_of_lt less
    rw [if_neg large, none]
    rfl

/-- An act leaves the data of all nodes that stay. -/
theorem Faithful.keeps_perform (faithful : view.Faithful) (act : Act) :
    view.store.tree.Keeps (view.perform act).store.tree := by
  cases act with
  | create path data =>
      rcases faithful.tree_create path data with ⟨⟨-, -, absent⟩, grown⟩ | ⟨-, unchanged⟩
      · rw [grown]
        exact Tree.keeps_insert absent data
      · exact Tree.keeps_of_eq (congrArg (·.store.tree) unchanged)
  | delete path =>
      rcases faithful.tree_delete path with ⟨-, pruned⟩ | ⟨-, unchanged⟩
      · rw [pruned]
        exact Tree.keeps_erase path
      · exact Tree.keeps_of_eq (congrArg (·.store.tree) unchanged)
  | become isAvailable => exact Tree.keeps_of_eq rfl
  | lookup key => exact Tree.keeps_of_eq (faithful.store_lookup key).1
  | weigh key address => exact Tree.keeps_of_eq rfl
  | number => exact Tree.keeps_of_eq rfl

/-- Deletions leave no node that was not there, and the data of all nodes that stay. -/
theorem Faithful.keeps_deletions (faithful : view.Faithful) (paths : List String) :
    let after := (view.run (paths.map .delete)).store.tree
    (∀ path, after.contains path = true → view.store.tree.contains path = true)
      ∧ view.store.tree.Keeps after := by
  induction paths generalizing view with
  | nil => exact ⟨fun _ => id, fun _ _ found _ => found⟩
  | cons next rest ih =>
      obtain ⟨old, keeps⟩ := ih (faithful.follows (.delete next)).1
      have first (path : String)
          (there : (view.perform (.delete next)).store.tree.contains path = true) :
          view.store.tree.contains path = true := by
        rcases faithful.tree_delete next with ⟨-, pruned⟩ | ⟨-, unchanged⟩
        · rw [pruned] at there
          exact ((Tree.contains_erase next path).mp there).2
        · rwa [unchanged] at there
      refine ⟨fun path there => first path (old path there), fun path data found there => ?_⟩
      exact keeps path data (faithful.keeps_perform (.delete next) path data found (old path there))
        there

end CachedStore

namespace Deployment

variable {site : Deployment} {path : String}

/-- An act leaves the data of all nodes that stay. -/
theorem keeps_perform (faithful : site.view.Faithful) (act : Act) :
    site.store.tree.Keeps (site.perform act).store.tree := by
  cases act with
  | view act => exact faithful.keeps_perform act
  | register server key address weight =>
      show site.store.tree.Keeps (site.perform (.register server key address weight)).view.store.tree
      rcases site.view_register server key address weight with unchanged | created
      · exact Tree.keeps_of_eq (congrArg (·.store.tree) unchanged)
      · rw [created]
        exact faithful.keeps_perform _
  | clear server address =>
      show site.store.tree.Keeps (site.perform (.clear server address)).view.store.tree
      rw [view_clear]
      exact (faithful.keeps_deletions _).2
  | find numbers name key =>
      rw [store_find]
      exact Tree.keeps_of_eq (faithful.store_lookup key).1
  | lend key => exact Tree.keeps_of_eq rfl
  | wrap addresses => exact Tree.keeps_of_eq rfl
  | select strategy key number =>
      exact Tree.keeps_of_eq (congrArg (·.tree) (site.perform_select strategy key number).1)
  | calls active fits => exact Tree.keeps_of_eq rfl

/-- Whether there is a node at a path all along some acts. -/
def HoldsAlong (site : Deployment) (path : String) (acts : List Act) : Prop :=
  ∀ before after, acts = before ++ after → (site.run before).Holds path

/-- A node has its data as long as it is there. -/
theorem get?_run (faithful : site.view.Faithful) {data : Bytes} {acts : List Act}
    (found : site.store.tree.nodes.get? path = some data) (there : site.HoldsAlong path acts) :
    (site.run acts).store.tree.nodes.get? path = some data := by
  induction acts generalizing site with
  | nil => exact found
  | cons act acts ih =>
      obtain ⟨acts', same⟩ := site.view_perform act
      have faithful' : (site.perform act).view.Faithful := by
        rw [same]
        exact faithful.run acts'
      refine ih faithful' (keeps_perform faithful act path data found (there [act] acts rfl)) ?_
      rintro before after rfl
      exact there (act :: before) after rfl

/-! ## New nodes -/

/-- A server creates the node of a path that is free and that it has not registered. -/
theorem view_register_free (site : Deployment) (server : Nat) (key : String)
    (address : SocketAddress) (weight : UInt32)
    (fresh : ¬ site.Registered server ((site.servers server).nodePath key address))
    (free : isValid ((site.servers server).nodePath key address) = true
      ∧ site.store.isAvailable = true
      ∧ site.store.tree.contains ((site.servers server).nodePath key address) = false) :
    (site.perform (.register server key address weight)).view
      = site.view.perform (.create ((site.servers server).nodePath key address)
          (Bytes.ofText (toString weight.toNat))) := by
  rw [perform, (site.servers server).register_free site.store (Bool.eq_false_iff.mpr fresh) free,
    view_absorb]
  rfl

/-- The node has the weight as its data. -/
theorem get?_register_free (faithful : site.view.Faithful) {server : Nat} {key : String}
    {address : SocketAddress} (weight : UInt32)
    (fresh : ¬ site.Registered server ((site.servers server).nodePath key address))
    (free : isValid ((site.servers server).nodePath key address) = true
      ∧ site.store.isAvailable = true
      ∧ site.store.tree.contains ((site.servers server).nodePath key address) = false) :
    (site.perform (.register server key address weight)).store.tree.nodes.get?
        ((site.servers server).nodePath key address)
      = some (Bytes.ofText (toString weight.toNat)) := by
  show (site.perform (.register server key address weight)).view.store.tree.nodes.get? _ = _
  rcases faithful.tree_create ((site.servers server).nodePath key address)
    (Bytes.ofText (toString weight.toNat)) with ⟨-, grown⟩ | ⟨taken, -⟩
  · rw [site.view_register_free server key address weight fresh free, grown, Tree.get?_insert,
      if_pos rfl]
  · exact absurd free taken

/-- A server leaves the nodes as they are, or the path is new to it and free. -/
theorem view_register_or_free (site : Deployment) (server : Nat) (key : String)
    (address : SocketAddress) (weight : UInt32) :
    let path := (site.servers server).nodePath key address
    (site.perform (.register server key address weight)).view = site.view
      ∨ ¬ site.Registered server path ∧ isValid path = true ∧ site.store.isAvailable = true
        ∧ site.store.tree.contains path = false := by
  intro path
  rw [perform, view_absorb]
  rcases (site.servers server).register_cases site.store key address weight with
    ⟨-, outcome⟩ | ⟨unregistered, ⟨-, fault, outcome⟩ | ⟨-, outcome⟩ | ⟨free, -⟩⟩
  · rw [outcome]
    exact .inl rfl
  · rw [outcome]
    exact .inl rfl
  · rw [outcome]
    exact .inl rfl
  · exact .inr ⟨Bool.eq_false_iff.mp unregistered, free⟩

/-- A registration creates a node exactly if the store lets it and the server has not registered the
path; the node has the weight as its data. -/
theorem creates_iff (faithful : site.view.Faithful) (server : Nat) (key : String)
    (address : SocketAddress) (weight : UInt32) :
    let path := (site.servers server).nodePath key address
    let after := site.perform (.register server key address weight)
    (¬ site.Holds path ∧ after.Holds path
        ↔ site.store.isAvailable = true ∧ IsPath path ∧ ¬ site.Registered server path
          ∧ ¬ site.Holds path)
      ∧ (¬ site.Holds path ∧ after.Holds path → after.store.tree.nodes.get? path
        = some (Bytes.ofText (toString weight.toNat))) := by
  intro path after
  have created (within : site.store.isAvailable = true) (isPath : IsPath path)
      (fresh : ¬ site.Registered server path) (absent : ¬ site.Holds path) :
      after.store.tree.nodes.get? path = some (Bytes.ofText (toString weight.toNat)) :=
    get?_register_free faithful weight fresh
      ⟨(isValid_iff_isPath path).mpr isPath, within, Bool.eq_false_iff.mpr absent⟩
  have guards : ¬ site.Holds path ∧ after.Holds path
      ↔ site.store.isAvailable = true ∧ IsPath path ∧ ¬ site.Registered server path
        ∧ ¬ site.Holds path := by
    constructor
    · rintro ⟨absent, there⟩
      rcases site.view_register_or_free server key address weight with
        same | ⟨fresh, valid, within, -⟩
      · have there : after.view.store.tree.contains path = true := there
        rw [same] at there
        exact absurd there absent
      · exact ⟨within, (isValid_iff_isPath path).mp valid, fresh, absent⟩
    · rintro ⟨within, isPath, fresh, absent⟩
      exact ⟨absent, Option.isSome_of_eq_some (created within isPath fresh absent)⟩
  refine ⟨guards, fun creates => ?_⟩
  obtain ⟨within, isPath, fresh, absent⟩ := guards.mp creates
  exact created within isPath fresh absent

/-! ## Weights that are registered and read -/

/-- What a client reads where the data of a node is a printed number, if no other service has the
address. -/
theorem reads_printed (root : String) (acts : List Act) {key : String} {address : SocketAddress}
    {n : Nat} (within : ((ofRoot root).run acts).store.isAvailable = true)
    (stands : ((ofRoot root).run acts).store.tree.nodes.get?
        (withoutTail root ++ "/" ++ key ++ "/" ++ address.text)
      = some (Bytes.ofText (toString n)))
    (alone : ∀ other, other ≠ key → ¬ ((ofRoot root).run acts).Holds
      (withoutTail root ++ "/" ++ other ++ "/" ++ address.text)) :
    let view := ((ofRoot root).run acts).view
    (∃ list, view.lookup key = .ok list ∧ address.text ∈ list.addresses)
      ∧ ((view.perform (.lookup key)).weight key address.text).toInt
        = if n < 2 ^ 31 then (n : Int) else -1 := by
  intro view
  have faithful : view.Faithful := faithful_view_run root acts
  have services (key : String) : view.cache.servicePath key = withoutTail root ++ "/" ++ key :=
    servicePath_run root acts key
  have there : ((ofRoot root).run acts).Holds
      (view.cache.servicePath key ++ "/" ++ address.text) := by
    rw [services]
    exact Option.isSome_of_eq_some stands
  -- the client can tell, as the path of the service is one
  have canTell : view.CanTell key := by
    have isPath := (isValid_iff_isPath _).mp (faithful.closed.valid _ there)
    refine .inr ⟨isPath.of_append fun empty => ?_, within⟩
    simp [services] at empty
  obtain ⟨list, found, mem⟩ := exists_lookup faithful there canTell
  refine ⟨⟨list, found, mem⟩, ?_⟩
  -- and reads what the data spells, as a lookup leaves the nodes
  obtain ⟨-, -, cached⟩ := faithful.lookup_eq_ok found
  obtain ⟨faithful', follows⟩ := faithful.follows (.lookup key)
  obtain ⟨tree, reach⟩ := faithful.store_lookup key
  refine faithful'.toInt_weight (reach.trans within) ⟨list, cached, mem⟩ ?_ ?_
  · rw [follows.later.servicePath_eq, services, tree]
    exact stands
  · intro other differs
    rw [follows.later.servicePath_eq, services, tree]
    exact alone other differs

/-- What a client reads of the weight with which a node was created, as long as the node is there and
no other service has the address. -/
theorem weight_of_register (root : String) (acts : List Act) (server : Nat) (key : String)
    (address : SocketAddress) (weight : UInt32) :
    let path key := withoutTail root ++ "/" ++ key ++ "/" ++ address.text
    let site := (ofRoot root).run acts
    let after := site.perform (.register server key address weight)
    let creates := ¬ site.Holds (path key) ∧ after.Holds (path key)
    (creates ↔ site.store.isAvailable = true ∧ IsPath (path key)
        ∧ ¬ site.Registered server (path key) ∧ ¬ site.Holds (path key))
      ∧ (creates → ∀ later, after.HoldsAlong (path key) later →
        let last := after.run later
        last.store.isAvailable = true → (∀ other, other ≠ key → ¬ last.Holds (path other)) →
          (∃ list, last.view.lookup key = .ok list ∧ address.text ∈ list.addresses)
            ∧ ((last.view.perform (.lookup key)).weight key address.text).toInt
              = if weight.toNat < 2 ^ 31 then (weight.toNat : Int) else -1) := by
  intro path site after creates
  have faithful := faithful_view_run root acts
  have pathIs : (site.servers server).nodePath key address = path key :=
    nodePath_run root acts server key address
  obtain ⟨guards, data⟩ := creates_iff faithful server key address weight
  rw [pathIs] at guards data
  refine ⟨guards, ?_⟩
  intro created later kept last within alone
  -- the node still has its data
  have afterIs : after = (ofRoot root).run (acts ++ [.register server key address weight]) :=
    (run_concat _ acts _).symm
  have lastIs : last
      = (ofRoot root).run (acts ++ [.register server key address weight] ++ later) := by
    rw [run_append, ← afterIs]
  have faithful' : after.view.Faithful := by
    rw [afterIs]
    exact faithful_view_run root _
  have stands : last.store.tree.nodes.get? (path key)
      = some (Bytes.ofText (toString weight.toNat)) := get?_run faithful' (data created) kept
  -- so a client reads what it spells
  rw [lastIs] at stands within alone ⊢
  exact reads_printed root _ within stands alone

/-- Settings allow a weight that is read as that of an address without a weight. -/
theorem misreads_weight :
    let settings : Settings.Server := { weight := 2147483648 }
    let address : SocketAddress := ⟨.v4 127 0 0 1, 1, 0⟩
    let site := (ofRoot "/my-rpc").perform (.register 0 "A" address settings.weight)
    settings.problems = [] ∧ site.Holds "/my-rpc/A/127.0.0.1:1"
      ∧ site.view.lookup "A" = .ok ⟨1, ["127.0.0.1:1"]⟩
      ∧ (site.view.perform (.lookup "A")).weight "A" "127.0.0.1:1" = -1 := by
  intro settings address site
  have pathIs : ((ofRoot "/my-rpc").servers 0).nodePath "A" address = "/my-rpc/A/127.0.0.1:1" := by
    decide +kernel
  have created := view_register_free (ofRoot "/my-rpc") 0 "A" address settings.weight
  have printed : toString settings.weight.toNat = "2147483648" := by decide +kernel
  rw [pathIs, printed] at created
  have view : site.view = (CachedStore.ofRoot "/my-rpc").run
      [.create "/my-rpc/A/127.0.0.1:1" (Bytes.ofText "2147483648")] :=
    created nofun ⟨by decide +kernel, rfl, rfl⟩
  refine ⟨by decide +kernel, ?_, ?_, ?_⟩
  · show site.view.store.tree.contains _ = true
    rw [view, CachedStore.run_eq_next]
    decide +kernel
  · rw [view, CachedStore.run_eq_next]
    decide +kernel
  · rw [view, ← CachedStore.run_concat, CachedStore.run_eq_next]
    decide +kernel

end Deployment

end RemoteCall.Directory

import RemoteCall.Directory.Registration
import RemoteCall.Proofs.Directory.CachedStore

/-! # What registering comes to

    To register an address does nothing to the store if the path was registered
    before or has a node, and else creates the node (`register_cases`).  To
    clear an address deletes one node after another: a cache hears of it what
    it hears of these deletions (`absorb_deleteAll`), and a path that stays
    registered keeps its node (`contains_deleteAll`).  A node goes only where
    somebody deletes it (`Faithful.contains_perform`). -/

namespace RemoteCall.Directory

open RemoteCall.Directory.Path

namespace Registration

variable {ε : Type} (registration : Registration) (store : Store ε)

/-- What a server has registered once it has registered a path. -/
def adding (path : String) : Registration :=
  { registration with paths := registration.paths.insert path () }

/-- What a server has registered once it has deleted a path. -/
def dropping (path : String) : Registration :=
  { registration with paths := registration.paths.erase path }

theorem contains_adding (path other : String) :
    (registration.adding path).paths.contains other
      = (decide (other = path) || registration.paths.contains other) := by
  rw [adding, Dictionary.contains, Dictionary.get?_insert, Dictionary.contains]
  by_cases same : other = path <;> simp [same]

theorem contains_dropping (path other : String) :
    (registration.dropping path).paths.contains other
      = (!decide (other = path) && registration.paths.contains other) := by
  rw [dropping, Dictionary.contains, Dictionary.get?_erase, Dictionary.contains]
  by_cases same : other = path <;> simp [same]

/-- A path that was registered before is taken for granted, and so is one that has a node; for
another one a node is created. -/
theorem register_cases (key : String) (address : SocketAddress) (weight : UInt32) :
    let path := registration.nodePath key address
    let data := Bytes.ofText (toString weight.toNat)
    let outcome := registration.register store key address weight
    registration.paths.contains path = true
        ∧ outcome = (.ok (), [], registration.adding path, store)
      ∨ registration.paths.contains path = false ∧
        ((¬ (store.isAvailable = true ∧ (store.tree.contains path = true ∨ isValid path = true))
            ∧ ∃ fault, outcome = (.error fault, [], registration, store))
          ∨ (store.isAvailable = true ∧ store.tree.contains path = true)
            ∧ outcome = (.ok (), [], registration.adding path, store)
          ∨ (isValid path = true ∧ store.isAvailable = true ∧ store.tree.contains path = false)
            ∧ outcome = (.ok (), (store.create path data).2.1, registration.adding path,
                (store.create path data).2.2)) := by
  intro path data outcome
  have same : outcome = registration.register store key address weight := rfl
  rw [register] at same
  by_cases registered : registration.paths.contains path = true
  · rw [ensureNode, if_pos registered] at same
    exact .inl ⟨registered, same⟩
  · refine .inr ⟨Bool.eq_false_iff.mpr registered, ?_⟩
    rw [ensureNode, if_neg registered, Store.contains, Store.reach] at same
    by_cases within : store.isAvailable = true
    · rw [if_pos within, Except.map] at same
      cases there : store.tree.contains path with
      | true =>
          rw [there] at same
          exact .inr (.inl ⟨⟨within, rfl⟩, same⟩)
      | false =>
          rw [there] at same
          rcases store.queueCreate_cases path data with
            ⟨refused, fault, failed⟩ | ⟨⟨valid, -, -⟩, created⟩
          · have failed : store.create path data = (.error fault, [], store) := by
              rw [Store.create, failed]
              rfl
            refine .inl ⟨fun all => ?_, fault, ?_⟩
            · exact refused ⟨all.2.resolve_left Bool.false_ne_true, within, there⟩
            · dsimp only at same
              rw [failed] at same
              exact same
          · have created : (store.create path data).1 = .ok () := by
              rw [Store.create, created]
              rfl
            refine .inr (.inr ⟨⟨valid, within, rfl⟩, ?_⟩)
            dsimp only at same
            rw [← Prod.mk.eta (p := store.create path data), created] at same
            exact same
    · rw [if_neg within] at same
      exact .inl ⟨fun all => within all.1, _, same⟩

/-- Of a path that is new to the server and free in the store, a node is created. -/
theorem register_free {key : String} {address : SocketAddress}
    (fresh : registration.paths.contains (registration.nodePath key address) = false)
    (free : isValid (registration.nodePath key address) = true ∧ store.isAvailable = true
      ∧ store.tree.contains (registration.nodePath key address) = false) (weight : UInt32) :
    let path := registration.nodePath key address
    let created := store.create path (Bytes.ofText (toString weight.toNat))
    registration.register store key address weight
      = (.ok (), created.2.1, registration.adding path, created.2.2) := by
  intro path created
  obtain ⟨valid, within, absent⟩ := free
  rcases registration.register_cases store key address weight with
    ⟨registered, -⟩ | ⟨-, ⟨refused, -⟩ | ⟨⟨-, there⟩, -⟩ | ⟨-, outcome⟩⟩
  · exact nomatch fresh.symm.trans registered
  · exact absurd ⟨within, .inr valid⟩ refused
  · exact nomatch absent.symm.trans there
  · exact outcome

theorem root_register (key : String) (address : SocketAddress) (weight : UInt32) :
    (registration.register store key address weight).2.2.1.root = registration.root := by
  rcases registration.register_cases store key address weight with
    ⟨-, outcome⟩ | ⟨-, ⟨-, fault, outcome⟩ | ⟨-, outcome⟩ | ⟨-, outcome⟩⟩
  all_goals exact congrArg (·.2.2.1.root) outcome

end Registration

/-! ## Nodes that stay -/

namespace CachedStore

variable {view : CachedStore}

/-- What is heard at once is what is heard bit by bit. -/
theorem absorb_append (view : CachedStore) (events more : List Event) (between last : Store Event) :
    view.absorb (events ++ more, last) = (view.absorb (events, between)).absorb (more, last) := by
  rw [absorb, List.foldl_append]
  rfl

/-- A node is created where it can be, and else the store stays as it is. -/
theorem Faithful.tree_create (faithful : view.Faithful) (path : String) (data : Bytes) :
    let free := isValid path = true ∧ view.store.isAvailable = true
      ∧ view.store.tree.contains path = false
    free ∧ (view.perform (.create path data)).store.tree = view.store.tree.insert path data
      ∨ ¬ free ∧ view.perform (.create path data) = view := by
  rcases view.store.queueCreate_cases path data with ⟨taken, fault, failed⟩ | ⟨free, created⟩
  · rw [perform, Store.create, failed]
    exact .inr ⟨taken, rfl⟩
  · have same := (faithful.absorb_settle (Store.advances_queueCreate _ path data)).1
    rw [created] at same
    refine .inl ⟨free, ?_⟩
    rw [perform, Store.create, created, same]
    rfl

/-- A node is deleted, or the deletion fails and the store stays as it is. -/
theorem Faithful.tree_delete (faithful : view.Faithful) (path : String) :
    (view.store.delete path).1 = .ok ()
        ∧ (view.perform (.delete path)).store.tree = view.store.tree.erase path
      ∨ (∃ fault, (view.store.delete path).1 = .error fault)
        ∧ view.perform (.delete path) = view := by
  rcases view.store.queueDelete_cases path with ⟨-, fault, failed⟩ | ⟨-, deleted⟩
  · rw [perform, Store.delete, failed]
    exact .inr ⟨⟨fault, rfl⟩, rfl⟩
  · have same := (faithful.absorb_settle (Store.advances_queueDelete _ path)).1
    rw [deleted] at same
    refine .inl ?_
    rw [perform, Store.delete, deleted, same]
    exact ⟨rfl, rfl⟩

/-- A node stays unless somebody deletes it. -/
theorem Faithful.contains_perform (faithful : view.Faithful) {act : Act} {path : String}
    (there : view.store.tree.contains path = true) (other : act ≠ .delete path) :
    (view.perform act).store.tree.contains path = true := by
  cases act with
  | create path' data =>
      rcases faithful.tree_create path' data with ⟨-, same⟩ | ⟨-, same⟩
      · rw [same, Tree.contains_insert]
        exact .inr there
      · rwa [same]
  | delete path' =>
      rcases faithful.tree_delete path' with ⟨-, same⟩ | ⟨-, same⟩
      · rw [same, Tree.contains_erase]
        exact ⟨fun same => other (congrArg Act.delete same.symm), there⟩
      · rwa [same]
  | become isAvailable => exact there
  | lookup key => rwa [(faithful.store_lookup key).1]
  | weigh key address => exact there
  | number => exact there

end CachedStore

/-! ## Clearing -/

namespace Registration

section

variable {ε : Type} {store : Store ε} {path : String} (registration : Registration)
  (rest : List String)

theorem deleteAll_of_ok (deleted : (store.delete path).1 = .ok ()) :
    let others := deleteAll rest (registration.dropping path) (store.delete path).2.2
    (deleteAll (path :: rest) registration store).2
      = ((store.delete path).2.1 ++ others.2.1, others.2.2) := by
  rw [deleteAll]
  generalize store.delete path = outcome at deleted
  obtain ⟨result, events, store'⟩ := outcome
  cases deleted
  rfl

theorem deleteAll_of_error {fault : Fault} (failed : (store.delete path).1 = .error fault) :
    let others := deleteAll rest registration (store.delete path).2.2
    (deleteAll (path :: rest) registration store).2
      = ((store.delete path).2.1 ++ others.2.1, others.2.2) := by
  rw [deleteAll]
  generalize store.delete path = outcome at failed
  obtain ⟨result, events, store'⟩ := outcome
  cases failed
  rfl

theorem root_deleteAll (store : Store ε) (paths : List String) :
    (deleteAll paths registration store).2.2.1.root = registration.root := by
  induction paths generalizing registration store with
  | nil => rfl
  | cons path rest ih =>
      cases result : (store.delete path).1 with
      | ok =>
          rw [deleteAll_of_ok registration rest result]
          exact ih (registration.dropping path) _
      | error fault =>
          rw [deleteAll_of_error registration rest result]
          exact ih registration _

end

/-- Of some deletions is heard what is heard of one after another. -/
theorem absorb_deleteAll (view : CachedStore) (registration : Registration) (paths : List String) :
    let outcome := deleteAll paths registration view.store
    view.absorb (outcome.2.1, outcome.2.2.2) = view.run (paths.map .delete) := by
  induction paths generalizing view registration with
  | nil => rfl
  | cons path rest ih =>
      have others (registration : Registration) :
          let outcome := deleteAll rest registration (view.store.delete path).2.2
          view.absorb ((view.store.delete path).2.1 ++ outcome.2.1, outcome.2.2.2)
            = (view.perform (.delete path)).run (rest.map .delete) := by
        intro outcome
        rw [CachedStore.absorb_append _ _ _ (view.store.delete path).2.2]
        exact ih (view.perform (.delete path)) registration
      cases result : (view.store.delete path).1 with
      | ok =>
          dsimp only
          rw [deleteAll_of_ok registration rest result]
          exact others (registration.dropping path)
      | error fault =>
          dsimp only
          rw [deleteAll_of_error registration rest result]
          exact others registration

/-- A path that stays registered is not deleted. -/
theorem contains_deleteAll {view : CachedStore} (faithful : view.Faithful)
    {registration : Registration} {paths : List String} {path : String}
    (registered : (deleteAll paths registration view.store).2.2.1.paths.contains path = true) :
    registration.paths.contains path = true
      ∧ (view.store.tree.contains path = true →
        (view.run (paths.map .delete)).store.tree.contains path = true) := by
  induction paths generalizing view registration with
  | nil => exact ⟨registered, id⟩
  | cons next rest ih =>
      have faithful' := (faithful.follows (.delete next)).1
      rcases faithful.tree_delete next with ⟨deleted, same⟩ | ⟨⟨fault, failed⟩, same⟩
      · rw [deleteAll_of_ok registration rest deleted] at registered
        obtain ⟨kept, stays⟩ := ih faithful' registered
        rw [contains_dropping, Bool.and_eq_true, Bool.not_eq_true', decide_eq_false_iff_not] at kept
        refine ⟨kept.2, fun there => stays ?_⟩
        rw [same, Tree.contains_erase]
        exact ⟨kept.1, there⟩
      · rw [deleteAll_of_error registration rest failed] at registered
        obtain ⟨kept, stays⟩ := ih faithful' registered
        refine ⟨kept, fun there => stays ?_⟩
        rwa [same]

end Registration

end RemoteCall.Directory

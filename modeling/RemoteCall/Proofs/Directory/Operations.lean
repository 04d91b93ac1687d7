import RemoteCall.Directory.Store
import RemoteCall.Proofs.Directory.Tree

/-! # What an operation of the store comes to

    An operation succeeds under conditions that can be told beforehand, and
    leaves the store as it is where one of them fails (`queueCreate_cases`,
    `queueDelete_cases`, `watch_cases`).  An operation on the tree keeps the
    tree closed and queues, for each path whose children it changes, what these
    children are then (`advances_queueCreate`, `advances_queueDelete`). -/

namespace RemoteCall.Directory.Store

variable {ε : Type} (store : Store ε)

/-- The changes of the children of paths that a creation makes. -/
def creationChanges (tree : Tree) (path : String) (data : Bytes) : List Change :=
  ((tree.created path).filterMap Path.parent?).map (tree.insert path data).changeAt

/-- The change of the children of a path that a deletion makes. -/
def deletionChanges (tree : Tree) (path : String) : List Change :=
  (Path.parent? path).toList.map (tree.erase path).changeAt

theorem queueCreate_cases (path : String) (data : Bytes) :
    ¬ (Path.isValid path = true ∧ store.isAvailable = true ∧ store.tree.contains path = false)
        ∧ (∃ fault, store.queueCreate path data = (.error fault, store))
      ∨ (Path.isValid path = true ∧ store.isAvailable = true ∧ store.tree.contains path = false)
        ∧ store.queueCreate path data = (.ok (), { store with
            tree := store.tree.insert path data
            queue := store.queue ++ creationChanges store.tree path data }) := by
  rw [queueCreate, checkPath, reach]
  by_cases valid : Path.isValid path = true
  · by_cases within : store.isAvailable = true
    · rw [if_pos valid, if_pos within]
      show _ ∧ (∃ fault, store.accept (store.tree.create path data) = (.error fault, store))
        ∨ _ ∧ store.accept (store.tree.create path data) = _
      by_cases there : store.tree.contains path = true
      · rw [Tree.create, if_pos there]
        exact .inl ⟨fun all => Bool.eq_false_iff.mp all.2.2 there, _, rfl⟩
      · have absent := Bool.eq_false_iff.mpr there
        rw [Tree.create_eq_ok_iff.mpr ⟨absent, rfl⟩]
        exact .inr ⟨⟨valid, within, absent⟩, rfl⟩
    · rw [if_pos valid, if_neg within]
      exact .inl ⟨fun all => within all.2.1, _, rfl⟩
  · rw [if_neg valid]
    exact .inl ⟨fun all => valid all.1, _, rfl⟩

theorem queueDelete_cases (path : String) :
    ¬ (store.isAvailable = true ∧ store.tree.contains path = true ∧ store.tree.children path = [])
        ∧ (∃ fault, store.queueDelete path = (.error fault, store))
      ∨ (store.isAvailable = true ∧ store.tree.contains path = true
          ∧ store.tree.children path = [])
        ∧ store.queueDelete path = (.ok (), { store with
            tree := store.tree.erase path
            queue := store.queue ++ deletionChanges store.tree path }) := by
  rw [queueDelete, reach]
  by_cases within : store.isAvailable = true
  · rw [if_pos within]
    show _ ∧ (∃ fault, store.accept (store.tree.delete path) = (.error fault, store))
      ∨ _ ∧ store.accept (store.tree.delete path) = _
    by_cases there : store.tree.contains path = true
    · by_cases leaf : store.tree.children path = []
      · rw [Tree.delete_eq_ok_iff.mpr ⟨there, leaf, rfl⟩]
        exact .inr ⟨⟨within, there, leaf⟩, rfl⟩
      · rw [Tree.delete, if_neg (by simp [there]), if_pos (by simp [leaf])]
        exact .inl ⟨fun all => leaf all.2.2, _, rfl⟩
    · rw [Tree.delete, if_pos (by simp [there])]
      exact .inl ⟨fun all => there all.2.1, _, rfl⟩
  · rw [if_neg within]
    exact .inl ⟨fun all => within all.1, _, rfl⟩

theorem watch_cases (path : String) (watcher : Watcher ε) :
    ¬ (Path.isValid path = true ∧ store.isAvailable = true)
        ∧ (∃ fault, store.watch path watcher = (.error fault, store))
      ∨ (Path.isValid path = true ∧ store.isAvailable = true)
        ∧ store.watch path watcher = (.ok (), { store with
            watchers := store.watchers.insert path (store.watchersOf path ++ [watcher]) }) := by
  rw [watch, checkPath]
  by_cases valid : Path.isValid path = true
  · by_cases within : store.isAvailable = true
    · rw [if_pos valid]
      exact .inr ⟨⟨valid, within⟩, if_pos within⟩
    · rw [if_pos valid]
      exact .inl ⟨fun all => within all.2, _, if_neg within⟩
  · rw [if_neg valid]
    exact .inl ⟨fun all => valid all.1, _, rfl⟩

/-- An outcome leaves the store as it is, or takes over a tree and queues what changed. -/
def Advances (outcome : Except Fault Unit × Store ε) : Prop :=
  (∃ fault, outcome = (.error fault, store))
    ∨ ∃ tree changes,
        outcome = (.ok (), { store with tree := tree, queue := store.queue ++ changes })
        ∧ (store.tree.Closed → tree.Closed ∧ Tree.Tells store.tree tree changes)

theorem advances_queueCreate (path : String) (data : Bytes) :
    store.Advances (store.queueCreate path data) := by
  rcases store.queueCreate_cases path data with ⟨-, failed⟩ | ⟨⟨valid, -, absent⟩, outcome⟩
  · exact .inl failed
  · exact .inr ⟨_, _, outcome, fun closed =>
      ⟨closed.insert valid data, Tree.tells_insert valid absent data⟩⟩

theorem advances_queueDelete (path : String) : store.Advances (store.queueDelete path) := by
  rcases store.queueDelete_cases path with ⟨-, failed⟩ | ⟨⟨-, there, leaf⟩, outcome⟩
  · exact .inl failed
  · exact .inr ⟨_, _, outcome, fun closed =>
      ⟨closed.erase leaf, Tree.tells_erase (closed.valid path there) there⟩⟩

theorem keeps_queueCreate (path : String) (data : Bytes) :
    store.tree.Keeps (store.queueCreate path data).2.tree := by
  rcases store.queueCreate_cases path data with ⟨-, fault, outcome⟩ | ⟨⟨-, -, absent⟩, outcome⟩
  · exact Tree.keeps_of_eq (congrArg (·.2.tree) outcome)
  · rw [outcome]
    exact Tree.keeps_insert absent data

theorem keeps_queueDelete (path : String) :
    store.tree.Keeps (store.queueDelete path).2.tree := by
  rcases store.queueDelete_cases path with ⟨-, fault, outcome⟩ | ⟨-, outcome⟩
  · exact Tree.keeps_of_eq (congrArg (·.2.tree) outcome)
  · rw [outcome]
    exact Tree.keeps_erase path

end RemoteCall.Directory.Store

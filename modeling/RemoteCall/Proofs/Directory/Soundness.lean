import RemoteCall.Proofs.Directory.History
import RemoteCall.Proofs.Text.Order

/-! # The store is a tree, and its listings are exact

    At every moment of every history the nodes of the store stand at paths and
    under nodes (`History.closed`): an operation keeps the tree closed, and
    nothing else touches it.  What holds of closed trees then holds of every
    store that can be reached (`sound_of_reached`): the listings are exact, and
    an operation does what it says or nothing at all. -/

namespace RemoteCall.Directory

open RemoteCall.Directory.Path Store

variable {ε : Type}

/-! ## Closed trees at every moment -/

theorem Store.Advances.closed {store : Store ε} {outcome : Except Fault Unit × Store ε}
    (advances : store.Advances outcome) (closed : store.tree.Closed) :
    outcome.2.tree.Closed := by
  rcases advances with ⟨fault, rfl⟩ | ⟨tree, changes, rfl, keeps⟩
  · exact closed
  · exact (keeps closed).1

/-- No step of a history leaves nodes that do not stand under nodes. -/
theorem History.closed {log : List (Occurrence ε)} {due : Option (Due ε)} {store : Store ε}
    (history : History log due store) : store.tree.Closed := by
  induction history with
  | empty => exact Tree.closed_empty
  | create path data _ ih => exact (advances_queueCreate _ path data).closed ih
  | delete path _ ih => exact (advances_queueDelete _ path).closed ih
  | watch path watcher _ ih =>
      rcases watch_cases _ path watcher with ⟨-, fault, outcome⟩ | ⟨-, outcome⟩ <;>
        rw [outcome] <;> exact ih
  | become isAvailable _ ih => exact ih
  | report event _ ih => exact ih
  | take oldest _ ih => exact ih
  | call _ ih => exact ih
  | finish _ ih => exact ih
  | rest empty _ ih => exact ih

/-! ## What an operation leaves -/

/-- A store has a new node, and what was missing above it, and nothing else is new. -/
structure Store.Grows (store grown : Store ε) (path : String) (data : Bytes) : Prop where
  own : grown.tree.nodes.get? path = some data
  /-- Missing nodes above the new one have no data. -/
  above : ∀ other, IsAbove other path → store.tree.contains other = false →
    grown.tree.nodes.get? other = some []
  others : ∀ other, other ≠ path → (IsAbove other path → store.tree.contains other = true) →
    grown.tree.nodes.get? other = store.tree.nodes.get? other
  watchers : grown.watchers = store.watchers

/-- A store has lost a node and nothing else. -/
structure Store.Prunes (store pruned : Store ε) (path : String) : Prop where
  own : pruned.tree.nodes.get? path = none
  others : ∀ other, other ≠ path →
    pruned.tree.nodes.get? other = store.tree.nodes.get? other
  watchers : pruned.watchers = store.watchers

/-- A path has one more watcher. -/
structure Store.Watches (store watched : Store ε) (path : String) (watcher : Watcher ε) :
    Prop where
  own : watched.watchersOf path = store.watchersOf path ++ [watcher]
  others : ∀ other, other ≠ path → watched.watchersOf other = store.watchersOf other
  tree : watched.tree = store.tree

/-- Whether no node stands directly under a path. -/
def Store.IsLeaf (store : Store ε) (path : String) : Prop :=
  ∀ name, IsName name → store.tree.contains (below path name) = false

theorem isLeaf_iff {store : Store ε} {path : String} :
    store.IsLeaf path ↔ store.tree.children path = [] := by
  rw [List.eq_nil_iff_forall_not_mem]
  simp only [Tree.mem_children, not_and, Bool.not_eq_true]
  rfl

/-- The store is a tree, its listings are exact, and its operations do what they say or nothing. -/
structure Store.Sound (store : Store ε) : Prop where
  isPath : ∀ path, store.tree.contains path = true → IsPath path
  /-- Nodes other than the lone slash stand under it or under nodes. -/
  rooted : ∀ path, store.tree.contains path = true → path ≠ "/" →
    ∃ parent name, IsName name ∧ path = below parent name
      ∧ (parent = "/" ∨ store.tree.contains parent = true)
  /-- The nodes directly under a path are listed, their names in the order of their bytes. -/
  listed : ∀ path, IsPath path → store.isAvailable = true →
    ∃ names, store.children path = .ok names
      ∧ names.Pairwise (fun a b => Bytes.ofText a < Bytes.ofText b)
      ∧ ∀ name, name ∈ names ↔ IsName name ∧ store.tree.contains (below path name) = true
  /-- A node is created where there is none. -/
  creates : ∀ path data, IsPath path → store.isAvailable = true →
    store.tree.contains path = false →
    ∃ grown, store.create path data = (.ok (), grown.notify) ∧ store.Grows grown path data
  refusesCreation : ∀ path data,
    ¬ (IsPath path ∧ store.isAvailable = true ∧ store.tree.contains path = false) →
    ∃ fault, store.create path data = (.error fault, [], store)
  /-- A node under which there is none is deleted. -/
  deletes : ∀ path, store.isAvailable = true → store.tree.contains path = true →
    store.IsLeaf path →
    ∃ pruned, store.delete path = (.ok (), pruned.notify) ∧ store.Prunes pruned path
  refusesDeletion : ∀ path,
    ¬ (store.isAvailable = true ∧ store.tree.contains path = true ∧ store.IsLeaf path) →
    ∃ fault, store.delete path = (.error fault, [], store)
  /-- Every path can be watched. -/
  watches : ∀ path watcher, IsPath path → store.isAvailable = true →
    ∃ watched, store.watch path watcher = (.ok (), watched) ∧ store.Watches watched path watcher
  refusesWatcher : ∀ path watcher, ¬ (IsPath path ∧ store.isAvailable = true) →
    ∃ fault, store.watch path watcher = (.error fault, store)

section Outcomes

variable {store : Store ε} (closed : store.tree.Closed) (path : String)

theorem Tree.Closed.exists_parent {tree : Tree} (closed : tree.Closed) {path : String}
    (there : tree.contains path = true) (other : path ≠ "/") :
    ∃ parent name, IsName name ∧ path = below parent name
      ∧ (parent = "/" ∨ tree.contains parent = true) := by
  obtain ⟨parent, name, valid, isName, rfl⟩ :=
    (exists_below (closed.valid path there)).resolve_left other
  exact ⟨parent, name, isName, rfl,
    closed.rooted _ parent there (parent?_below valid isName)⟩

include closed in
/-- The missing nodes above a path are created with it, and no other node is touched. -/
theorem grows_insert (valid : isValid path = true) (data : Bytes) (queue : List Change) :
    store.Grows { store with tree := store.tree.insert path data, queue } path data where
  own := by rw [Tree.get?_insert, if_pos rfl]
  above other isAbove absent := by
    have missing : other ∈ store.tree.missing path :=
      (closed.mem_missing valid).mpr ⟨(mem_ancestors valid).mpr isAbove, absent⟩
    have other : other ≠ path := by
      rintro rfl
      have short := isAbove.2.2.length_le
      rw [List.length_append, List.length_singleton] at short
      omega
    rw [Tree.get?_insert, if_neg other, if_pos missing]
  others other apart there := by
    have kept : other ∉ store.tree.missing path := by
      intro missing
      obtain ⟨isAncestor, absent⟩ := (closed.mem_missing valid).mp missing
      rw [there ((mem_ancestors valid).mp isAncestor)] at absent
      exact nomatch absent
    rw [Tree.get?_insert, if_neg apart, if_neg kept]
  watchers := rfl

theorem prunes_erase (store : Store ε) (path : String) (queue : List Change) :
    store.Prunes { store with tree := store.tree.erase path, queue } path where
  own := by rw [Tree.erase, Dictionary.get?_erase, if_pos rfl]
  others other apart := by rw [Tree.erase, Dictionary.get?_erase, if_neg apart]
  watchers := rfl

theorem watches_insert (store : Store ε) (path : String) (watcher : Watcher ε) :
    store.Watches { store with
      watchers := store.watchers.insert path (store.watchersOf path ++ [watcher]) } path
      watcher where
  own := by rw [watchersOf, Dictionary.get?_insert, if_pos rfl, Option.getD_some]
  others other apart := by rw [watchersOf, Dictionary.get?_insert, if_neg apart, watchersOf]
  tree := rfl

end Outcomes

/-- What holds of closed trees holds of a store with one. -/
theorem sound_of_closed {store : Store ε} (closed : store.tree.Closed) : store.Sound where
  isPath path there := (isValid_iff_isPath path).mp (closed.valid path there)
  rooted _ there other := closed.exists_parent there other
  listed path _ within := by
    refine ⟨store.tree.children path, ?_, ?_, fun _ => Tree.mem_children⟩
    · rw [Store.children, reach, if_pos within]
      rfl
    · exact (store.tree.increasing_children path).imp Bytes.ofText_lt_ofText
  creates path data isPath within absent := by
    have valid := (isValid_iff_isPath path).mpr isPath
    rcases store.queueCreate_cases path data with ⟨failed, -⟩ | ⟨-, outcome⟩
    · exact absurd ⟨valid, within, absent⟩ failed
    · exact ⟨_, by rw [create, outcome]; rfl, grows_insert closed path valid data _⟩
  refusesCreation path data refused := by
    rcases store.queueCreate_cases path data with ⟨-, fault, outcome⟩ | ⟨holds, -⟩
    · exact ⟨fault, by rw [create, outcome]; rfl⟩
    · exact absurd (holds.imp_left (isValid_iff_isPath path).mp) refused
  deletes path within there leaf := by
    rcases store.queueDelete_cases path with ⟨failed, -⟩ | ⟨-, outcome⟩
    · exact absurd ⟨within, there, isLeaf_iff.mp leaf⟩ failed
    · exact ⟨_, by rw [delete, outcome]; rfl, prunes_erase store path _⟩
  refusesDeletion path refused := by
    rcases store.queueDelete_cases path with ⟨-, fault, outcome⟩ | ⟨holds, -⟩
    · exact ⟨fault, by rw [delete, outcome]; rfl⟩
    · exact absurd (holds.imp_right (.imp_right isLeaf_iff.mpr)) refused
  watches path watcher isPath within := by
    rcases store.watch_cases path watcher with ⟨failed, -⟩ | ⟨-, outcome⟩
    · exact absurd ⟨(isValid_iff_isPath path).mpr isPath, within⟩ failed
    · exact ⟨_, outcome, watches_insert store path watcher⟩
  refusesWatcher path watcher refused := by
    rcases store.watch_cases path watcher with ⟨-, failed⟩ | ⟨holds, -⟩
    · exact failed
    · exact absurd (holds.imp_left (isValid_iff_isPath path).mp) refused

/-- Whether a store is met in some history. -/
def Store.Reached (store : Store ε) : Prop :=
  ∃ log due, History log due store

/-- Whatever is done with the empty store, from outside or by watchers, the store is a tree at every
moment, its listings are exact, and an operation does what it says or nothing. -/
theorem sound_of_reached :
    (∀ acts log (store : Store ε), Runs .empty acts log store → store.Reached)
      ∧ ∀ store : Store ε, store.Reached → store.Sound :=
  ⟨fun _ log _ runs => ⟨log, none, by simpa using History.empty.runs runs⟩,
    fun _ ⟨_, _, history⟩ => sound_of_closed history.closed⟩

/-- A watcher that writes back leaves a sound store. -/
theorem sound_writesBack : ∃ log store,
    Runs .empty [.watch "/a" writesBack, .create "/a/x" []] log store
      ∧ store.tree.children "/a" = ["x", "y"] ∧ store.Sound := by
  obtain ⟨log, store, runs, -, children⟩ := runs_writesBack
  have reached := sound_of_reached.1 _ log store runs
  exact ⟨log, store, runs, children, sound_of_reached.2 store reached⟩

end RemoteCall.Directory

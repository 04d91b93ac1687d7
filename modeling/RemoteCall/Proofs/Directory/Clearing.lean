import RemoteCall.Proofs.Directory.Registrations
import RemoteCall.Proofs.Net.Ports

/-! # A server clears its own nodes

    To clear an address, a server takes the paths that it registered for the
    address, in increasing order, and deletes their nodes one by one.  The
    address of a path is what stands behind its last slash (`lastSegment`), since
    an address has no slash in it.  A node is deleted if it is there and has no
    children when it is its turn; otherwise nothing happens, and the path stays
    registered (`visit_cases`).

    Where others use the store between the turns, each turn is told by how
    things are then (`clearAmid`).  Where nobody does, a turn spares what the
    later ones are about (`deletable_visit`): a node stands behind its parent in
    the order of the paths.  So what is deleted is known beforehand
    (`clears_at_once`). -/

namespace RemoteCall.Directory

open RemoteCall.Directory.Path

/-! ## The address of a path -/

namespace Path

/-- What stands behind the last slash of a text. -/
def lastSegment (path : String) : String :=
  String.ofList (path.toList.reverse.takeWhile (· ≠ '/')).reverse

theorem lastSegment_append (front : String) {name : String} (noSlash : '/' ∉ name.toList) :
    lastSegment (front ++ "/" ++ name) = name := by
  have taken : ∀ c ∈ name.toList.reverse, decide (c ≠ '/') = true := by
    intro c mem
    refine decide_eq_true fun same => ?_
    exact noSlash (same ▸ List.mem_reverse.mp mem)
  rw [lastSegment, String.toList_append, String.toList_append, List.reverse_append,
    List.reverse_append, List.takeWhile_append_of_pos taken]
  show String.ofList (name.toList.reverse ++ []).reverse = name
  rw [List.append_nil, List.reverse_reverse, String.ofList_toList]

end Path

/-- A path is that of an address if the address stands behind the last slash. -/
theorem Registration.isOf_append_iff (address : SocketAddress) (front : String) {name : String}
    (noSlash : '/' ∉ name.toList) :
    isOf address (front ++ "/" ++ name) = true ↔ name = address.text := by
  rw [isOf, List.isSuffixOf_iff_suffix, String.toList_append, String.toList_append,
    String.toList_append]
  constructor
  · rintro ⟨before, same⟩
    have same : before ++ '/' :: address.text.toList = front.toList ++ '/' :: name.toList := by
      simpa using same
    exact (String.toList_inj.mp
      (SocketAddress.eq_of_last_eq same address.isName_text.2 noSlash).2).symm
  · rintro rfl
    rw [List.append_assoc]
    exact List.suffix_append ..

-- an address whose text is the end of another one
example : Registration.isOf ⟨.v4 27 0 0 1, 1, 0⟩ "/my-rpc/A/127.0.0.1:1" = false := by
  decide +kernel

/-- Of some deletions, the first is made and then the others. -/
theorem Registration.deleteAll_cons {ε : Type} (path : String) (rest : List String)
    (registration : Registration) (store : Store ε) :
    let first := deleteAll [path] registration store
    let others := deleteAll rest first.2.2.1 first.2.2.2
    deleteAll (path :: rest) registration store
      = (first.1 + others.1, first.2.1 ++ others.2.1, others.2.2) := by
  rw [deleteAll, deleteAll]
  rcases store.delete path with ⟨_ | _, events, store'⟩
  · simp [deleteAll]
  · simp [deleteAll, Nat.add_comm]

namespace Deployment

variable {site : Deployment} {server : Nat} {path : String}

/-! ## One turn -/

/-- The data of a node. -/
def node? (site : Deployment) (path : String) : Option Bytes :=
  site.store.tree.nodes.get? path

/-- Whether a node can be deleted: it is within reach, it is there, and it has no children. -/
def Deletable (site : Deployment) (path : String) : Prop :=
  site.store.isAvailable = true ∧ site.store.tree.contains path = true
    ∧ site.store.tree.children path = []

instance (site : Deployment) (path : String) : Decidable (site.Deletable path) :=
  inferInstanceAs (Decidable (_ ∧ _ ∧ _))

/-- How many nodes a server deletes when it is the turn of a path, and how things are then. -/
def visit (site : Deployment) (server : Nat) (path : String) : Nat × Deployment :=
  let outcome := Registration.deleteAll [path] (site.servers server) site.store
  (outcome.1, site.absorb server outcome.2)

/-- The deployment in which a server has deleted the node of a path that it had registered. -/
structure Loses (site : Deployment) (server : Nat) (path : String) (after : Deployment) : Prop where
  tree : after.store.tree = site.store.tree.erase path
  isAvailable : after.store.isAvailable = site.store.isAvailable
  servers : ∀ other, after.servers other
    = if other = server then (site.servers server).dropping path else site.servers other

/-- When it is its turn, a node that can be deleted is deleted, and otherwise nothing happens. -/
theorem visit_cases (faithful : site.view.Faithful) (server : Nat) (path : String) :
    site.Deletable path ∧ (site.visit server path).1 = 1
        ∧ site.Loses server path (site.visit server path).2
      ∨ ¬ site.Deletable path ∧ site.visit server path = (0, site) := by
  rw [visit]
  rcases site.store.queueDelete_cases path with ⟨kept, fault, failed⟩ | ⟨deletable, deleted⟩
  · have failed : site.store.delete path = (.error fault, [], site.store) := by
      rw [Store.delete, failed]
      rfl
    refine .inr ⟨kept, ?_⟩
    rw [Registration.deleteAll, failed]
    exact congrArg _ (site.absorb_same server)
  · have same : site.view.absorb (Store.settle (site.store.queueDelete path)).2
        = site.view.turned (site.store.queueDelete path).2.tree
          (site.store.queueDelete path).2.queue :=
      (faithful.absorb_settle (Store.advances_queueDelete _ path)).1
    rw [deleted] at same
    have done : (site.store.delete path).1 = .ok () := by
      rw [Store.delete]
      show (Store.settle (site.store.queueDelete path)).1 = _
      rw [deleted]
      rfl
    have store : (site.store.delete path).2.2 = { site.store with
        tree := site.store.tree.erase path } := by
      rw [Store.delete]
      show (Store.settle (site.store.queueDelete path)).2.2 = _
      rw [deleted]
      exact congrArg CachedStore.store same
    rw [Registration.deleteAll]
    generalize site.store.delete path = outcome at done store
    obtain ⟨result, events, store'⟩ := outcome
    cases done
    cases store
    exact .inl ⟨deletable, rfl, rfl, rfl, fun _ => rfl⟩

/-- The deployment in which a server has deleted the nodes of some paths and nothing else has happened to
any node or to what is registered. -/
structure Clears (site : Deployment) (server : Nat) (doomed : String → Prop) (after : Deployment) :
    Prop where
  gone : ∀ path, doomed path → after.node? path = none
  kept : ∀ path, ¬ doomed path → after.node? path = site.node? path
  registered : ∀ path, after.Registered server path ↔ site.Registered server path ∧ ¬ doomed path
  servers : ∀ other, other ≠ server → after.servers other = site.servers other

theorem Clears.refl (site : Deployment) (server : Nat) {doomed : String → Prop}
    (none : ∀ path, ¬ doomed path) : site.Clears server doomed site where
  gone path isDoomed := absurd isDoomed (none path)
  kept _ _ := rfl
  registered path := (and_iff_left (none path)).symm
  servers _ _ := rfl

theorem Clears.trans {between after : Deployment} {doomed more : String → Prop}
    (first : site.Clears server doomed between) (last : between.Clears server more after) :
    site.Clears server (fun path => doomed path ∨ more path) after where
  gone path isDoomed := by
    by_cases isLast : more path
    · exact last.gone path isLast
    · rw [last.kept path isLast]
      exact first.gone path (isDoomed.resolve_right isLast)
  kept path spared := by
    rw [last.kept path (mt .inr spared), first.kept path (mt .inl spared)]
  registered path := by
    rw [last.registered, first.registered, and_assoc, ← not_or]
  servers other apart := (last.servers other apart).trans (first.servers other apart)

theorem Clears.congr {after : Deployment} {doomed doomed' : String → Prop}
    (clears : site.Clears server doomed after) (same : ∀ path, doomed path ↔ doomed' path) :
    site.Clears server doomed' after := by
  rwa [← funext fun path => propext (same path)]

theorem Loses.clears {after : Deployment} (loses : site.Loses server path after) :
    site.Clears server (· = path) after where
  gone other same := by
    rw [node?, loses.tree]
    exact (Dictionary.get?_erase _ _ _).trans (if_pos same)
  kept other apart := by
    rw [node?, loses.tree]
    exact (Dictionary.get?_erase _ _ _).trans (if_neg apart)
  registered other := by
    rw [Registered, loses.servers, if_pos rfl, Registration.contains_dropping]
    simp [Registered, and_comm]
  servers other apart := by
    rw [loses.servers, if_neg apart]

/-- A turn deletes the node of the path if it can be deleted, and nothing else. -/
theorem clears_visit (faithful : site.view.Faithful) (server : Nat) (path : String) :
    (site.visit server path).1 = (if site.Deletable path then 1 else 0)
      ∧ site.Clears server (fun other => other = path ∧ site.Deletable path)
        (site.visit server path).2 := by
  rcases visit_cases faithful server path with ⟨deletable, one, loses⟩ | ⟨stays, same⟩
  · exact ⟨one.trans (if_pos deletable).symm,
      loses.clears.congr fun _ => (and_iff_left deletable).symm⟩
  · rw [same]
    exact ⟨(if_neg stays).symm, .refl site server fun _ both => stays both.2⟩

theorem view_visit (site : Deployment) (server : Nat) (path : String) :
    (site.visit server path).2.view = site.view.run [.delete path] := by
  rw [visit, view_absorb]
  exact Registration.absorb_deleteAll site.view (site.servers server) [path]

theorem faithful_visit (faithful : site.view.Faithful) (server : Nat) (path : String) :
    (site.visit server path).2.view.Faithful := by
  rw [view_visit]
  exact faithful.run [.delete path]

/-- A node stands behind its parent in the order of the paths. -/
theorem lt_below (path : String) {name : String} (isName : IsName name) : path < below path name := by
  obtain ⟨c, rest, spelled⟩ := List.exists_cons_of_ne_nil isName.toList_ne_nil
  have longer (d : Char) (more : List Char) : path.toList < path.toList ++ d :: more := by
    have less : path.toList ++ [] < path.toList ++ d :: more :=
      List.append_left_lt (List.nil_lt_cons d more)
    rwa [List.append_nil] at less
  show path.toList < (below path name).toList
  rw [toList_below, stem]
  split
  · rw [spelled]
    exact longer c rest
  · rw [List.append_assoc]
    exact longer '/' name.toList

/-- To delete a node changes nothing about the nodes that can be deleted behind it. -/
theorem deletable_visit (faithful : site.view.Faithful) (server : Nat) {path other : String}
    (less : path < other) :
    (site.visit server path).2.Deletable other ↔ site.Deletable other := by
  rcases visit_cases faithful server path with ⟨-, -, loses⟩ | ⟨-, same⟩
  · have children : (site.store.tree.erase path).children other = site.store.tree.children other := by
      refine Tree.children_eq_iff.mpr fun name => ?_
      rw [Tree.mem_children_erase, and_iff_left_iff_imp]
      rintro mem rfl
      exact String.lt_asymm less (lt_below other (Tree.mem_children.mp mem).1)
    have apart : other ≠ path := fun same => String.lt_irrefl path (same ▸ less)
    rw [Deletable, Deletable, loses.tree, loses.isAvailable, children, Tree.contains_erase,
      and_iff_right apart]
  · rw [same]

/-! ## Clearing while others go on -/

/-- What can happen around a store. -/
inductive Step where
  | act (act : Act)
  /-- It is the turn of a path in the clearing of a server. -/
  | visit (server : Nat) (path : String)

/-- What a step comes to. -/
def take (site : Deployment) : Step → Deployment
  | .act act => site.perform act
  | .visit server path => (site.visit server path).2

/-- What steps come to, one after another. -/
def go (site : Deployment) (steps : List Step) : Deployment :=
  steps.foldl take site

/-- The turn of a path in a clearing. -/
structure Turn where
  path : String
  /-- How things are when the turn comes. -/
  moment : Deployment

/-- What a clearing comes to. -/
structure Clearing where
  /-- How many nodes were deleted. -/
  count : Nat
  turns : List Turn
  final : Deployment

/-- A server deletes the nodes of some paths, and before each turn others take some steps. -/
def clearAmid (server : Nat) : List (List Step) → List String → Deployment → Clearing
  | amid, [], site => ⟨0, [], site.go amid.flatten⟩
  | amid, path :: rest, site =>
    let moment := site.go (amid.headD [])
    let visited := moment.visit server path
    let others := clearAmid server amid.tail rest visited.2
    ⟨visited.1 + others.count, ⟨path, moment⟩ :: others.turns, others.final⟩

/-! ### If nobody else uses the store -/

theorem absorb_absorb (site : Deployment) (server : Nat) (events more : List Event)
    (registration last : Registration) (between store : Store Event) :
    (site.absorb server (events, registration, between)).absorb server (more, last, store)
      = site.absorb server (events ++ more, last, store) := by
  have servers : ((site.absorb server (events, registration, between)).absorb server
      (more, last, store)).servers = (site.absorb server (events ++ more, last, store)).servers := by
    funext other
    rw [servers_absorb, servers_absorb, servers_absorb]
    split <;> rfl
  show Deployment.mk store
    (more.foldl Discovery.absorb (events.foldl Discovery.absorb site.discovery))
    ((site.absorb server (events, registration, between)).absorb server (more, last, store)).servers
    site.lists = _
  rw [servers, ← List.foldl_append]
  rfl

/-- Without steps of others, the turns come to what the server does in one go. -/
theorem clearAmid_nil (server : Nat) (paths : List String) (site : Deployment) :
    let outcome := Registration.deleteAll paths (site.servers server) site.store
    (clearAmid server [] paths site).count = outcome.1
      ∧ (clearAmid server [] paths site).final = site.absorb server outcome.2 := by
  induction paths generalizing site with
  | nil => exact ⟨rfl, (site.absorb_same server).symm⟩
  | cons path rest ih =>
      have own : (site.visit server path).2.servers server
          = (Registration.deleteAll [path] (site.servers server) site.store).2.2.1 := by
        rw [visit, servers_absorb, if_pos rfl]
      obtain ⟨count, final⟩ := ih (site.visit server path).2
      rw [own] at count final
      rw [Registration.deleteAll_cons path rest (site.servers server) site.store]
      exact ⟨congrArg (_ + ·) count, final.trans (site.absorb_absorb server _ _ _ _ _ _)⟩

/-- Paths in increasing order are all told by how things are at first. -/
theorem clears_at_once (faithful : site.view.Faithful) (server : Nat) {paths : List String}
    (increasing : paths.Pairwise (· < ·)) :
    let clearing := clearAmid server [] paths site
    clearing.count = paths.countP (site.Deletable ·)
      ∧ site.Clears server (fun path => path ∈ paths ∧ site.Deletable path) clearing.final := by
  induction paths generalizing site with
  | nil => exact ⟨rfl, .refl site server fun _ both => nomatch both.1⟩
  | cons path rest ih =>
      obtain ⟨behind, increasing⟩ := List.pairwise_cons.mp increasing
      obtain ⟨one, first⟩ := clears_visit faithful server path
      obtain ⟨count, others⟩ := ih (faithful_visit faithful server path) increasing
      have same (other : String) (mem : other ∈ rest) :
          (site.visit server path).2.Deletable other ↔ site.Deletable other :=
        deletable_visit faithful server (behind other mem)
      constructor
      · have total : (clearAmid server [] (path :: rest) site).count
            = (site.visit server path).1
              + (clearAmid server [] rest (site.visit server path).2).count := rfl
        have spared : rest.countP ((site.visit server path).2.Deletable ·)
            = rest.countP (site.Deletable ·) :=
          List.countP_congr fun other mem => by simp [same other mem]
        rw [total, one, count, spared, List.countP_cons, Nat.add_comm]
        simp
      · refine (first.trans others).congr fun other => ?_
        rw [List.mem_cons, or_and_right, and_congr_right (same other)]
        exact or_congr_left (and_congr_right fun eq => by rw [eq])

/-! ## Runs -/

/-- The path of an address of a service, if services stand under a root. -/
def pathUnder (root key : String) (address : SocketAddress) : String :=
  withoutTail root ++ "/" ++ key ++ "/" ++ address.text

/-- What does not change around a store: servers have registered paths of addresses only. -/
structure Kept (root : String) (site : Deployment) : Prop where
  faithful : site.view.Faithful
  rooted : ∀ server, (site.servers server).root = withoutTail root
  registered : ∀ server path, site.Registered server path →
    ∃ key address, path = pathUnder root key address

theorem kept_ofRoot (root : String) : Kept root (ofRoot root) where
  faithful := faithful_view_run root []
  rooted _ := rfl
  registered _ _ registered := nomatch registered

theorem Kept.nodePath {root : String} (kept : Kept root site) (server : Nat) (key : String)
    (address : SocketAddress) :
    (site.servers server).nodePath key address = pathUnder root key address := by
  rw [Registration.nodePath, kept.rooted, pathUnder]

theorem Kept.take {root : String} (kept : Kept root site) (step : Step) :
    Kept root (site.take step) := by
  cases step with
  | act act =>
      refine ⟨?_, fun server => ?_, fun server path registered => ?_⟩
      · obtain ⟨acts, same⟩ := site.view_perform act
        rw [Deployment.take, same]
        exact kept.faithful.run acts
      · exact (site.root_perform act server).trans (kept.rooted server)
      · rcases registered_cases kept.faithful registered with before | ⟨key, address, _, -, same⟩
        · exact kept.registered server path before
        · exact ⟨key, address, same.trans (kept.nodePath server key address)⟩
  | visit visitor visited =>
      refine ⟨faithful_visit kept.faithful visitor visited, fun server => ?_,
        fun server path registered => ?_⟩
      · rw [Deployment.take, visit, servers_absorb]
        split
        · next own => rw [Registration.root_deleteAll, kept.rooted]
        · exact kept.rooted server
      · have clears := (clears_visit kept.faithful visitor visited).2
        by_cases own : server = visitor
        · subst own
          exact kept.registered server path ((clears.registered path).mp registered).1
        · rw [Deployment.take, Registered, clears.servers server own] at registered
          exact kept.registered server path registered

theorem Kept.go {root : String} (kept : Kept root site) (steps : List Step) :
    Kept root (site.go steps) := by
  induction steps generalizing site with
  | nil => exact kept
  | cons step steps ih => exact ih (kept.take step)

theorem kept_go (root : String) (steps : List Step) : Kept root ((ofRoot root).go steps) :=
  (kept_ofRoot root).go steps

/-- The paths that a server clears are those that it registered with the address behind the last
slash. -/
theorem Kept.mem_clearing {root : String} (kept : Kept root site) (server : Nat)
    (address : SocketAddress) (path : String) :
    path ∈ site.clearing server address
      ↔ site.Registered server path ∧ lastSegment path = address.text := by
  rw [clearing, List.mem_filter, Registration.registered, Dictionary.mem_keys_iff]
  refine and_congr_right fun registered => ?_
  obtain ⟨key, other, rfl⟩ := kept.registered server path registered
  rw [pathUnder, Registration.isOf_append_iff address _ other.isName_text.2,
    lastSegment_append _ other.isName_text.2]

theorem increasing_clearing (site : Deployment) (server : Nat) (address : SocketAddress) :
    (site.clearing server address).Pairwise (· < ·) := by
  refine List.Pairwise.filter _ ?_
  exact List.pairwise_map.mpr (site.servers server).paths.increasing

theorem map_path_turns (server : Nat) (amid : List (List Step)) (paths : List String)
    (site : Deployment) : (clearAmid server amid paths site).turns.map Turn.path = paths := by
  induction paths generalizing amid site with
  | nil => rfl
  | cons path rest ih => exact congrArg (path :: ·) (ih amid.tail _)

/-- A server that has deleted a node when its turn came, and nothing else. -/
def Turn.Clears (turn : Turn) (server : Nat) : Prop :=
  turn.moment.Clears server (fun path => path = turn.path ∧ turn.moment.Deletable turn.path)
    (turn.moment.visit server turn.path).2

theorem clears_amid {root : String} (kept : Kept root site) (server : Nat)
    (amid : List (List Step)) (paths : List String) :
    let clearing := clearAmid server amid paths site
    clearing.count = clearing.turns.countP (fun turn => turn.moment.Deletable turn.path)
      ∧ ∀ turn ∈ clearing.turns, turn.Clears server := by
  induction paths generalizing amid site with
  | nil => exact ⟨rfl, nofun⟩
  | cons path rest ih =>
      have moment := kept.go (amid.headD [])
      obtain ⟨one, first⟩ := clears_visit moment.faithful server path
      obtain ⟨count, others⟩ := ih (moment.take (.visit server path)) amid.tail
      intro clearing
      have turns : clearing.turns = ⟨path, site.go (amid.headD [])⟩
          :: (clearAmid server amid.tail rest
            ((site.go (amid.headD [])).take (.visit server path))).turns := rfl
      rw [turns]
      constructor
      · rw [List.countP_cons, Nat.add_comm, ← count]
        refine congrArg (· + _) (one.trans ?_)
        simp
      · exact List.forall_mem_cons.mpr ⟨first, others⟩

/-- To clear an address deletes the nodes that the server registered for the address and that can be
deleted when it is their turn, and tells how many they are.  No other node is touched, in particular
none of another address, and what is not deleted stays registered. -/
theorem clears_of_run (root : String) (steps : List Step) (server : Nat)
    (address : SocketAddress) :
    let site := (ofRoot root).go steps
    let paths := site.clearing server address
    let count := ((site.servers server).clear site.store address).1
    let after := site.perform (.clear server address)
    -- the paths whose turn comes
    (∀ path, path ∈ paths ↔ site.Registered server path ∧ lastSegment path = address.text)
      ∧ paths.Nodup
      ∧ (∀ key other, other.text ≠ address.text → pathUnder root key other ∉ paths)
      -- whatever others do between the turns
      ∧ (∀ amid, let clearing := clearAmid server amid paths site
          clearing.turns.map Turn.path = paths
            ∧ clearing.count
              = clearing.turns.countP (fun turn => turn.moment.Deletable turn.path)
            ∧ ∀ turn ∈ clearing.turns, turn.Clears server)
      -- if nobody else does anything
      ∧ (clearAmid server [] paths site).count = count
      ∧ (clearAmid server [] paths site).final = after
      ∧ count = paths.countP (site.Deletable ·)
      ∧ site.Clears server (fun path => path ∈ paths ∧ site.Deletable path) after := by
  intro site paths count after
  have kept := kept_go root steps
  have mem := kept.mem_clearing server address
  have increasing := site.increasing_clearing server address
  obtain ⟨sameCount, sameFinal⟩ := clearAmid_nil server paths site
  obtain ⟨total, clears⟩ := clears_at_once kept.faithful server increasing
  refine ⟨mem, ?_, ?_, ?_, sameCount, sameFinal, ?_, ?_⟩
  · exact (site.servers server).paths.nodup_keys.filter _
  · intro key other apart isMem
    have same := ((mem _).mp isMem).2
    rw [pathUnder, lastSegment_append _ other.isName_text.2] at same
    exact apart same
  · exact fun amid => ⟨map_path_turns server amid paths site, clears_amid kept server amid paths⟩
  · exact sameCount.symm.trans total
  · have same : after = _ := sameFinal.symm
    rw [same]
    exact clears

end Deployment

end RemoteCall.Directory

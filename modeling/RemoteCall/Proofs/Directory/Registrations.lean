import Mathlib.Data.List.Induction
import RemoteCall.Proofs.Directory.Deployment
import RemoteCall.Proofs.Net.Names

/-! # Who registers is found

    After a registration that succeeds, the node of the address is there and
    lookups have the address, unless the server had registered it before and
    somebody else has deleted the node since (`register_of_run`): the server
    takes for granted what it registered (`registers_nothing`).  So nodes are
    followed from act to act (`stays_or_removed`), and a node that a server
    registered and that is gone was removed by an act of somebody else
    (`removed_of_run`). -/

namespace RemoteCall.Directory.Deployment

open RemoteCall.Directory.Path Balance

variable {site : Deployment} {server : Nat} {path : String}

/-- Whether a server registered a path. -/
def Registered (site : Deployment) (server : Nat) (path : String) : Prop :=
  (site.servers server).paths.contains path = true

/-- Whether there is a node at a path. -/
def Holds (site : Deployment) (path : String) : Prop :=
  site.store.tree.contains path = true

/-- Whether somebody else than a server deletes a path, or clears what he registered. -/
def Act.IsForeign (act : Act) (server : Nat) (path : String) : Prop :=
  act = .view (.delete path) ∨ ∃ other address, other ≠ server ∧ act = .clear other address

/-! ## One act -/

theorem servers_absorb (site : Deployment) (server : Nat)
    (outcome : List Event × Registration × Store Event) (other : Nat) :
    (site.absorb server outcome).servers other
      = if other = server then outcome.2.1 else site.servers other :=
  rfl

/-- A registration that fails changes nothing. -/
theorem absorb_same (site : Deployment) (server : Nat) :
    site.absorb server ([], site.servers server, site.store) = site := by
  have servers : (site.absorb server ([], site.servers server, site.store)).servers
      = site.servers := by
    funext other
    rw [servers_absorb]
    split
    · next same => rw [same]
    · rfl
  show Deployment.mk site.store site.discovery
    (site.absorb server ([], site.servers server, site.store)).servers site.lists = site
  rw [servers]

/-- A server that succeeds remembers the path; if it did not before, there is a node. -/
theorem register_cases (faithful : site.view.Faithful) (server : Nat) (key : String)
    (address : SocketAddress) (weight : UInt32) :
    let path := (site.servers server).nodePath key address
    let result := ((site.servers server).register site.store key address weight).1
    let after := site.perform (.register server key address weight)
    (¬ (site.store.isAvailable = true ∧ isValid path = true)
        ∧ (∃ fault, result = .error fault) ∧ after = site)
      ∨ result = .ok ()
        ∧ (∀ other, after.servers other
          = if other = server then (site.servers server).adding path else site.servers other)
        ∧ (site.Registered server path ∧ after.view = site.view
          ∨ ¬ site.Registered server path ∧ after.Holds path) := by
  intro path result after
  have eq : after = site.absorb server
    ((site.servers server).register site.store key address weight).2 := rfl
  have eq' : result = ((site.servers server).register site.store key address weight).1 := rfl
  rcases (site.servers server).register_cases site.store key address weight with
    ⟨registered, outcome⟩ | ⟨unregistered, ⟨refused, fault, outcome⟩ | ⟨⟨-, there⟩, outcome⟩
      | ⟨⟨valid, within, absent⟩, outcome⟩⟩
  · rw [outcome] at eq eq'
    rw [eq]
    exact .inr ⟨eq', fun _ => rfl, .inl ⟨registered, rfl⟩⟩
  · rw [outcome] at eq eq'
    refine .inl ⟨fun both => refused ⟨both.1, .inr both.2⟩, ⟨fault, eq'⟩, ?_⟩
    exact eq.trans (site.absorb_same server)
  · rw [outcome] at eq eq'
    rw [eq]
    exact .inr ⟨eq', fun _ => rfl, .inr ⟨Bool.eq_false_iff.mp unregistered, there⟩⟩
  · rw [outcome] at eq eq'
    have created : after.view
        = site.view.perform (.create path (Bytes.ofText (toString weight.toNat))) := by
      rw [eq, view_absorb]
      rfl
    have there : after.Holds path := by
      show after.view.store.tree.contains path = true
      rcases faithful.tree_create path (Bytes.ofText (toString weight.toNat)) with
        ⟨-, same⟩ | ⟨taken, -⟩
      · rw [created, same, Tree.contains_insert]
        exact .inl (.head _)
      · exact absurd ⟨valid, within, absent⟩ taken
    refine .inr ⟨eq', ?_, .inr ⟨Bool.eq_false_iff.mp unregistered, there⟩⟩
    rw [eq]
    exact fun _ => rfl

/-- A node that somebody deletes is not created again by the server that registered it. -/
theorem register_deleted (site : Deployment) (server : Nat) (key : String) (address : SocketAddress)
    (weight : UInt32) (fresh : ¬ site.Registered server ((site.servers server).nodePath key address))
    (free : site.store.isAvailable = true
      ∧ isValid ((site.servers server).nodePath key address) = true
      ∧ site.store.tree.contains ((site.servers server).nodePath key address) = false) :
    let path := (site.servers server).nodePath key address
    let first := site.perform (.register server key address weight)
    let last := first.perform (.view (.delete path))
    ((last.servers server).register last.store key address weight).1 = .ok ()
      ∧ (last.perform (.register server key address weight)).view
        = site.view.run [.create path (Bytes.ofText (toString weight.toNat)), .delete path] := by
  intro path first last
  obtain ⟨within, valid, absent⟩ := free
  -- the first registration creates the node
  have created : first = site.absorb server
      ((site.store.create path (Bytes.ofText (toString weight.toNat))).2.1,
        (site.servers server).adding path,
        (site.store.create path (Bytes.ofText (toString weight.toNat))).2.2) := by
    show site.absorb server ((site.servers server).register site.store key address weight).2 = _
    rw [(site.servers server).register_free site.store (Bool.eq_false_iff.mpr fresh)
      ⟨valid, within, absent⟩]
  have servers : last.servers server = (site.servers server).adding path := by
    show first.servers server = _
    rw [created, servers_absorb, if_pos rfl]
  have view : last.view
      = site.view.run [.create path (Bytes.ofText (toString weight.toNat)), .delete path] := by
    show first.view.perform (.delete path) = _
    rw [created, view_absorb]
    rfl
  -- the second one takes it for granted
  rcases (last.servers server).register_cases last.store key address weight with
    ⟨-, outcome⟩ | ⟨unregistered, -⟩
  · refine ⟨congrArg Prod.fst outcome, ?_⟩
    rw [perform, outcome, view_absorb]
    exact view
  · have samePath : (last.servers server).nodePath key address = path := by
      rw [servers]
      rfl
    rw [samePath, servers, Registration.contains_adding, decide_eq_true rfl] at unregistered
    cases unregistered

/-- To find an address does no more to the store than the lookup. -/
theorem store_find (site : Deployment) (numbers : List Nat) (name key : String) :
    (site.perform (.find numbers name key)).store
      = (site.view.perform (.lookup key)).store := by
  rw [perform]
  rcases site.discovery.find_cases site.store numbers name key with
    ⟨fault, -, outcome⟩ | ⟨list, -, ⟨fault, -, outcome⟩ | ⟨strategy, -, outcome⟩⟩
  all_goals
    rw [outcome]
    rfl

theorem perform_select (site : Deployment) (strategy : Strategy) (key : String) (number : Nat) :
    (site.perform (.select strategy key number)).store = site.store
      ∧ (site.perform (.select strategy key number)).servers = site.servers := by
  rw [perform]
  cases site.lists[number]? with
  | none => exact ⟨rfl, rfl⟩
  | some list => exact ⟨rfl, rfl⟩

/-- What stays registered when a server clears an address was registered before and keeps its
node. -/
theorem clear_own (faithful : site.view.Faithful) (address : SocketAddress)
    (registered : (site.perform (.clear server address)).Registered server path) :
    site.Registered server path
      ∧ (site.Holds path → (site.perform (.clear server address)).Holds path) := by
  rw [perform, Registered, servers_absorb, if_pos rfl] at registered
  obtain ⟨kept, stays⟩ := Registration.contains_deleteAll faithful registered
  refine ⟨kept, fun there => ?_⟩
  show (site.perform (.clear server address)).view.store.tree.contains path = true
  rw [view_clear]
  exact stays there

/-- A node of a path that a server has registered stays, or somebody else may have removed it. -/
theorem stays_or_removed (faithful : site.view.Faithful) {act : Act} (there : site.Holds path)
    (registered : (site.perform act).Registered server path) :
    (site.perform act).Holds path ∨ act.IsForeign server path := by
  cases act with
  | view act =>
      by_cases removes : act = .delete path
      · exact .inr (.inl (congrArg Act.view removes))
      · exact .inl (faithful.contains_perform there removes)
  | register other key address weight =>
      refine .inl ?_
      show (site.perform (.register other key address weight)).view.store.tree.contains path = true
      rcases site.view_register other key address weight with same | same
      · rw [same]
        exact there
      · rw [same]
        exact faithful.contains_perform there nofun
  | clear other address =>
      by_cases own : other = server
      · subst own
        exact .inl ((clear_own faithful address registered).2 there)
      · exact .inr (.inr ⟨other, address, own, rfl⟩)
  | find numbers name key =>
      refine .inl ?_
      rw [Holds, store_find, (faithful.store_lookup key).1]
      exact there
  | lend key => exact .inl there
  | wrap addresses => exact .inl there
  | select strategy key number =>
      refine .inl ?_
      rw [Holds, (site.perform_select strategy key number).1]
      exact there
  | calls active fits => exact .inl there

/-- A path that a server has registered was registered before, or is that of an address that the
server registers now. -/
theorem registered_cases (faithful : site.view.Faithful) {act : Act}
    (registered : (site.perform act).Registered server path) :
    site.Registered server path
      ∨ ∃ key address weight, act = .register server key address weight
        ∧ path = (site.servers server).nodePath key address := by
  cases act with
  | view act => exact .inl registered
  | register other key address weight =>
      rcases register_cases faithful other key address weight with
        ⟨-, -, same⟩ | ⟨-, servers, -⟩
      · rw [same] at registered
        exact .inl registered
      · rw [Registered, servers] at registered
        by_cases own : server = other
        · subst own
          rw [if_pos rfl, Registration.contains_adding, Bool.or_eq_true, decide_eq_true_eq]
            at registered
          exact registered.symm.imp id fun same => ⟨key, address, weight, rfl, same⟩
        · rw [if_neg own] at registered
          exact .inl registered
  | clear other address =>
      by_cases own : server = other
      · subst own
        exact .inl (clear_own faithful address registered).1
      · rw [perform, Registered, servers_absorb, if_neg own] at registered
        exact .inl registered
  | find numbers name key => exact .inl registered
  | lend key => exact .inl registered
  | wrap addresses => exact .inl registered
  | select strategy key number =>
      rw [Registered, (site.perform_select strategy key number).2] at registered
      exact .inl registered
  | calls active fits => exact .inl registered

/-- A path that a server has registered was registered before, or there is a node now. -/
theorem registered_or_holds (faithful : site.view.Faithful) {act : Act}
    (registered : (site.perform act).Registered server path) :
    site.Registered server path ∨ (site.perform act).Holds path := by
  rcases registered_cases faithful registered with before | ⟨key, address, weight, rfl, rfl⟩
  · exact .inl before
  · rcases register_cases faithful server key address weight with ⟨-, -, same⟩ | ⟨-, -, known⟩
    · rw [same] at registered
      exact .inl registered
    · exact known.imp And.left And.right

/-! ## Runs -/

/-- Whether an act of somebody else deleted a node while a server had it registered. -/
def Removed (root : String) (acts : List Act) (server : Nat) (path : String) : Prop :=
  ∃ before act after, acts = before ++ act :: after ∧ act.IsForeign server path
    ∧ ((ofRoot root).run before).Registered server path
    ∧ ((ofRoot root).run before).Holds path
    ∧ ¬ (((ofRoot root).run before).perform act).Holds path

/-- What a server registered is there unless somebody else removed it. -/
theorem removed_of_run {root : String} {acts : List Act}
    (registered : ((ofRoot root).run acts).Registered server path)
    (gone : ¬ ((ofRoot root).run acts).Holds path) : Removed root acts server path := by
  induction acts using List.reverseRecOn with
  | nil => exact nomatch registered
  | append_singleton acts act ih =>
      have faithful := faithful_view_run root acts
      rw [run_concat] at registered gone
      rcases registered_or_holds faithful registered with registered' | there
      · by_cases there : ((ofRoot root).run acts).Holds path
        · have foreign := (stays_or_removed faithful there registered).resolve_left gone
          exact ⟨acts, act, [], rfl, foreign, registered', there, gone⟩
        · obtain ⟨before, removal, after, rfl, removed⟩ := ih registered' there
          refine ⟨before, removal, after ++ [act], ?_, removed⟩
          rw [List.append_assoc, List.cons_append]
      · exact absurd there gone

/-- A server keeps its root. -/
theorem root_perform (site : Deployment) (act : Act) (server : Nat) :
    ((site.perform act).servers server).root = (site.servers server).root := by
  have absorbed {other : Nat} {outcome : List Event × Registration × Store Event}
      (same : outcome.2.1.root = (site.servers other).root) :
      ((site.absorb other outcome).servers server).root = (site.servers server).root := by
    rw [servers_absorb]
    split
    · next own => rw [own, same]
    · rfl
  cases act with
  | view act => rfl
  | register other key address weight => exact absorbed (Registration.root_register ..)
  | clear other address => exact absorbed (Registration.root_deleteAll ..)
  | find numbers name key => rfl
  | lend key => rfl
  | wrap addresses => rfl
  | select strategy key number => rw [(site.perform_select strategy key number).2]
  | calls active fits => rfl

/-- All servers use one root for ever. -/
theorem nodePath_run (root : String) (acts : List Act) (server : Nat) (key : String)
    (address : SocketAddress) : (((ofRoot root).run acts).servers server).nodePath key address
      = withoutTail root ++ "/" ++ key ++ "/" ++ address.text := by
  have root_run (site : Deployment) :
      ((site.run acts).servers server).root = (site.servers server).root := by
    induction acts generalizing site with
    | nil => rfl
    | cons act acts ih => exact (ih (site.perform act)).trans (site.root_perform act server)
  rw [Registration.nodePath, root_run]
  rfl

/-- Lookups have an address whose node is there. -/
theorem exists_lookup (faithful : site.view.Faithful) {key : String} {address : SocketAddress}
    (there : site.Holds (site.view.cache.servicePath key ++ "/" ++ address.text))
    (canTell : site.view.CanTell key) :
    ∃ list, site.view.lookup key = .ok list ∧ address.text ∈ list.addresses := by
  have mem : address.text ∈ site.view.addresses key := by
    refine Tree.mem_children.mpr ⟨address.isName_text, ?_⟩
    rw [← faithful.eq_below there]
    exact there
  obtain ⟨list, found, current⟩ := faithful.coherent.finds key canTell (List.ne_nil_of_mem mem)
  exact ⟨list, found, current ▸ mem⟩

/-- A registration that fails changes nothing.  After one that succeeds the node is there and lookups
have the address, unless the server had registered it before and somebody else has removed it. -/
theorem register_of_run (root : String) (acts : List Act) (server : Nat) (key : String)
    (address : SocketAddress) (weight : UInt32) :
    let site := (ofRoot root).run acts
    let path := withoutTail root ++ "/" ++ key ++ "/" ++ address.text
    let result := ((site.servers server).register site.store key address weight).1
    let after := site.perform (.register server key address weight)
    (∀ fault, result = .error fault → after = site)
      ∧ (site.store.isAvailable = true → IsPath path → result = .ok ())
      ∧ (result = .ok () → after.Registered server path
        ∧ (after.Holds path ∧ (after.view.CanTell key →
              ∃ list, after.view.lookup key = .ok list ∧ address.text ∈ list.addresses)
            ∨ site.Registered server path ∧ Removed root acts server path)) := by
  intro site path result after
  have faithful := faithful_view_run root acts
  have samePath := nodePath_run root acts server key address
  have visible (there : after.Holds path) (canTell : after.view.CanTell key) :
      ∃ list, after.view.lookup key = .ok list ∧ address.text ∈ list.addresses := by
    have last : after = (ofRoot root).run (acts ++ [.register server key address weight]) :=
      (run_concat _ acts _).symm
    refine exists_lookup ?_ ?_ canTell
    · rw [last]
      exact faithful_view_run root _
    · rw [last, servicePath_run, ← last]
      exact there
  rcases register_cases faithful server key address weight with
    ⟨refused, ⟨fault, failed⟩, same⟩ | ⟨succeeded, servers, known⟩
  · refine ⟨fun _ _ => same, ?_, ?_⟩
    · intro within isPath
      rw [samePath] at refused
      exact absurd ⟨within, (isValid_iff_isPath path).mpr isPath⟩ refused
    · exact fun succeeded => nomatch failed.symm.trans succeeded
  · refine ⟨?_, fun _ _ => succeeded, fun _ => ⟨?_, ?_⟩⟩
    · exact fun fault failed => nomatch failed.symm.trans succeeded
    · rw [Registered, servers, if_pos rfl, Registration.contains_adding, samePath]
      simp [path]
    · rw [samePath] at known
      rcases known with ⟨registered, same⟩ | ⟨-, there⟩
      · by_cases there : site.Holds path
        · have there : after.Holds path := by
            show after.view.store.tree.contains path = true
            rw [same]
            exact there
          exact .inl ⟨there, visible there⟩
        · exact .inr ⟨registered, removed_of_run registered there⟩
      · exact .inl ⟨there, visible there⟩

/-- A server that registers an address again after somebody deleted the node succeeds, and there is no
node and nothing to be found. -/
theorem registers_nothing :
    let address : SocketAddress := ⟨.v4 127 0 0 1, 1, 0⟩
    let path := "/my-rpc/A/127.0.0.1:1"
    let site := (ofRoot "/my-rpc").run [.register 0 "A" address 10, .view (.delete path)]
    let after := site.perform (.register 0 "A" address 10)
    ((site.servers 0).register site.store "A" address 10).1 = .ok () ∧ ¬ after.Holds path
      ∧ after.view.lookup "A" = .error (.noProvider "A") := by
  intro address path site after
  have pathIs : ((ofRoot "/my-rpc").servers 0).nodePath "A" address = path := by decide +kernel
  have deleted := register_deleted (ofRoot "/my-rpc") 0 "A" address 10
  rw [pathIs] at deleted
  obtain ⟨succeeded, same⟩ := deleted nofun ⟨rfl, by decide +kernel, rfl⟩
  have view : after.view = (CachedStore.ofRoot "/my-rpc").run
      [.create path (Bytes.ofText "10"), .delete path] := same
  refine ⟨succeeded, ?_, ?_⟩
  · show ¬ after.view.store.tree.contains path = true
    rw [view, CachedStore.run_eq_next]
    decide +kernel
  · rw [view, CachedStore.run_eq_next]
    decide +kernel

end RemoteCall.Directory.Deployment

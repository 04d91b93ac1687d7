import RemoteCall.Proofs.Directory.Deployment

/-! # Calls go to registered addresses

    What finding an address can come to is told by the addresses that the
    service has in the store at that moment (`Finds`), for every strategy and
    whatever lists, rings, counts and weights the client kept from before
    (`Sound.finds`).  So once no registered text spells an address, the
    address is not found again before such a text is registered anew
    (`finds_of_run`). -/

namespace RemoteCall.Directory.Deployment

open RemoteCall.Directory.Path Balance

variable {site : Deployment}

/-- What finding an address of a service can come to. -/
inductive Finds (site : Deployment) (key : String) : Except Fault SocketAddress → Prop where
  /-- An address of the service spells what is found. -/
  | found {text : String} {address : SocketAddress} (canTell : site.view.CanTell key)
    (mem : text ∈ site.view.addresses key)
    (spelled : SocketAddress.ofText? text = some address) : Finds site key (.ok address)
  /-- An address of the service spells no socket address. -/
  | misspelled {text : String} (canTell : site.view.CanTell key)
    (mem : text ∈ site.view.addresses key)
    (misspelled : SocketAddress.ofText? text = none) : Finds site key (.error (.badAddress text))
  /-- The service has no address. -/
  | empty (canTell : site.view.CanTell key) (none : site.view.addresses key = []) :
    Finds site key (.error (.noProvider key))
  /-- The store cannot be asked for the addresses of the service. -/
  | refused (cannot : ¬ site.view.CanTell key) (reason : String) :
    Finds site key (.error (.directory reason))

/-- An address that was selected is found if its text spells one. -/
theorem finds_resolve {key text : String} (canTell : site.view.CanTell key)
    (mem : text ∈ site.view.addresses key) :
    site.Finds key (Discovery.resolve key (some text)) := by
  rw [Discovery.resolve]
  cases spelled : SocketAddress.ofText? text with
  | some address => exact .found canTell mem spelled
  | none => exact .misspelled canTell mem spelled

/-- A lookup that fails tells why. -/
theorem finds_of_lookup_eq_error (coherent : site.view.Coherent) {key : String} {fault : Fault}
    (failed : site.view.lookup key = .error fault) : site.Finds key (.error fault) := by
  by_cases canTell : site.view.CanTell key
  · by_cases none : site.view.addresses key = []
    · rw [coherent.misses key canTell none] at failed
      obtain rfl := Except.error.inj failed
      exact .empty canTell none
    · obtain ⟨list, found, -⟩ := coherent.finds key canTell none
      exact nomatch found.symm.trans failed
  · obtain ⟨⟨reason, failed'⟩, -⟩ := coherent.refuses key canTell
    obtain rfl := Except.error.inj (failed.symm.trans failed')
    exact .refused canTell reason

/-- Finding ends in a selection from the addresses that the service has. -/
theorem Sound.finds (sound : site.Sound) (numbers : List Nat) (strategy : Strategy)
    (key : String) :
    site.Finds key (site.discovery.find site.store numbers strategy.name key).1 := by
  have coherent := sound.faithful.coherent
  rcases site.discovery.find_cases site.store numbers strategy.name key with
    ⟨fault, failed, outcome⟩ | ⟨list, found, ⟨fault, unknown, -⟩ | ⟨strategy', -, outcome⟩⟩
  · rw [outcome]
    exact finds_of_lookup_eq_error coherent failed
  · rw [sound.strategies] at unknown
    exact nomatch unknown
  · have canTell : site.view.CanTell key := by
      by_contra cannot
      obtain ⟨⟨reason, failed⟩, -⟩ := coherent.refuses key cannot
      exact nomatch failed.symm.trans found
    obtain ⟨some, current, -⟩ := sound.faithful.lookup_eq_ok found
    have ready := sound.ready strategy.name key
    have selects := (site.discovery.ready site.store strategy.name key).select_selects
      (site.discovery.cache.lookup site.store key).2.2 strategy' some ready.fits
      (ready.rings key list (sound.knows_ready found))
    obtain ⟨text, mem, selected⟩ := selects _ (Choice.possible_resolve _ numbers)
    rw [outcome]
    dsimp only
    rw [selected]
    exact finds_resolve canTell (current ▸ mem)

/-- Whether no address of a service spells a socket address. -/
def Lacks (site : Deployment) (key : String) (address : SocketAddress) : Prop :=
  ∀ text ∈ site.view.addresses key, SocketAddress.ofText? text ≠ some address

theorem Finds.not_lacks {key : String} {address : SocketAddress}
    (finds : site.Finds key (.ok address)) : ¬ site.Lacks key address := by
  cases finds with
  | found canTell mem spelled => exact fun lacks => lacks _ mem spelled

/-- What comes to hold in a run comes to hold by one of its acts. -/
theorem exists_turn {P : Deployment → Prop} {acts : List Act} (fails : ¬ P site)
    (holds : P (site.run acts)) : ∃ before act after, acts = before ++ act :: after
      ∧ ¬ P (site.run before) ∧ P ((site.run before).perform act) := by
  induction acts generalizing site with
  | nil => exact absurd holds fails
  | cons act acts ih =>
      by_cases now : P (site.perform act)
      · exact ⟨[], act, acts, rfl, fails, now⟩
      · obtain ⟨before, act', after, rfl, fails', now'⟩ := ih now holds
        exact ⟨act :: before, act', after, rfl, fails', now'⟩

/-- Whatever was done before, finding tells how the store is at that moment; and an address that no
text of a service spells is not found until an act brings such a text. -/
theorem finds_of_run (root : String) (acts : List Act) :
    let site := (ofRoot root).run acts
    (∀ numbers strategy key, site.Finds key
        (site.discovery.find site.store numbers (Strategy.name strategy) key).1)
      ∧ (∀ key, site.view.addresses key
        = site.store.tree.children (withoutTail root ++ "/" ++ key))
      ∧ ∀ key address, site.Lacks key address → ∀ later numbers strategy,
        let last := site.run later
        (last.discovery.find last.store numbers (Strategy.name strategy) key).1 = .ok address →
          ∃ before act after, later = before ++ act :: after
            ∧ (site.run before).Lacks key address
            ∧ ¬ ((site.run before).perform act).Lacks key address := by
  have sound := sound_run root acts
  refine ⟨sound.finds, ?_, ?_⟩
  · intro key
    rw [CachedStore.addresses, servicePath_run]
    rfl
  · intro key address lacks later numbers strategy last found
    have sound' : last.Sound := by
      have sound' := sound_run root (acts ++ later)
      rw [run_append] at sound'
      exact sound'
    have finds := sound'.finds numbers strategy key
    rw [found] at finds
    obtain ⟨before, act, after, split, lacked, gained⟩ :=
      exists_turn (P := fun site => ¬ site.Lacks key address) (not_not_intro lacks) finds.not_lacks
    exact ⟨before, act, after, split, not_not.mp lacked, gained⟩

end RemoteCall.Directory.Deployment

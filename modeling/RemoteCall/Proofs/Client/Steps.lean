import RemoteCall.Proofs.Client.Accounts
import RemoteCall.Proofs.Client.Operations

/-! # What a step of a client makes of an entry

    The operations of a step name ids (`does_step`), and the first one that
    concerns an entry settles it, once and for all (`Carries.settles`,
    `Carries.stays`).  So an entry is spared by a step that does not touch its
    id, as long as its channel is active afterwards (`Does.spares`). -/

namespace RemoteCall.Client

open Directory

variable {before after client : Client} {operations : List Pending.Operation}

/-! ## What operations make of an entry -/

/-- Whatever operations make of a sound table, a ticket has one life. -/
theorem Sound.nodup_lives (sound : client.Sound) (operations : List Pending.Operation) :
    ((Pending.allLives client.pending operations).map (·.waiting.ticket)).Nodup := by
  have entries : client.pending.calls.entries.Nodup :=
    List.Nodup.of_map Prod.fst client.pending.calls.nodup_keys
  rw [Pending.allLives, List.map_append, List.map_map, List.nodup_append]
  refine ⟨?_, Pending.nodup_tickets .., ?_⟩
  · exact entries.map_on fun entry mem other mem' same => sound.entry_eq mem mem' same
  · intro ticket old other new same
    obtain ⟨entry, mem, rfl⟩ := List.mem_map.mp old
    obtain ⟨life, later, rfl⟩ := List.mem_map.mp new
    have bounded : entry.2.ticket ≤ client.pending.entered := sound.ticket_le mem
    exact absurd (Pending.lt_of_mem_lives later)
      (Nat.not_lt.mpr (Nat.le_trans (Nat.le_of_eq same.symm) bounded))

theorem Carries.mem_settlements (carries : Carries before operations after)
    {settlement : Ticket × Settlement} (mem : settlement ∈ after.settlements) :
    (∃ life ∈ Pending.allLives before.pending operations, life.settled? = some settlement)
      ∨ settlement ∈ before.settlements := by
  rw [carries.settlements, List.mem_append, List.mem_reverse,
    (Pending.settled_run before.pending operations).mem_iff, List.mem_filterMap] at mem
  exact mem

/-- An entry that no operation concerns stays. -/
theorem Carries.kept (carries : Carries before operations after) {entry : String × Waiting}
    (mem : entry ∈ before.pending.calls.entries)
    (spared : Pending.fate entry.1 entry.2.channel operations = none) :
    entry ∈ after.pending.calls.entries := by
  rw [carries.pending, (Pending.entries_run before.pending operations).mem_iff, List.mem_filterMap]
  exact ⟨Pending.lifeOf operations entry, List.mem_append_left _ (List.mem_map_of_mem mem),
    if_pos spared⟩

/-- The first operation that concerns an entry settles it. -/
theorem Carries.settles (carries : Carries before operations after) (sound : before.Sound)
    {entry : String × Waiting} (mem : entry ∈ before.pending.calls.entries)
    {settlement : Settlement}
    (decided : Pending.fate entry.1 entry.2.channel operations = some settlement) :
    after.settlement? entry.2.ticket = some settlement := by
  have lived : Pending.lifeOf operations entry ∈ Pending.allLives before.pending operations :=
    List.mem_append_left _ (List.mem_map_of_mem mem)
  have ends : (Pending.lifeOf operations entry).settled? = some (entry.2.ticket, settlement) :=
    Option.map_eq_some_iff.mpr ⟨settlement, decided, rfl⟩
  refine List.lookup_eq_some_of_unique ?_ fun other mem' same => ?_
  · rw [carries.settlements, List.mem_append, List.mem_reverse,
      (Pending.settled_run before.pending operations).mem_iff, List.mem_filterMap]
    exact .inl ⟨_, lived, ends⟩
  · rcases carries.mem_settlements mem' with ⟨life, lived', ends'⟩ | earlier
    · obtain ⟨_, -, rfl⟩ := Option.map_eq_some_iff.mp ends'
      -- the ticket tells the life
      obtain rfl := List.inj_on_of_nodup_map (sound.nodup_lives operations) lived' lived same
      exact congrArg Prod.snd (Option.some.inj (ends'.symm.trans ends))
    · exact absurd same.symm ((sound.settled other earlier).2 entry mem)

/-- What is settled stays settled. -/
theorem Carries.stays (carries : Carries before operations after) (sound : before.Sound)
    {ticket : Ticket} {settlement : Settlement}
    (found : before.settlement? ticket = some settlement) :
    after.settlement? ticket = some settlement := by
  obtain ⟨later, earlier, all, -⟩ := List.lookup_eq_some_iff.mp found
  have settled := sound.settled (ticket, settlement)
    (all ▸ List.mem_append_right later (.head earlier))
  have others : (Pending.run before.pending operations).2.1.reverse.lookup ticket = none := by
    refine List.lookup_eq_none_iff.mpr fun other mem => bne_iff_ne.mpr fun same => ?_
    rw [List.mem_reverse, (Pending.settled_run before.pending operations).mem_iff,
      List.mem_filterMap] at mem
    obtain ⟨life, lived, ends⟩ := mem
    obtain ⟨_, -, rfl⟩ := Option.map_eq_some_iff.mp ends
    rcases List.mem_append.mp lived with old | new
    · obtain ⟨entry, there, rfl⟩ := List.mem_map.mp old
      exact settled.2 entry there same.symm
    · have behind := Pending.lt_of_mem_lives new
      exact absurd settled.1 (Nat.not_le.mpr (Nat.lt_of_lt_of_eq behind same.symm))
  rw [settlement?, carries.settlements, List.lookup_append, others, Option.none_or]
  exact found

/-- An entry is spared by what names other ids, as long as its channel is active. -/
theorem Does.spares {name : String → Prop} (does : Does name before after)
    {entry : String × Waiting} (mem : entry ∈ before.pending.calls.entries) (other : ¬ name entry.1)
    (known : entry.2.channel ≤ before.opened)
    (isActive : after.pool.isActive entry.2.channel = true) :
    entry ∈ after.pending.calls.entries := by
  obtain ⟨operations, follows, named⟩ := does
  have lasting := (follows.active _ known isActive).2
  refine follows.kept mem (List.findSome?_eq_none_iff.mpr fun operation mem => ?_)
  have named := named operation mem
  cases operation with
  | put id channel => exact if_neg fun same : id = entry.1 => other (same ▸ named)
  | complete response =>
      exact if_neg fun same : response.requestId = entry.1 => other (same ▸ named)
  | fail id fault => exact if_neg fun same : id = entry.1 => other (same ▸ named)
  | remove id => exact if_neg fun same : id = entry.1 => other (same ▸ named)
  | failAll channel => exact if_neg fun same : channel = entry.2.channel => lasting (same ▸ mem)
  | forget ticket => rfl

/-! ## Steps -/

/-- The ids whose entries a happening may touch, apart from those of channels that end. -/
def Touches (client : Client) : Happening → String → Prop
  | .begins _ _ _ request, id => id = request.id
  | .writes network ticket, id => ∃ outgoing, client.outgoing? ticket = some outgoing
    ∧ outgoing.request.id = id ∧ ∃ fault, (client.endSend network outgoing).1 = .error fault
  | .receives channel bytes, id =>
    ∃ response ∈ responsesOf (client.arriving channel bytes), response.requestId = id
  | .expires ticket, id => ∃ call, client.call? ticket = some call ∧ call.isResolved = false
    ∧ client.settlement? ticket = none ∧ call.requestId = id
  | .drops ticket, id => ∃ call, client.call? ticket = some call ∧ call.requestId = id
  | _, _ => False

theorem Does.mono {name other : String → Prop} (does : Does name before after)
    (weaker : ∀ id, name id → other id) : Does other before after := by
  obtain ⟨operations, follows, named⟩ := does
  refine ⟨operations, follows, fun operation mem => ?_⟩
  have named := named operation mem
  cases operation with
  | failAll => exact trivial
  | forget => exact trivial
  | put | complete | fail | remove => exact weaker _ named

theorem does_withdraw {name : String → Prop} (client : Client) {call : Call}
    (named : name call.requestId) : Does name client (client.withdraw call) :=
  ⟨_, client.follows_settle (.remove call.requestId) nofun, by simpa [Names] using named⟩

/-- What concerns neither the table nor the pool. -/
theorem does_same {name : String → Prop} (pending : after.pending = before.pending)
    (settlements : after.settlements = before.settlements) (opened : after.opened = before.opened)
    (pool : after.pool = before.pool) : Does name before after :=
  (follows_nothing pending settlements (Nat.le_of_eq opened.symm)
    fun _ _ isActive => pool ▸ isActive).does

/-- Before a call goes out over a channel, nothing has happened to other calls. -/
theorem does_opening (client : Client) (network : Network) (store : Store Event)
    (numbers : List Nat) (request : Request) (address : SocketAddress) :
    Does (fun _ => False) client (((client.looked store numbers request).beginActive
      address).channelTo network address).2 := by
  refine Does.trans ?_ (does_channelTo ((client.looked store numbers request).beginActive address)
    _ network address)
  exact does_same rfl rfl rfl rfl

theorem does_beginSend (client : Client) (network : Network) (store : Store Event)
    (numbers : List Nat) (request : Request) :
    Does (· = request.id) client (client.beginSend network store numbers request).2.1 := by
  rcases client.beginSend_paths network store numbers request with
    ⟨_, -, same⟩ | ⟨address, ⟨_, -, same⟩ | ⟨channel, -, -, same⟩⟩
  · rw [same]
    exact does_same rfl rfl rfl rfl
  · rw [same]
    have opening := client.does_opening network store numbers request address
    exact (opening.mono fun _ => False.elim).trans (does_same rfl rfl rfl rfl)
  · rw [same]
    have opening := client.does_opening network store numbers request address
    exact (opening.mono fun _ => False.elim).trans ⟨_, follows_enter .., by simp [Names]⟩

theorem does_endSend {name : String → Prop} (client : Client) (network : Network)
    (outgoing : Outgoing) (named : ∀ fault, (client.endSend network outgoing).1 = .error fault →
      name outgoing.request.id) :
    Does name client (client.endSend network outgoing).2 := by
  rcases client.endSend_cases network outgoing with
    ⟨frame, -, follows⟩ | ⟨fault, ids, refused, -, follows⟩
  · exact follows.does
  · refine ⟨_, follows, fun operation mem => ?_⟩
    rcases List.mem_cons.mp mem with rfl | ending
    · exact named fault refused
    · obtain ⟨id, -, rfl⟩ := List.mem_map.mp ending
      exact trivial

/-- A happening does operations about the ids that it touches, and ends channels. -/
theorem does_step (client : Client) (happening : Happening) :
    Does (client.Touches happening) client (client.step happening).2 := by
  cases happening with
  | begins network store numbers request =>
      exact client.does_beginSend network store numbers request
  | writes network ticket =>
      rw [step]
      split
      · next outgoing found =>
          exact client.does_endSend network outgoing fun fault refused =>
            ⟨outgoing, found, rfl, fault, refused⟩
      · exact client.follows_refl.does
  | receives channel bytes =>
      obtain ⟨middle, taken, ended⟩ := client.follows_receive channel bytes
      refine Does.trans ⟨_, taken, fun operation mem => ?_⟩ (ended.mono fun _ => False.elim)
      obtain ⟨response, came, rfl⟩ := List.mem_map.mp mem
      exact ⟨response, came, rfl⟩
  | ends channel => exact client.does_endChannel _ channel
  | beats network channel => exact client.does_heartbeat _ network channel
  | closes => exact client.does_close _
  | closesAddress address => exact client.does_closeAddress _ address
  | learns event => exact does_same rfl rfl rfl rfl
  | polls ticket =>
      rw [step, poll]
      split
      · exact client.follows_refl.does
      · split
        · exact client.follows_refl.does
        · split
          · exact client.follows_refl.does
          · exact does_same rfl rfl rfl rfl
  | expires ticket =>
      rw [step, expire]
      split
      · exact client.follows_refl.does
      · next call found =>
          split
          · exact client.follows_refl.does
          · next isOpen =>
              split
              · exact does_same rfl rfl rfl rfl
              · next unsettled =>
                  have touched : client.Touches (.expires ticket) call.requestId :=
                    ⟨call, found, eq_false_of_ne_true isOpen, unsettled, rfl⟩
                  exact (client.does_withdraw touched).trans (does_same rfl rfl rfl rfl)
  | drops ticket =>
      rw [step, drop]
      split
      · exact client.follows_refl.does
      · next call found =>
          have touched : client.Touches (.drops ticket) call.requestId := ⟨call, found, rfl⟩
          refine (client.does_withdraw touched).trans ?_
          dsimp only
          split <;> exact does_same rfl rfl rfl rfl

end RemoteCall.Client

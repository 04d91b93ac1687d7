import RemoteCall.Proofs.Client.Operations
import RemoteCall.Proofs.Client.Quiet

/-! # No call is lost or counted twice

    A client begins to send requests, their writes end, its channels bring frames
    and end, and its callers fetch outcomes and give calls up, in any order
    (`Client.run`).  After every step the accounts are in order: what waits
    belongs to one call that is still open, an address has as many active calls
    as there are open calls to it, and each fetched outcome was counted once
    (`run_balanced`).

    The route: what happens without the callers keeps the calls, and with them
    the accounts (`Accounts.quiet`).  Fetching an outcome, giving a call up and
    entering one are the three steps that change them (`Accounts.resolve`,
    `Accounts.giveUp`, `Accounts.beginSend`).  That an outcome is fetched only when
    its call has no entry any more rests on two facts about the table: what is
    settled does not wait (`Sound.settled`), and an entry is found under the id
    of its call's request (`Sound.waits`). -/

namespace RemoteCall.Client

open Directory

/-! ## Runs -/

/-- What happens to a client.  Several requests can be on their way at a time, and a call can be
fetched or given up while its own request is. -/
inductive Happening where
  | begins (network : Network) (store : Store Event) (numbers : List Nat) (request : Request)
  /-- The write of the request ends whose call has a ticket. -/
  | writes (network : Network) (ticket : Ticket)
  | receives (channel : ChannelId) (bytes : Bytes)
  | ends (channel : ChannelId)
  | beats (network : Network) (channel : ChannelId)
  | closes
  | closesAddress (address : SocketAddress)
  | learns (event : Event)
  | polls (ticket : Ticket)
  | expires (ticket : Ticket)
  | drops (ticket : Ticket)

/-- Outcomes that were fetched, with the tickets of their calls. -/
abbrev Fetched := List (Ticket × Except Fault Response)

/-- What comes of a happening. -/
def step (client : Client) : Happening → Fetched × Client
  | .begins network store numbers request =>
    ([], (client.beginSend network store numbers request).2.1)
  | .writes network ticket =>
    match client.outgoing? ticket with
    | some outgoing => ([], (client.endSend network outgoing).2)
    | none => ([], client)
  | .receives channel bytes => ([], client.receive channel bytes)
  | .ends channel => ([], client.endChannel channel)
  | .beats network channel => ([], (client.heartbeat network channel).2)
  | .closes => ([], client.close)
  | .closesAddress address => ([], client.closeAddress address)
  | .learns event => ([], client.absorb event)
  | .polls ticket => ((client.poll ticket).1.toList.map (ticket, ·), (client.poll ticket).2)
  | .expires ticket => ((client.expire ticket).1.toList.map (ticket, ·), (client.expire ticket).2)
  | .drops ticket => ([], client.drop ticket)

/-- What comes of happenings, one after another. -/
def run : Client → List Happening → Fetched × Client
  | client, [] => ([], client)
  | client, happening :: later =>
    let (fetched, client) := client.step happening
    let (more, client) := run client later
    (fetched ++ more, client)

/-! ## Accounts -/

/-- How many calls to an address are open: neither fetched nor given up. -/
def openTo (client : Client) (address : String) : Nat :=
  client.calls.countP fun call => call.address.text = address && !call.isResolved

/-- What holds of the table of pending calls. -/
structure Sound (client : Client) : Prop where
  nodup : (client.calls.map (·.ticket)).Nodup
  bounded : ∀ call ∈ client.calls, call.ticket ≤ client.pending.entered
  /-- An entry belongs to an open call and is found under the id of its request. -/
  waits : ∀ entry ∈ client.pending.calls.entries, ∃ call ∈ client.calls,
    call.ticket = entry.2.ticket ∧ call.requestId = entry.1 ∧ call.isResolved = false
  /-- What is settled does not wait. -/
  settled : ∀ settlement ∈ client.settlements, settlement.1 ≤ client.pending.entered
    ∧ ∀ entry ∈ client.pending.calls.entries, entry.2.ticket ≠ settlement.1
  numbered : client.Numbered

/-- How an outcome is counted. -/
def isSuccess (fetched : Ticket × Except Fault Response) : Bool :=
  match fetched.2 with
  | .ok response => response.isSuccess
  | .error _ => false

/-- What holds of the counts of outcomes. -/
structure Tallied (fetched : Fetched) (client : Client) : Prop where
  succeeded : client.metrics.callsSucceeded = fetched.countP isSuccess
  failed : client.metrics.callsFailed = fetched.countP fun one => !isSuccess one
  /-- No outcome is fetched twice. -/
  nodup : (fetched.map (·.1)).Nodup
  bounded : ∀ one ∈ fetched, one.1 ≤ client.pending.entered
  resolved : ∀ call ∈ client.calls, call.isResolved = true ↔ call.ticket ∈ fetched.map (·.1)

/-- All accounts of a client. -/
structure Accounts (fetched : Fetched) (client : Client) : Prop where
  sound : client.Sound
  tallied : client.Tallied fetched
  balanced : ∀ address, client.discovery.active.count address = client.openTo address

variable {before after client : Client} {fetched : Fetched}

/-- An entry is told by its ticket. -/
theorem Sound.entry_eq (sound : client.Sound) {entry other : String × Waiting}
    (mem : entry ∈ client.pending.calls.entries) (mem' : other ∈ client.pending.calls.entries)
    (same : entry.2.ticket = other.2.ticket) : entry = other := by
  obtain ⟨call, there, ticket, id, -⟩ := sound.waits entry mem
  obtain ⟨call', there', ticket', id', -⟩ := sound.waits other mem'
  obtain rfl := List.inj_on_of_nodup_map sound.nodup there there'
    (ticket.trans (same.trans ticket'.symm))
  -- both are found under the id of the one call
  have found := Dictionary.get?_eq_some_iff.mpr mem
  have found' := Dictionary.get?_eq_some_iff.mpr mem'
  rw [← id] at found
  rw [← id', found] at found'
  exact Prod.ext (id.symm.trans id') (Option.some.inj found')

theorem Sound.ticket_le (sound : client.Sound) {entry : String × Waiting}
    (mem : entry ∈ client.pending.calls.entries) : entry.2.ticket ≤ client.pending.entered := by
  obtain ⟨call, known, ticket, -⟩ := sound.waits entry mem
  rw [← ticket]
  exact sound.bounded call known

theorem Sound.keep (sound : before.Sound) (keeps : Keeps before after) : after.Sound where
  nodup := keeps.calls ▸ sound.nodup
  bounded := by
    rw [keeps.calls, keeps.entered]
    exact sound.bounded
  waits entry mem := keeps.calls ▸ sound.waits entry (keeps.remaining entry mem)
  settled := by
    obtain ⟨new, all, gone⟩ := keeps.settled
    intro settlement mem
    rw [keeps.entered]
    rw [all] at mem
    rcases List.mem_append.mp mem with mem | mem
    · obtain ⟨entry, there, left, same⟩ := gone settlement mem
      refine ⟨same ▸ sound.ticket_le there, fun other stays again => ?_⟩
      have one := sound.entry_eq (keeps.remaining other stays) there (again.trans same.symm)
      exact left (one ▸ stays)
    · exact ⟨(sound.settled settlement mem).1,
        fun entry stays => (sound.settled settlement mem).2 entry (keeps.remaining entry stays)⟩
  numbered := keeps.numbered sound.numbered

theorem Tallied.keep (tallied : before.Tallied fetched) (keeps : Keeps before after) :
    after.Tallied fetched where
  succeeded := keeps.succeeded.trans tallied.succeeded
  failed := keeps.failed.trans tallied.failed
  nodup := tallied.nodup
  bounded := keeps.entered ▸ tallied.bounded
  resolved := keeps.calls ▸ tallied.resolved

theorem Accounts.quiet (accounts : Accounts fetched before) (quiet : Quiet before after) :
    Accounts fetched after where
  sound := accounts.sound.keep quiet.toKeeps
  tallied := accounts.tallied.keep quiet.toKeeps
  balanced address := by
    rw [quiet.active, openTo, quiet.calls]
    exact accounts.balanced address

/-! ## Fetching and giving up -/

section OneCall

variable {call : Call} (nodup : (client.calls.map (·.ticket)).Nodup)
  (found : client.call? call.ticket = some call)

include nodup found

/-- The open calls to an address, apart from one call, and that call if it is one of them. -/
theorem openTo_of_found (address : String) :
    client.openTo address
      = (client.calls.filter fun other => other.ticket ≠ call.ticket).countP
          (fun other => other.address.text = address && !other.isResolved)
        + if call.address.text = address ∧ call.isResolved = false then 1 else 0 := by
  rw [openTo, (List.perm_of_find? nodup found).countP_eq, List.countP_cons]
  simp

/-- What becomes of the calls when the outcome of one is fetched. -/
theorem calls_resolve (outcome : Except Fault Response) :
    (client.resolve call outcome).calls.Perm ({ call with isResolved := true }
      :: client.calls.filter fun other => other.ticket ≠ call.ticket) := by
  refine ((List.perm_of_find? nodup found).map _).trans (.of_eq ?_)
  rw [List.map_cons, if_pos rfl]
  refine congrArg _ ((List.map_congr_left fun other mem => ?_).trans (List.map_id _))
  exact if_neg (of_decide_eq_true (List.mem_filter.mp mem).2)

theorem mem_calls_resolve (outcome : Except Fault Response) (one : Call) :
    one ∈ (client.resolve call outcome).calls
      ↔ one = { call with isResolved := true } ∨ one ∈ client.calls ∧ one.ticket ≠ call.ticket := by
  rw [(calls_resolve nodup found outcome).mem_iff, List.mem_cons, List.mem_filter,
    decide_eq_true_iff]

/-- When an open call ends, its address has one active call less. -/
theorem count_endActive (isOpen : call.isResolved = false)
    (balanced : ∀ address, client.discovery.active.count address = client.openTo address)
    (address : String) :
    (client.endActive call.address).discovery.active.count address
      = (client.calls.filter fun other => other.ticket ≠ call.ticket).countP
          fun other => other.address.text = address && !other.isResolved := by
  have opened := openTo_of_found nodup found address
  show (client.discovery.active.finish call.address.text).count address = _
  rw [Balance.ActiveCalls.count_finish, balanced, opened]
  by_cases same : call.address.text = address
  · rw [if_pos ⟨same, isOpen⟩, if_pos same.symm, Nat.add_sub_cancel]
  · rw [if_neg fun both => same both.1, if_neg (Ne.symm same), Nat.add_zero, Nat.sub_zero]

end OneCall

theorem count_event (metrics : Metrics) (ticket : Ticket) (outcome : Except Fault Response) :
    (metrics.count (event outcome)).callsSucceeded
        = metrics.callsSucceeded + [(ticket, outcome)].countP isSuccess
      ∧ (metrics.count (event outcome)).callsFailed
        = metrics.callsFailed + [(ticket, outcome)].countP fun one => !isSuccess one := by
  cases outcome with
  | error fault => exact ⟨rfl, rfl⟩
  | ok response =>
      have told : isSuccess (ticket, .ok response) = response.isSuccess := rfl
      rw [event, List.countP_singleton, List.countP_singleton, told]
      cases response.isSuccess <;> exact ⟨rfl, rfl⟩

section Resolve

variable {call : Call} (found : client.call? call.ticket = some call)
  (outcome : Except Fault Response)

include found

theorem Sound.resolve (sound : client.Sound)
    (gone : ∀ entry ∈ client.pending.calls.entries, entry.2.ticket ≠ call.ticket) :
    (client.resolve call outcome).Sound := by
  have mem_calls := mem_calls_resolve sound.nodup found outcome
  refine ⟨?nodup, ?bounded, ?waits, sound.settled, sound.numbered⟩
  case nodup =>
    rw [((calls_resolve sound.nodup found outcome).map _).nodup_iff]
    exact ((List.perm_of_find? sound.nodup found).map _).nodup_iff.mp sound.nodup
  case bounded =>
    intro one mem
    rcases (mem_calls one).mp mem with rfl | ⟨old, -⟩
    · exact sound.bounded call (List.mem_of_find?_eq_some found)
    · exact sound.bounded one old
  case waits =>
    intro entry mem
    obtain ⟨one, old, ticket, id, isOpen⟩ := sound.waits entry mem
    have other : one.ticket ≠ call.ticket := by
      rw [ticket]
      exact gone entry mem
    exact ⟨one, (mem_calls one).mpr (.inr ⟨old, other⟩), ticket, id, isOpen⟩

theorem Tallied.resolve (sound : client.Sound) (tallied : client.Tallied fetched)
    (isOpen : call.isResolved = false) :
    (client.resolve call outcome).Tallied (fetched ++ [(call.ticket, outcome)]) := by
  have known : call ∈ client.calls := List.mem_of_find?_eq_some found
  have counted := count_event client.metrics call.ticket outcome
  refine ⟨?succeeded, ?failed, ?nodup, ?bounded, ?resolved⟩
  case succeeded =>
    rw [List.countP_append, ← tallied.succeeded]
    exact counted.1
  case failed =>
    rw [List.countP_append, ← tallied.failed]
    exact counted.2
  case nodup =>
    have new : call.ticket ∉ fetched.map (·.1) := by
      rw [← tallied.resolved call known, isOpen]
      exact nofun
    rw [List.map_append, List.map_singleton, ← List.concat_eq_append, List.nodup_concat]
    exact ⟨new, tallied.nodup⟩
  case bounded =>
    intro one mem
    rcases List.mem_append.mp mem with old | new
    · exact tallied.bounded one old
    · obtain rfl := List.mem_singleton.mp new
      exact sound.bounded call known
  case resolved =>
    intro one mem
    rw [List.map_append, List.mem_append, List.map_singleton, List.mem_singleton]
    rcases (mem_calls_resolve sound.nodup found outcome one).mp mem with rfl | ⟨old, other⟩
    · exact ⟨fun _ => .inr rfl, fun _ => rfl⟩
    · rw [tallied.resolved one old]
      exact ⟨.inl, fun either => either.resolve_right other⟩

/-- Fetching the outcome of an open call that has no entry any more. -/
theorem Accounts.resolve (accounts : Accounts fetched client) (isOpen : call.isResolved = false)
    (gone : ∀ entry ∈ client.pending.calls.entries, entry.2.ticket ≠ call.ticket) :
    Accounts (fetched ++ [(call.ticket, outcome)]) (client.resolve call outcome) := by
  obtain ⟨sound, tallied, balanced⟩ := accounts
  refine ⟨sound.resolve found outcome gone, tallied.resolve found outcome sound isOpen,
    fun address => ?_⟩
  refine (count_endActive sound.nodup found isOpen balanced address).trans ?_
  rw [openTo, (calls_resolve sound.nodup found outcome).countP_eq, List.countP_cons]
  simp

end Resolve

/-- Giving a call up that has no entry any more. -/
theorem Accounts.giveUp (accounts : Accounts fetched client) {call : Call}
    (found : client.call? call.ticket = some call)
    (gone : ∀ entry ∈ client.pending.calls.entries, entry.2.ticket ≠ call.ticket) :
    Accounts fetched
      { (if call.isResolved then client else client.endActive call.address) with
        calls := client.calls.filter fun other => other.ticket ≠ call.ticket } := by
  obtain ⟨sound, tallied, balanced⟩ := accounts
  let left : Client := { client with
    calls := client.calls.filter fun other => other.ticket ≠ call.ticket }
  have known {other : Call} (mem : other ∈ left.calls) : other ∈ client.calls :=
    (List.mem_filter.mp mem).1
  have leftSound : left.Sound := by
    refine ⟨sound.nodup.sublist (List.filter_sublist.map _),
      fun other mem => sound.bounded other (known mem), fun entry mem => ?_, sound.settled,
      sound.numbered⟩
    obtain ⟨other, old, ticket, rest⟩ := sound.waits entry mem
    refine ⟨other, List.mem_filter.mpr ⟨old, decide_eq_true ?_⟩, ticket, rest⟩
    rw [ticket]
    exact gone entry mem
  have leftTallied : left.Tallied fetched :=
    ⟨tallied.succeeded, tallied.failed, tallied.nodup, tallied.bounded,
      fun other mem => tallied.resolved other (known mem)⟩
  cases isOpen : call.isResolved with
  | true =>
      -- the call has left the number of active calls when its outcome was fetched
      refine ⟨leftSound, leftTallied, fun address => ?_⟩
      refine (balanced address).trans ((openTo_of_found sound.nodup found address).trans ?_)
      rw [if_neg fun both => Bool.noConfusion (both.2.symm.trans isOpen)]
      rfl
  | false =>
      have keeps := keeps_discovery left (client.endActive call.address).discovery
      exact ⟨leftSound.keep keeps, leftTallied.keep keeps,
        count_endActive sound.nodup found isOpen balanced⟩

/-! ## Calls that are withdrawn -/

theorem quiet_withdraw (client : Client) (call : Call) : Quiet client (client.withdraw call) :=
  client.quiet_settle (.remove call.requestId) rfl

/-- A call that is withdrawn has no entry any more. -/
theorem Sound.ticket_ne_of_withdraw (sound : client.Sound) {call : Call}
    (known : call ∈ client.calls) :
    ∀ entry ∈ (client.withdraw call).pending.calls.entries, entry.2.ticket ≠ call.ticket := by
  intro entry mem same
  have entries := client.pending.entries_perform (.remove call.requestId)
  obtain ⟨there, passes⟩ := List.mem_filter.mp (entries.mem_iff.mp mem)
  obtain ⟨other, known', ticket, id, -⟩ := sound.waits entry there
  obtain rfl := List.inj_on_of_nodup_map sound.nodup known' known (ticket.trans same)
  -- the entry of the call was found under its id, and nothing is there now
  simp [Pending.Operation.passes, Pending.Operation.settlement?, id] at passes

/-! ## What the callers do -/

theorem call?_ticket {ticket : Ticket} {call : Call} (found : client.call? ticket = some call) :
    call.ticket = ticket :=
  List.key_of_find? found

/-- A call that is settled has no entry any more. -/
theorem Sound.ticket_ne_of_settlement? (sound : client.Sound) {ticket : Ticket}
    {settlement : Settlement} (found : client.settlement? ticket = some settlement) :
    ∀ entry ∈ client.pending.calls.entries, entry.2.ticket ≠ ticket := by
  obtain ⟨later, earlier, all, -⟩ := List.lookup_eq_some_iff.mp found
  have mem : (ticket, settlement) ∈ client.settlements :=
    all ▸ List.mem_append_right later (.head earlier)
  exact (sound.settled _ mem).2

theorem Accounts.nothing (accounts : Accounts fetched client) : Accounts (fetched ++ []) client := by
  rw [List.append_nil]
  exact accounts

theorem Accounts.poll (accounts : Accounts fetched client) (ticket : Ticket) :
    Accounts (fetched ++ (client.poll ticket).1.toList.map (ticket, ·)) (client.poll ticket).2 := by
  rw [Client.poll]
  split
  · exact accounts.nothing
  · next call found =>
      obtain rfl := call?_ticket found
      split
      · exact accounts.nothing
      · next isOpen =>
          split
          · exact accounts.nothing
          · next settlement settled =>
              exact accounts.resolve found settlement.outcome (eq_false_of_ne_true isOpen)
                (accounts.sound.ticket_ne_of_settlement? settled)

theorem Accounts.expire (accounts : Accounts fetched client) (ticket : Ticket) :
    Accounts (fetched ++ (client.expire ticket).1.toList.map (ticket, ·))
      (client.expire ticket).2 := by
  rw [Client.expire]
  split
  · exact accounts.nothing
  · next call found =>
      obtain rfl := call?_ticket found
      split
      · exact accounts.nothing
      · next isOpen =>
          have isOpen : call.isResolved = false := eq_false_of_ne_true isOpen
          split
          · next settlement settled =>
              exact accounts.resolve found settlement.outcome isOpen
                (accounts.sound.ticket_ne_of_settlement? settled)
          · -- without a settlement, nothing but its entry is withdrawn
            have known : call ∈ client.calls := List.mem_of_find?_eq_some found
            have still : (client.withdraw call).call? call.ticket = some call := found
            exact (accounts.quiet (client.quiet_withdraw call)).resolve still
              (.error (.timeout call.requestId)) isOpen (accounts.sound.ticket_ne_of_withdraw known)

theorem Accounts.drop (accounts : Accounts fetched client) (ticket : Ticket) :
    Accounts fetched (client.drop ticket) := by
  rw [Client.drop]
  split
  · exact accounts
  · next call found =>
      obtain rfl := call?_ticket found
      have known : call ∈ client.calls := List.mem_of_find?_eq_some found
      have given := (accounts.quiet (client.quiet_withdraw call)).giveUp found
        (accounts.sound.ticket_ne_of_withdraw known)
      dsimp only
      cases isOpen : call.isResolved with
      | true | false =>
          rw [isOpen] at given
          exact given

/-! ## Sending -/

section Enter

variable (client) (address : SocketAddress) (channel : Channel) (request : Request)

/-- The table after a call was entered. -/
theorem entries_enter :
    (client.enter address channel request).2.pending.calls.entries.Perm
      ((request.id, ⟨client.pending.entered + 1, channel.id⟩)
        :: client.pending.calls.entries.filter
          (Pending.Operation.put request.id channel.id).passes) :=
  client.pending.entries_perform (.put request.id channel.id)

/-- What is settled when a call is entered: whatever waited under the id. -/
theorem settlements_enter :
    (client.enter address channel request).2.settlements
      = (client.pending.calls.entries.filterMap
          (Pending.Operation.put request.id channel.id).settles).reverse ++ client.settlements := by
  rw [← client.pending.settled_perform]
  rfl

variable {client}

/-- What is settled, before or by entering a call, was entered before and is not among what stays. -/
theorem Sound.settled_enter (sound : client.Sound) {settlement : Ticket × Settlement}
    (mem : settlement ∈ (client.enter address channel request).2.settlements) :
    settlement.1 ≤ client.pending.entered
      ∧ ∀ entry ∈ client.pending.calls.entries,
        (Pending.Operation.put request.id channel.id).passes entry = true →
          entry.2.ticket ≠ settlement.1 := by
  rw [settlements_enter, List.mem_append, List.mem_reverse, List.mem_filterMap] at mem
  rcases mem with ⟨entry, there, settles⟩ | earlier
  · obtain ⟨concerned, same⟩ := Pending.Operation.passes_of_settles settles
    refine ⟨same ▸ sound.ticket_le there, fun other there' passes again => ?_⟩
    -- the ticket tells the entry, and the operation does not pass this one
    obtain rfl := sound.entry_eq there' there (again.trans same.symm)
    exact absurd passes (ne_true_of_eq_false concerned)
  · obtain ⟨bounded, away⟩ := sound.settled settlement earlier
    exact ⟨bounded, fun entry there _ => away entry there⟩

/-- Entering a call: its ticket is new, and it replaces whatever waited under the id of its
request. -/
theorem Sound.enter (sound : client.Sound) : (client.enter address channel request).2.Sound := by
  have entries := client.entries_enter address channel request
  refine ⟨?nodup, ?bounded, ?waits, ?settled, sound.numbered⟩
  case nodup =>
    show ((client.calls ++ [_]).map _).Nodup
    rw [List.map_append, List.map_singleton, ← List.concat_eq_append, List.nodup_concat]
    refine ⟨fun mem => ?_, sound.nodup⟩
    obtain ⟨call, known, same⟩ := List.mem_map.mp mem
    exact Nat.not_succ_le_self _ (same ▸ sound.bounded call known)
  case bounded =>
    intro call mem
    rcases List.mem_append.mp mem with old | new
    · exact Nat.le_succ_of_le (sound.bounded call old)
    · obtain rfl := List.mem_singleton.mp new
      exact Nat.le_refl _
  case waits =>
    intro entry mem
    rcases List.mem_cons.mp (entries.mem_iff.mp mem) with rfl | old
    · exact ⟨_, List.mem_append_right _ (.head _), rfl, rfl, rfl⟩
    · obtain ⟨call, known, rest⟩ := sound.waits entry (List.mem_filter.mp old).1
      exact ⟨call, List.mem_append_left _ known, rest⟩
  case settled =>
    intro settlement mem
    have old := sound.settled_enter address channel request mem
    refine ⟨Nat.le_succ_of_le old.1, fun entry mem => ?_⟩
    rcases List.mem_cons.mp (entries.mem_iff.mp mem) with rfl | there
    · exact Nat.ne_of_gt (Nat.lt_succ_of_le old.1)
    · obtain ⟨there, passes⟩ := List.mem_filter.mp there
      exact old.2 entry there passes

theorem Tallied.enter (tallied : client.Tallied fetched) :
    (client.enter address channel request).2.Tallied fetched where
  succeeded := tallied.succeeded
  failed := tallied.failed
  nodup := tallied.nodup
  bounded one mem := Nat.le_succ_of_le (tallied.bounded one mem)
  resolved call mem := by
    rcases List.mem_append.mp mem with old | new
    · exact tallied.resolved call old
    · obtain rfl := List.mem_singleton.mp new
      refine ⟨nofun, fun again => ?_⟩
      obtain ⟨one, known, same⟩ := List.mem_map.mp again
      exact absurd (same ▸ tallied.bounded one known) (Nat.not_succ_le_self _)

theorem openTo_enter (other : String) :
    (client.enter address channel request).2.openTo other
      = client.openTo other + if other = address.text then 1 else 0 := by
  rw [openTo, openTo]
  show (client.calls ++ [_]).countP _ = _
  rw [List.countP_append, List.countP_singleton]
  simp [eq_comm]

end Enter

theorem quiet_endSend (client : Client) (network : Network) (outgoing : Outgoing) :
    Quiet client (client.endSend network outgoing).2 := by
  have released : Quiet client (client.release outgoing) :=
    { Quiet.refl client with outgoing := fun _ mem => (List.mem_filter.mp mem).1 }
  have sent : Quiet client (client.transmitRequest network outgoing).2 :=
    released.trans (quiet_transmit ..)
  rw [endSend]
  split
  · next frame after written =>
      rw [written] at sent
      exact sent
  · next fault after refused =>
      rw [refused] at sent
      have failed := sent.trans (quiet_fail after outgoing.request.id fault)
      dsimp only
      split
      · exact failed.trans (quiet_endChannel _ outgoing.channel.id)
      · exact failed

/-- A call that has begun and is abandoned has not changed the numbers of active calls. -/
theorem quiet_abandon {address : SocketAddress} (quiet : Quiet (before.beginActive address) after) :
    Quiet before (after.endActive address) where
  toKeeps := (before.keeps_discovery _).trans (quiet.toKeeps.trans (after.keeps_discovery _))
  active other := by
    show (after.discovery.active.finish address.text).count other = _
    rw [Balance.ActiveCalls.count_finish, quiet.active]
    show (before.discovery.active.start address.text).count other - _ = _
    rw [Balance.ActiveCalls.count_start, Nat.add_sub_cancel]

/-- Until a channel is there for a call, the other calls are kept. -/
theorem keeps_opening (client : Client) (network : Network) (store : Store Event)
    (numbers : List Nat) (request : Request) (address : SocketAddress) :
    Keeps client
      (((client.looked store numbers request).beginActive address).channelTo network address).2 :=
  (client.quiet_find store numbers request.serviceKey).toKeeps.trans
    ((keeps_discovery _ _).trans (quiet_channelTo _ network address).toKeeps)

/-- What comes of beginning to send: an error and nothing else, or a call that has begun is
entered. -/
theorem beginSend_cases (client : Client) (network : Network) (store : Store Event)
    (numbers : List Nat) (request : Request) :
    (∃ fault, (client.beginSend network store numbers request).1 = .error fault
        ∧ Quiet client (client.beginSend network store numbers request).2.1
        ∧ (client.Numbered →
          (client.beginSend network store numbers request).2.1.pending = client.pending))
      ∨ ∃ begun address channel, Keeps client begun
        ∧ (∀ other, begun.discovery.active.count other
          = client.discovery.active.count other + if other = address.text then 1 else 0)
        ∧ (client.beginSend network store numbers request).1
          = .ok (begun.enter address channel request).1
        ∧ (client.beginSend network store numbers request).2.1
          = (begun.enter address channel request).2 := by
  have quiet : Quiet client (client.looked store numbers request) :=
    client.quiet_find store numbers request.serviceKey
  have opened (address : SocketAddress) :=
    quiet_channelTo ((client.looked store numbers request).beginActive address) network address
  rcases client.beginSend_paths network store numbers request with
    ⟨fault, failed, same⟩ | ⟨address, ⟨fault, failed, same⟩ | ⟨channel, -, entered⟩⟩
  · rw [failed, same]
    exact .inl ⟨fault, rfl, quiet, fun _ => rfl⟩
  · rw [failed, same]
    exact .inl ⟨fault, rfl, quiet.trans (quiet_abandon (opened address)),
      fun numbered => pending_channelTo ((client.looked store numbers request).beginActive address)
        numbered network address⟩
  · refine .inr ⟨_, address, channel,
      client.keeps_opening network store numbers request address, fun other => ?_, entered⟩
    rw [(opened address).active, ← quiet.active]
    exact Balance.ActiveCalls.count_start ..

theorem Accounts.beginSend (accounts : Accounts fetched client) (network : Network)
    (store : Store Event) (numbers : List Nat) (request : Request) :
    Accounts fetched (client.beginSend network store numbers request).2.1 := by
  rcases client.beginSend_cases network store numbers request with
    ⟨-, -, quiet, -⟩ | ⟨begun, address, channel, keeps, active, -, same⟩
  · exact accounts.quiet quiet
  · rw [same]
    have sound := accounts.sound.keep keeps
    refine ⟨sound.enter address channel request,
      (accounts.tallied.keep keeps).enter address channel request, fun other => ?_⟩
    rw [openTo_enter, openTo, keeps.calls]
    exact (active other).trans (congrArg (· + _) (accounts.balanced other))

/-! ## Steps and runs -/

theorem Accounts.step (accounts : Accounts fetched client) (happening : Happening) :
    Accounts (fetched ++ (client.step happening).1) (client.step happening).2 := by
  cases happening with
  | begins network store numbers request =>
      exact (accounts.beginSend network store numbers request).nothing
  | writes network ticket =>
      rw [Client.step]
      split
      · exact (accounts.quiet (client.quiet_endSend network _)).nothing
      · exact accounts.nothing
  | receives channel bytes => exact (accounts.quiet (client.quiet_receive channel bytes)).nothing
  | ends channel => exact (accounts.quiet (client.quiet_endChannel channel)).nothing
  | beats network channel => exact (accounts.quiet (client.quiet_heartbeat network channel)).nothing
  | closes => exact (accounts.quiet client.quiet_close).nothing
  | closesAddress address => exact (accounts.quiet (client.quiet_closeAddress address)).nothing
  | learns event => exact (accounts.quiet (client.quiet_absorb event)).nothing
  | polls ticket => exact accounts.poll ticket
  | expires ticket => exact accounts.expire ticket
  | drops ticket => exact (accounts.drop ticket).nothing

theorem Accounts.run (accounts : Accounts fetched client) (happenings : List Happening) :
    Accounts (fetched ++ (client.run happenings).1) (client.run happenings).2 := by
  induction happenings generalizing fetched client with
  | nil => exact accounts.nothing
  | cons happening later ih =>
      have after := ih (accounts.step happening)
      rw [List.append_assoc] at after
      exact after

theorem accounts_idle (settings : Settings) (format : Envelope.Format)
    (compression : Compression.Method) (catalogue : Extension.Catalogue) :
    Accounts [] (idle settings format compression catalogue) where
  sound := ⟨List.nodup_nil, nofun, nofun, nofun, nofun⟩
  tallied := ⟨rfl, rfl, List.nodup_nil, nofun, nofun⟩
  balanced _ := rfl

/-- What the accounts of a client say, where some outcomes were fetched. -/
structure Balanced (fetched : Fetched) (client : Client) : Prop where
  /-- What waits belongs to exactly one call, which is open. -/
  belongs : ∀ id waiting, client.pending.calls.get? id = some waiting →
    ∃! call, call ∈ client.calls ∧ call.ticket = waiting.ticket ∧ call.requestId = id
      ∧ call.isResolved = false
  /-- Calls are told by their tickets. -/
  distinct : (client.calls.map (·.ticket)).Nodup
  /-- An address has as many active calls as there are open calls to it. -/
  active : ∀ address, client.discovery.active.count address = client.openTo address
  /-- A call has its outcome fetched once at most, and is open until then. -/
  once : (fetched.map (·.1)).Nodup
  resolved : ∀ call ∈ client.calls, call.isResolved = true ↔ call.ticket ∈ fetched.map (·.1)
  /-- Each fetched outcome was counted, as what it is. -/
  succeeded : client.metrics.callsSucceeded = fetched.countP isSuccess
  failed : client.metrics.callsFailed = fetched.countP fun one => !isSuccess one
  /-- Sending with success makes one open call. -/
  sends : ∀ network store numbers request ticket,
    (client.send network store numbers request).result = .ok ticket →
      ∃ address, (client.send network store numbers request).client.calls
        = client.calls ++ [⟨ticket, request.id, address, false⟩]
  /-- Sending without success leaves all accounts. -/
  refuses : ∀ network store numbers request fault,
    (client.send network store numbers request).result = .error fault →
      let after := (client.send network store numbers request).client
      after.pending = client.pending ∧ after.calls = client.calls
        ∧ (∀ address, after.discovery.active.count address = client.discovery.active.count address)
        ∧ after.metrics.callsSucceeded = client.metrics.callsSucceeded
        ∧ after.metrics.callsFailed = client.metrics.callsFailed
  /-- Without open calls nothing waits and no address has active calls. -/
  done : (∀ call ∈ client.calls, call.isResolved = true) →
    client.pending.size = 0 ∧ ∀ address, client.discovery.active.count address = 0

/-- Sending is to begin it and to end it at once. -/
theorem send_eq (client : Client) (network : Network) (store : Store Event) (numbers : List Nat)
    (request : Request) :
    let begun := client.beginSend network store numbers request
    let sending := client.send network store numbers request
    sending.result = begun.1.map (·.ticket)
      ∧ sending.client = match begun.1 with
        | .ok outgoing => (begun.2.1.endSend network outgoing).2
        | .error _ => begun.2.1 := by
  intro begun sending
  rw [show sending = client.send network store numbers request from rfl, send]
  dsimp only [begun]
  generalize client.beginSend network store numbers request = begun
  obtain ⟨_ | _, _, _⟩ := begun <;> exact ⟨rfl, rfl⟩

/-- Beginning to send with success. -/
theorem calls_beginSend {network : Network} {store : Store Event} {numbers : List Nat}
    {request : Request} {outgoing : Outgoing}
    (begun : (client.beginSend network store numbers request).1 = .ok outgoing) :
    ∃ address, (client.beginSend network store numbers request).2.1.calls
      = client.calls ++ [⟨outgoing.ticket, request.id, address, false⟩] := by
  rcases client.beginSend_cases network store numbers request with
    ⟨fault, failed, -⟩ | ⟨middle, address, channel, keeps, -, handed, same⟩
  · exact nomatch failed.symm.trans begun
  · obtain rfl := Except.ok.inj (handed.symm.trans begun)
    refine ⟨address, ?_⟩
    rw [same, ← keeps.calls]
    rfl

/-- Sending with success. -/
theorem calls_send {network : Network} {store : Store Event} {numbers : List Nat}
    {request : Request} {ticket : Ticket}
    (sent : (client.send network store numbers request).result = .ok ticket) :
    ∃ address, (client.send network store numbers request).client.calls
      = client.calls ++ [⟨ticket, request.id, address, false⟩] := by
  obtain ⟨result, after⟩ := client.send_eq network store numbers request
  rw [result] at sent
  rw [after]
  cases begun : (client.beginSend network store numbers request).1 with
  | error fault => rw [begun] at sent; cases sent
  | ok outgoing =>
      rw [begun] at sent
      obtain rfl := Except.ok.inj sent
      obtain ⟨address, calls⟩ := calls_beginSend begun
      exact ⟨address, (quiet_endSend _ network outgoing).calls.trans calls⟩

/-- Sending without success. -/
theorem quiet_send (numbered : client.Numbered) {network : Network} {store : Store Event}
    {numbers : List Nat} {request : Request} {fault : Fault}
    (refused : (client.send network store numbers request).result = .error fault) :
    Quiet client (client.send network store numbers request).client
      ∧ (client.send network store numbers request).client.pending = client.pending := by
  obtain ⟨result, after⟩ := client.send_eq network store numbers request
  rw [result] at refused
  rw [after]
  rcases client.beginSend_cases network store numbers request with
    ⟨_, failed, quiet, pending⟩ | ⟨middle, address, channel, -, -, handed, -⟩
  · rw [failed]
    exact ⟨quiet, pending numbered⟩
  · rw [handed] at refused
    cases refused

/-- **The accounts of a client are in order after every run.** -/
theorem run_balanced (settings : Settings) (format : Envelope.Format)
    (compression : Compression.Method) (catalogue : Extension.Catalogue)
    (happenings : List Happening) :
    let outcome := (idle settings format compression catalogue).run happenings
    Balanced outcome.1 outcome.2 := by
  intro outcome
  obtain ⟨sound, tallied, balanced⟩ : Accounts outcome.1 outcome.2 :=
    (accounts_idle settings format compression catalogue).run happenings
  generalize outcome.1 = fetched at *
  generalize outcome.2 = client at *
  refine
    { belongs := fun id waiting found => ?belongs
      distinct := sound.nodup
      active := balanced
      once := tallied.nodup
      resolved := tallied.resolved
      succeeded := tallied.succeeded
      failed := tallied.failed
      sends := fun _ _ _ _ _ sent => calls_send sent
      refuses := fun _ _ _ _ _ refused => ?refuses
      done := fun all => ⟨?size, fun address => ?active⟩ }
  case belongs =>
    obtain ⟨call, known, rest⟩ := sound.waits _ (Dictionary.get?_eq_some_iff.mp found)
    refine ⟨call, ⟨known, rest⟩, fun other ⟨known', ticket, _⟩ => ?_⟩
    exact List.inj_on_of_nodup_map sound.nodup known' known (ticket.trans rest.1.symm)
  case refuses =>
    obtain ⟨quiet, pending⟩ := quiet_send sound.numbered refused
    exact ⟨pending, quiet.calls, quiet.active, quiet.succeeded, quiet.failed⟩
  case size =>
    refine List.length_eq_zero_iff.mpr (List.eq_nil_iff_forall_not_mem.mpr fun entry mem => ?_)
    obtain ⟨call, known, -, -, isOpen⟩ := sound.waits entry mem
    exact nomatch isOpen.symm.trans (all call known)
  case active =>
    rw [balanced, openTo, List.countP_eq_zero]
    intro call known
    rw [all call known]
    simp

end RemoteCall.Client

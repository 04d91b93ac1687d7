import RemoteCall.Proofs.Client.Steps

/-! # No call is lost sight of

    A call that was not given up is settled, or it waits under the id of its
    request, and so is one whose request is on its way (`Placed`): beginning to
    send enters it there (`beginSend_waits`), and whatever removes its entry
    settles it.  What is settled stays so for the rest of a
    run, and the outcome that is fetched is the one of the settlement
    (`Accounts.fetched_run`). -/

namespace RemoteCall.Client

open Directory

variable {before after client : Client} {fetched : Fetched}

/-! ## Calls that are tracked -/

/-- A call that was entered under an id is settled, or waits there. -/
def Tracks (client : Client) (id : String) (ticket : Ticket) : Prop :=
  (∃ settlement, client.settlement? ticket = some settlement)
    ∨ ∃ waiting, (id, waiting) ∈ client.pending.calls.entries ∧ waiting.ticket = ticket

/-- The calls that were not given up, with the ids of their requests. -/
def held (client : Client) : List (Ticket × String) :=
  client.calls.map fun call => (call.ticket, call.requestId)

/-- The calls whose requests are on their way, with the ids of the requests. -/
def underway (client : Client) : List (Ticket × String) :=
  client.outgoing.map fun outgoing => (outgoing.ticket, outgoing.request.id)

/-- Every call is settled or waits under the id of its request. -/
def Placed (client : Client) : Prop :=
  ∀ call, call ∈ client.held ∨ call ∈ client.underway → client.Tracks call.2 call.1

theorem mem_held {call : Call} (known : call ∈ client.calls) :
    (call.ticket, call.requestId) ∈ client.held :=
  List.mem_map_of_mem (f := fun call : Call => (call.ticket, call.requestId)) known

theorem mem_underway {outgoing : Outgoing} (known : outgoing ∈ client.outgoing) :
    (outgoing.ticket, outgoing.request.id) ∈ client.underway :=
  List.mem_map_of_mem
    (f := fun outgoing : Outgoing => (outgoing.ticket, outgoing.request.id)) known

/-- What waits under the id of an unsettled call is the entry of that call. -/
theorem Placed.ticket_eq (placed : client.Placed) {call : Ticket × String}
    (known : call ∈ client.held ∨ call ∈ client.underway)
    (unsettled : client.settlement? call.1 = none) {entry : String × Waiting}
    (mem : entry ∈ client.pending.calls.entries) (same : entry.1 = call.2) :
    entry.2.ticket = call.1 := by
  rcases placed call known with ⟨settlement, settled⟩ | ⟨waiting, there, ticket⟩
  · cases unsettled.symm.trans settled
  · obtain ⟨id, other⟩ := entry
    obtain rfl : id = call.2 := same
    have one := (Dictionary.get?_eq_some_iff.mpr there).symm.trans
      (Dictionary.get?_eq_some_iff.mpr mem)
    exact (congrArg Waiting.ticket (Option.some.inj one)).symm.trans ticket

theorem Does.tracks {name : String → Prop} (does : Does name before after) (sound : before.Sound)
    {id : String} {ticket : Ticket} (tracked : before.Tracks id ticket) :
    after.Tracks id ticket := by
  obtain ⟨operations, follows, -⟩ := does
  rcases tracked with ⟨settlement, found⟩ | ⟨waiting, mem, rfl⟩
  · exact .inl ⟨settlement, follows.stays sound found⟩
  · cases decided : Pending.fate id waiting.channel operations with
    | none => exact .inr ⟨waiting, follows.kept mem decided, rfl⟩
    | some settlement => exact .inl ⟨settlement, follows.settles sound mem decided⟩

theorem held_resolve (call : Call) (outcome : Except Fault Response) :
    (client.resolve call outcome).held = client.held := by
  rw [held, resolve, List.map_map]
  refine List.map_congr_left fun one _ => ?_
  rw [Function.comp]
  split <;> rfl

theorem held_poll (client : Client) (ticket : Ticket) :
    (client.poll ticket).2.held = client.held := by
  rw [poll]
  split
  · rfl
  · split
    · rfl
    · split
      · rfl
      · exact held_resolve ..

theorem held_expire (client : Client) (ticket : Ticket) :
    (client.expire ticket).2.held = client.held := by
  rw [expire]
  split
  · rfl
  · split
    · rfl
    · split
      · exact held_resolve ..
      · exact held_resolve ..

theorem held_drop (client : Client) (ticket : Ticket) :
    (client.drop ticket).held = client.held.filter fun call => call.1 ≠ ticket := by
  rw [drop]
  split
  · next absent =>
      refine (List.filter_eq_self.mpr fun call mem => ?_).symm
      obtain ⟨one, known, rfl⟩ := List.mem_map.mp mem
      simpa using List.find?_eq_none.mp absent one known
  · dsimp only
    rw [held, held, List.filter_map]
    split <;> rfl

/-- A step leaves the calls, but for one that is entered or given up. -/
theorem held_step (client : Client) (happening : Happening) :
    (client.step happening).2.held
      = match happening with
        | .begins network store numbers request =>
          match (client.beginSend network store numbers request).1 with
          | .ok outgoing => client.held ++ [(outgoing.ticket, request.id)]
          | .error _ => client.held
        | .drops ticket => client.held.filter fun call => call.1 ≠ ticket
        | _ => client.held := by
  have quiet {after : Client} (quiet : Quiet client after) : after.held = client.held := by
    rw [held, quiet.calls, held]
  cases happening with
  | begins network store numbers request =>
      dsimp only [step]
      cases begun : (client.beginSend network store numbers request).1 with
      | ok outgoing =>
          obtain ⟨address, calls⟩ := calls_beginSend begun
          rw [held, calls, List.map_append]
          rfl
      | error fault =>
          rcases client.beginSend_cases network store numbers request with
            ⟨-, -, same, -⟩ | ⟨middle, address, channel, -, -, handed, -⟩
          · exact quiet same
          · cases begun.symm.trans handed
  | writes network ticket =>
      rw [step]
      split
      · exact quiet (client.quiet_endSend network _)
      · rfl
  | receives channel bytes => exact quiet (client.quiet_receive channel bytes)
  | ends channel => exact quiet (client.quiet_endChannel channel)
  | beats network channel => exact quiet (client.quiet_heartbeat network channel)
  | closes => exact quiet client.quiet_close
  | closesAddress address => exact quiet (client.quiet_closeAddress address)
  | learns event => exact quiet (client.quiet_absorb event)
  | polls ticket => exact client.held_poll ticket
  | expires ticket => exact client.held_expire ticket
  | drops ticket => exact client.held_drop ticket

/-- A call that is held after a step was held before, or it was entered. -/
theorem mem_held_of_step {happening : Happening} {call : Ticket × String}
    (mem : call ∈ (client.step happening).2.held) :
    call ∈ client.held ∨ ∃ network store numbers request outgoing,
      happening = .begins network store numbers request ∧ call = (outgoing.ticket, request.id)
        ∧ (client.beginSend network store numbers request).1 = .ok outgoing := by
  rw [held_step] at mem
  cases happening with
  | begins network store numbers request =>
      dsimp only at mem
      split at mem
      · next outgoing begun =>
          rcases List.mem_append.mp mem with old | new
          · exact .inl old
          · exact .inr ⟨network, store, numbers, request, outgoing, rfl,
              List.mem_singleton.mp new, begun⟩
      · exact .inl mem
  | drops ticket => exact .inl (List.mem_filter.mp mem).1
  | _ => exact .inl mem

/-- A request that is on its way after a step was so before, or its call was entered. -/
theorem mem_outgoing_of_step {happening : Happening} {outgoing : Outgoing}
    (mem : outgoing ∈ (client.step happening).2.outgoing) :
    outgoing ∈ client.outgoing ∨ ∃ network store numbers request,
      happening = .begins network store numbers request ∧ outgoing.request = request
        ∧ (client.beginSend network store numbers request).1 = .ok outgoing := by
  cases happening with
  | begins network store numbers request =>
      dsimp only [step] at mem
      rcases client.beginSend_cases network store numbers request with
        ⟨-, -, quiet, -⟩ | ⟨middle, address, channel, keeps, -, handed, same⟩
      · exact .inl (quiet.outgoing outgoing mem)
      · rw [same] at mem
        rcases List.mem_append.mp mem with old | new
        · exact .inl (keeps.outgoing outgoing old)
        · obtain rfl := List.mem_singleton.mp new
          exact .inr ⟨network, store, numbers, request, rfl, rfl, handed⟩
  | writes network ticket =>
      rw [step] at mem
      split at mem
      · exact .inl ((client.quiet_endSend network _).outgoing outgoing mem)
      · exact .inl mem
  | receives channel bytes => exact .inl ((client.quiet_receive channel bytes).outgoing outgoing mem)
  | ends channel => exact .inl ((client.quiet_endChannel channel).outgoing outgoing mem)
  | beats network channel =>
      exact .inl ((client.quiet_heartbeat network channel).outgoing outgoing mem)
  | closes => exact .inl (client.quiet_close.outgoing outgoing mem)
  | closesAddress address =>
      exact .inl ((client.quiet_closeAddress address).outgoing outgoing mem)
  | learns event => exact .inl mem
  | polls ticket =>
      rw [step, poll] at mem
      split at mem
      · exact .inl mem
      · split at mem
        · exact .inl mem
        · split at mem <;> exact .inl mem
  | expires ticket =>
      rw [step, expire] at mem
      split at mem
      · exact .inl mem
      · split at mem
        · exact .inl mem
        · split at mem <;> exact .inl mem
  | drops ticket =>
      rw [step, drop] at mem
      split at mem
      · exact .inl mem
      · dsimp only at mem
        split at mem <;> exact .inl mem

/-- A call is held until it is given up. -/
theorem mem_held_step {call : Ticket × String} (known : call ∈ client.held)
    {happening : Happening} (kept : happening ≠ .drops call.1) :
    call ∈ (client.step happening).2.held := by
  rw [held_step]
  cases happening with
  | begins network store numbers request =>
      dsimp only
      split
      · exact List.mem_append_left _ known
      · exact known
  | drops ticket =>
      exact List.mem_filter.mpr ⟨known, decide_eq_true fun same => kept (congrArg _ same.symm)⟩
  | _ => exact known

theorem held_run {call : Ticket × String} (known : call ∈ client.held)
    {happenings : List Happening} (kept : .drops call.1 ∉ happenings) :
    call ∈ (client.run happenings).2.held := by
  induction happenings generalizing client with
  | nil => exact known
  | cons happening later ih =>
      obtain ⟨first, kept⟩ := List.ne_and_not_mem_of_not_mem_cons kept
      exact ih (mem_held_step known first.symm) kept

/-! ## Sending -/

theorem opened_withPool (client : Client) (pool : ChannelPool) (ids : List ChannelId) :
    (client.withPool (pool.closeThese ids)).opened = client.opened :=
  (carries_endAll { client with pool := (pool.closeThese ids).2 } _).2.2

theorem Numbered.id_le_opened_of_get (numbered : client.Numbered) {address : SocketAddress}
    {channel : Channel} (found : (client.pool.get address).1 = some channel) :
    channel.id ≤ client.opened := by
  rw [ChannelPool.get] at found
  cases there : (client.pool.idFor address).bind client.pool.channel? with
  | none => rw [there] at found; cases found
  | some other =>
      rw [there] at found
      dsimp only at found
      split at found
      · obtain rfl := Option.some.inj found
        obtain ⟨id, used, known⟩ := Option.bind_eq_some_iff.mp there
        obtain ⟨first, last, inUse, -⟩ := List.lookup_eq_some_iff.mp used
        have mem : (address, id) ∈ client.pool.inUse :=
          inUse ▸ List.mem_append_right first (.head last)
        exact (List.key_of_find? known : other.id = id) ▸ numbered _ mem
      · cases found

section Sending

variable (client) (network : Network) (store : Store Event) (numbers : List Nat) (request : Request)

theorem id_le_opened_of_connect {address : SocketAddress} {channel : Channel}
    (got : (client.connect network address).1 = .ok channel) :
    channel.id ≤ (client.connect network address).2.opened := by
  rw [connect] at got ⊢
  cases reached : network.dial address with
  | refused detail => rw [reached] at got; cases got
  | timedOut => rw [reached] at got; cases got
  | connected =>
      rw [reached] at got
      obtain rfl := Except.ok.inj got
      dsimp only
      rw [ChannelPool.set, opened_withPool]
      exact Nat.le_refl _

/-- A channel that is found or opened was opened. -/
theorem id_le_opened_of_channelTo (numbered : client.Numbered) {address : SocketAddress}
    {channel : Channel} (got : (client.channelTo network address).1 = .ok channel) :
    channel.id ≤ (client.channelTo network address).2.opened := by
  rw [channelTo] at got ⊢
  dsimp only at got ⊢
  cases found : (client.pool.get address).1 with
  | some other =>
      rw [found] at got
      obtain rfl := Except.ok.inj got
      exact numbered.id_le_opened_of_get found
  | none =>
      rw [found] at got
      exact id_le_opened_of_connect _ network got

/-- A call that is entered waits under the id of its request. -/
theorem beginSend_waits (sound : client.Sound) {outgoing : Outgoing}
    (begun : (client.beginSend network store numbers request).1 = .ok outgoing) :
    (request.id, ⟨outgoing.ticket, outgoing.channel.id⟩)
        ∈ (client.beginSend network store numbers request).2.1.pending.calls.entries
      ∧ outgoing.channel.id
        ≤ (client.beginSend network store numbers request).2.1.opened := by
  rcases client.beginSend_paths network store numbers request with
    ⟨fault, failed, -⟩ | ⟨address, ⟨fault, failed, -⟩ | ⟨way, got, handed, same⟩⟩
  · cases failed.symm.trans begun
  · cases failed.symm.trans begun
  · have numbered : ((client.looked store numbers request).beginActive address).Numbered :=
      sound.numbered
    have known := id_le_opened_of_channelTo _ network numbered got
    obtain rfl := Except.ok.inj (handed.symm.trans begun)
    rw [same]
    exact ⟨(entries_enter _ address way request).mem_iff.mpr (.head _), known⟩

end Sending

/-! ## Runs -/

theorem Accounts.placed_step (accounts : Accounts fetched client) (placed : client.Placed)
    (happening : Happening) : (client.step happening).2.Placed := by
  have entered {network : Network} {store : Store Event} {numbers : List Nat} {request : Request}
      {outgoing : Outgoing}
      (begun : (client.beginSend network store numbers request).1 = .ok outgoing) :
      (client.step (.begins network store numbers request)).2.Tracks request.id outgoing.ticket :=
    .inr ⟨_, (client.beginSend_waits network store numbers request accounts.sound begun).1, rfl⟩
  have kept {id : String} {ticket : Ticket} (tracked : client.Tracks id ticket) :
      (client.step happening).2.Tracks id ticket :=
    (client.does_step happening).tracks accounts.sound tracked
  rintro call (mem | mem)
  · rcases mem_held_of_step mem with
      old | ⟨network, store, numbers, request, outgoing, rfl, rfl, begun⟩
    · exact kept (placed call (.inl old))
    · exact entered begun
  · obtain ⟨outgoing, there, rfl⟩ := List.mem_map.mp mem
    rcases mem_outgoing_of_step there with
      old | ⟨network, store, numbers, request, rfl, rfl, begun⟩
    · exact kept (placed _ (.inr (mem_underway old)))
    · exact entered begun

theorem Accounts.placed_run (accounts : Accounts fetched client) (placed : client.Placed)
    (happenings : List Happening) : (client.run happenings).2.Placed := by
  induction happenings generalizing fetched client with
  | nil => exact placed
  | cons happening later ih =>
      exact ih (accounts.step happening) (accounts.placed_step placed happening)

/-- What is settled stays settled. -/
theorem Accounts.stays_run (accounts : Accounts fetched client) {ticket : Ticket}
    {settlement : Settlement} (found : client.settlement? ticket = some settlement)
    (happenings : List Happening) :
    (client.run happenings).2.settlement? ticket = some settlement := by
  induction happenings generalizing fetched client with
  | nil => exact found
  | cons happening later ih =>
      obtain ⟨operations, follows, -⟩ := client.does_step happening
      exact ih (accounts.step happening) (follows.stays accounts.sound found)

/-- A channel that is active after a run was active before. -/
theorem isActive_of_run {channel : ChannelId} (known : channel ≤ client.opened)
    {happenings : List Happening}
    (isActive : (client.run happenings).2.pool.isActive channel = true) :
    client.pool.isActive channel = true := by
  induction happenings generalizing client with
  | nil => exact isActive
  | cons happening later ih =>
      obtain ⟨operations, follows, -⟩ := client.does_step happening
      exact (follows.active channel known (ih (Nat.le_trans known follows.opened) isActive)).1

theorem run_append (client : Client) (happenings later : List Happening) :
    client.run (happenings ++ later)
      = ((client.run happenings).1 ++ ((client.run happenings).2.run later).1,
          ((client.run happenings).2.run later).2) := by
  induction happenings generalizing client with
  | nil => rfl
  | cons happening happenings ih =>
      simp only [List.cons_append, run, ih, List.append_assoc]

/-! ## Outcomes -/

/-- An outcome that is fetched is that of the settlement, unless the time is over without one. -/
theorem fetched_step {happening : Happening} {one : Ticket × Except Fault Response}
    (mem : one ∈ (client.step happening).1) :
    (∃ settlement, client.settlement? one.1 = some settlement ∧ one.2 = settlement.outcome)
      ∨ happening = .expires one.1 ∧ client.settlement? one.1 = none := by
  cases happening with
  | writes network ticket =>
      rw [step] at mem
      split at mem <;> exact absurd mem List.not_mem_nil
  | polls ticket =>
      dsimp only [step] at mem
      rw [poll] at mem
      split at mem
      · exact absurd mem List.not_mem_nil
      · split at mem
        · exact absurd mem List.not_mem_nil
        · split at mem
          · exact absurd mem List.not_mem_nil
          · next settlement settled =>
              obtain rfl := List.mem_singleton.mp mem
              exact .inl ⟨settlement, settled, rfl⟩
  | expires ticket =>
      dsimp only [step] at mem
      rw [expire] at mem
      split at mem
      · exact absurd mem List.not_mem_nil
      · split at mem
        · exact absurd mem List.not_mem_nil
        · split at mem
          · next settlement settled =>
              obtain rfl := List.mem_singleton.mp mem
              exact .inl ⟨settlement, settled, rfl⟩
          · next unsettled =>
              obtain rfl := List.mem_singleton.mp mem
              exact .inr ⟨rfl, unsettled⟩
  | _ => exact absurd mem List.not_mem_nil

/-- Unless its time was over before it was settled, a call has the outcome of its settlement. -/
theorem Accounts.fetched_run (accounts : Accounts fetched client)
    {one : Ticket × Except Fault Response} {happenings : List Happening}
    (mem : one ∈ (client.run happenings).1)
    (inTime : .expires one.1 ∉ happenings
      ∨ ∃ settlement, client.settlement? one.1 = some settlement) :
    ∃ settlement, (client.run happenings).2.settlement? one.1 = some settlement
      ∧ one.2 = settlement.outcome := by
  induction happenings generalizing fetched client with
  | nil => exact absurd mem List.not_mem_nil
  | cons happening later ih =>
      rcases List.mem_append.mp mem with now | after
      · rcases fetched_step now with ⟨settlement, settled, same⟩ | ⟨rfl, unsettled⟩
        · exact ⟨settlement, accounts.stays_run settled (happening :: later), same⟩
        · rcases inTime with never | ⟨settlement, settled⟩
          · exact absurd (.head _) never
          · cases unsettled.symm.trans settled
      · refine ih (accounts.step happening) after (inTime.imp ?_ ?_)
        · exact fun never mem => never (.tail _ mem)
        · exact fun ⟨settlement, settled⟩ => ⟨settlement, accounts.stays_run settled [happening]⟩

/-- A call that is settled in time keeps its settlement, and comes to no other outcome. -/
theorem Accounts.run_of_settled (accounts : Accounts fetched client) {ticket : Ticket}
    {happenings : List Happening} {settlement : Settlement} (inTime : .expires ticket ∉ happenings)
    (settled : (client.run happenings).2.settlement? ticket = some settlement)
    (later : List Happening) :
    let outcome := client.run (happenings ++ later)
    outcome.2.settlement? ticket = some settlement
      ∧ ∀ one ∈ outcome.1, one.1 = ticket → one.2 = settlement.outcome := by
  intro outcome
  have parts : outcome = _ := client.run_append happenings later
  have between := accounts.run happenings
  have stays : outcome.2.settlement? ticket = some settlement := by
    rw [parts]
    exact between.stays_run settled later
  refine ⟨stays, ?_⟩
  rintro one came rfl
  have own : ∃ settlement, outcome.2.settlement? one.1 = some settlement
      ∧ one.2 = settlement.outcome := by
    rw [parts] at came ⊢
    rcases List.mem_append.mp came with early | late
    · obtain ⟨settlement, found, same⟩ := accounts.fetched_run early (.inl inTime)
      exact ⟨settlement, between.stays_run found later, same⟩
    · exact between.fetched_run late (.inr ⟨settlement, settled⟩)
  obtain ⟨other, found, same⟩ := own
  obtain rfl := Option.some.inj (found.symm.trans stays)
  exact same

theorem Sound.call?_of_mem (sound : client.Sound) {call : Call} (known : call ∈ client.calls) :
    client.call? call.ticket = some call := by
  cases found : client.call? call.ticket with
  | none => exact absurd (decide_eq_true rfl) (List.find?_eq_none.mp found call known)
  | some other =>
      exact congrArg some (List.inj_on_of_nodup_map sound.nodup (List.mem_of_find?_eq_some found)
        known (call?_ticket found))

/-- A call that is settled and was not given up has its outcome fetched, or it is there now. -/
theorem Accounts.fetched_or_poll (accounts : Accounts fetched client) {call : Ticket × String}
    (known : call ∈ client.held) {settlement : Settlement}
    (settled : client.settlement? call.1 = some settlement) :
    call.1 ∈ fetched.map (·.1) ∨ (client.poll call.1).1 = some settlement.outcome := by
  obtain ⟨one, mem, rfl⟩ := List.mem_map.mp known
  cases isOpen : one.isResolved with
  | true => exact .inl ((accounts.tallied.resolved one mem).mp isOpen)
  | false =>
      right
      rw [Client.poll, accounts.sound.call?_of_mem mem]
      dsimp only
      rw [isOpen, settled]
      rfl

end RemoteCall.Client

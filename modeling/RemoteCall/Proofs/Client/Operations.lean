import RemoteCall.Client.Calls
import RemoteCall.Client.Reading
import RemoteCall.Proofs.Client.Settlements
import RemoteCall.Proofs.Lists

/-! # What a client does to its table, as operations

    Whatever happens to a client, its table of pending calls goes through some
    operations, and what these settle is added to the settlements (`Carries`).
    So it is told by the operations alone what becomes of an entry.

    Channels only ever end: one that is active afterwards was active before, and
    the operations do not fail its calls (`Follows`).  Both compose, so each
    step of a client is traced back to a single operation (`follows_settle`), a
    change of the pool that ends no channel (`follows_pool`), and the end of
    some channels (`follows_closeThese`). -/

namespace RemoteCall

/-! ## Operations one after another -/

namespace Pending

theorem run_append (pending : Pending) (operations more : List Operation) :
    run pending (operations ++ more)
      = ((run pending operations).1 ++ (run (run pending operations).2.2 more).1,
          (run pending operations).2.1 ++ (run (run pending operations).2.2 more).2.1,
          (run (run pending operations).2.2 more).2.2) := by
  induction operations generalizing pending with
  | nil => rfl
  | cons operation operations ih =>
      simp only [List.cons_append, run, ih, List.append_assoc]

/-- Operations that enter no call. -/
def EnterNothing (operations : List Operation) : Prop :=
  ∀ operation ∈ operations, ∀ before, operation.entered before = []

/-- No life begins in operations that enter no call. -/
theorem EnterNothing.lives_eq_nil {operations : List Operation} (nothing : EnterNothing operations)
    (before : Nat) : lives before operations = [] := by
  induction operations generalizing before with
  | nil => rfl
  | cons operation later ih =>
      rw [lives, nothing operation (.head _) before]
      exact ih (fun operation mem => nothing operation (.tail _ mem)) before

theorem EnterNothing.entered_run {operations : List Operation} (nothing : EnterNothing operations)
    (pending : Pending) : (run pending operations).2.2.entered = pending.entered := by
  induction operations generalizing pending with
  | nil => rfl
  | cons operation later ih =>
      have counted := (pending.tickets_perform operation).2
      rw [nothing operation (.head _) pending.entered] at counted
      exact (ih (fun operation mem => nothing operation (.tail _ mem)) _).trans counted

/-- Tickets are handed out after those that were handed out before. -/
theorem lt_of_mem_lives {before : Nat} {operations : List Operation} {life : Life}
    (mem : life ∈ lives before operations) : before < life.waiting.ticket := by
  have ticket := List.mem_map_of_mem (f := (·.waiting.ticket)) mem
  rw [tickets_lives, List.mem_range'] at ticket
  obtain ⟨index, -, ticket⟩ := ticket
  omega

end Pending

/-! ## Channels of a pool -/

namespace ChannelPool

variable (pool : ChannelPool)

theorem channel?_update (id other : ChannelId) {change : Channel → Channel}
    (same : ∀ c, (change c).id = c.id) :
    (pool.update id change).channel? other
      = (pool.channel? other).map fun c => if c.id = id then change c else c := by
  have ids : (fun c : Channel => decide (c.id = other))
        ∘ (fun c => if c.id = id then change c else c)
      = fun c => decide (c.id = other) := by
    funext c
    simp only [Function.comp]
    split
    · rw [same]
    · rfl
  rw [channel?, update, List.find?_map, ids, channel?]

/-- A change that leaves alone whether a channel is active. -/
theorem isActive_update (id other : ChannelId) {change : Channel → Channel}
    (same : ∀ c, (change c).id = c.id ∧ (change c).isActive = c.isActive) :
    (pool.update id change).isActive other = pool.isActive other := by
  rw [isActive, channel?_update pool id other fun c => (same c).1, isActive]
  cases pool.channel? other with
  | none => rfl
  | some c =>
      rw [Option.map_some, Option.any_some, Option.any_some]
      split
      · exact (same c).2
      · rfl

/-- Channels that are closed become inactive; the others stay as they are. -/
theorem channel?_closeThese (ids : List ChannelId) (other : ChannelId) :
    (pool.closeThese ids).2.channel? other
      = (pool.channel? other).map fun c => if other ∈ ids then c.deactivate else c := by
  rw [closeThese]
  induction ids generalizing pool with
  | nil => simp
  | cons id ids ih =>
      have kept : ∀ c : Channel, c.deactivate.id = c.id := fun _ => rfl
      rw [List.foldl_cons, ih, channel?_update pool id other kept, Option.map_map]
      refine Option.map_congr fun c found => ?_
      obtain rfl : c.id = other := List.key_of_find? found
      simp only [Function.comp, List.mem_cons]
      by_cases first : c.id = id
      · rw [if_pos first, if_pos (Or.inl first)]
        split <;> rfl
      · rw [if_neg first]
        simp [first]

theorem isActive_closeThese (ids : List ChannelId) (other : ChannelId) :
    (pool.closeThese ids).2.isActive other = true ↔ pool.isActive other = true ∧ other ∉ ids := by
  rw [isActive, channel?_closeThese, isActive]
  cases pool.channel? other with
  | none => simp
  | some c =>
      by_cases mem : other ∈ ids
      · simp [mem, Channel.deactivate]
      · simp [mem]

theorem channels_get (address : SocketAddress) : (pool.get address).2.channels = pool.channels := by
  rw [get]
  split
  · rfl
  · split <;> rfl

/-- A channel that is active after another one was put in was active before. -/
theorem isActive_push {channel : Channel} {inUse : List (SocketAddress × ChannelId)}
    {other : ChannelId} (apart : other ≠ channel.id) :
    isActive ⟨if (pool.channel? channel.id).isSome then pool.channels
      else channel :: pool.channels, inUse⟩ other = pool.isActive other := by
  refine congrArg (Option.any Channel.isActive) ?_
  rw [channel?, channel?]
  dsimp only
  split
  · rfl
  · exact List.find?_cons_of_neg (by simpa using apart.symm)

end ChannelPool

namespace Client

open Directory

variable {before middle after : Client} {operations more : List Pending.Operation}

/-! ## Operations of a client -/

/-- To the table and the settlements, what happened to a client is some operations. -/
structure Carries (before : Client) (operations : List Pending.Operation) (after : Client) :
    Prop where
  pending : after.pending = (Pending.run before.pending operations).2.2
  settlements :
    after.settlements = (Pending.run before.pending operations).2.1.reverse ++ before.settlements

/-- Operations that enter no call leave the entries that they do not concern. -/
theorem Carries.table (carries : Carries before operations after)
    (nothing : Pending.EnterNothing operations) :
    after.pending = ⟨before.pending.calls.filter fun request waiting =>
      (Pending.fate request waiting.channel operations).isNone, before.pending.entered⟩ := by
  have entries := Pending.entries_run before.pending operations
  have kept (entry : String × Waiting) : (Pending.lifeOf operations entry).kept?
      = if Pending.fate entry.1 entry.2.channel operations = none then some entry else none := rfl
  rw [Pending.allLives, nothing.lives_eq_nil, List.append_nil, ← carries.pending] at entries
  have calls : after.pending.calls = before.pending.calls.filter fun request waiting =>
      (Pending.fate request waiting.channel operations).isNone := by
    refine Dictionary.ext_get? fun request => Option.ext fun waiting => ?_
    rw [Dictionary.get?_filter, Option.filter_eq_some_iff, Dictionary.get?_eq_some_iff,
      Dictionary.get?_eq_some_iff, entries.mem_iff, List.filterMap_map, List.mem_filterMap]
    simp [kept, Option.ite_none_right_eq_some]
  have entered : after.pending.entered = before.pending.entered := by
    rw [carries.pending]
    exact nothing.entered_run before.pending
  rw [← calls, ← entered]

/-- Operations that enter no call settle the entries that they concern. -/
theorem Carries.settled (carries : Carries before operations after)
    (nothing : Pending.EnterNothing operations) :
    ∃ settled, after.settlements = settled ++ before.settlements
      ∧ settled.Perm (before.pending.calls.entries.filterMap fun entry =>
        (Pending.fate entry.1 entry.2.channel operations).map (entry.2.ticket, ·)) := by
  have settled := Pending.settled_run before.pending operations
  rw [Pending.allLives, nothing.lives_eq_nil, List.append_nil, List.filterMap_map] at settled
  exact ⟨_, carries.settlements, (List.reverse_perm _).trans settled⟩

/-- What happened is some operations, and channels have only ended, these with their calls. -/
structure Follows (before : Client) (operations : List Pending.Operation) (after : Client) : Prop
    extends Carries before operations after where
  opened : before.opened ≤ after.opened
  active : ∀ channel, channel ≤ before.opened → after.pool.isActive channel = true →
    before.pool.isActive channel = true ∧ .failAll channel ∉ operations

theorem Carries.trans (first : Carries before operations middle)
    (second : Carries middle more after) :
    Carries before (operations ++ more) after where
  pending := by rw [second.pending, first.pending, Pending.run_append]
  settlements := by
    rw [second.settlements, first.settlements, first.pending, Pending.run_append]
    simp only [List.reverse_append, List.append_assoc]

theorem Follows.trans (first : Follows before operations middle)
    (second : Follows middle more after) :
    Follows before (operations ++ more) after where
  toCarries := first.toCarries.trans second.toCarries
  opened := Nat.le_trans first.opened second.opened
  active channel known isActive := by
    obtain ⟨between, later⟩ := second.active channel (Nat.le_trans known first.opened) isActive
    obtain ⟨early, earlier⟩ := first.active channel known between
    exact ⟨early, fun mem => (List.mem_append.mp mem).elim earlier later⟩

/-- Nothing happened to the table, and no channel became active. -/
theorem follows_nothing (pending : after.pending = before.pending)
    (settlements : after.settlements = before.settlements) (opened : before.opened ≤ after.opened)
    (active : ∀ channel, channel ≤ before.opened → after.pool.isActive channel = true →
      before.pool.isActive channel = true) : Follows before [] after where
  pending := pending
  settlements := settlements
  opened := opened
  active channel known isActive := ⟨active channel known isActive, List.not_mem_nil⟩

variable (client : Client)

theorem follows_refl : Follows client [] client :=
  follows_nothing rfl rfl (Nat.le_refl _) fun _ _ isActive => isActive

theorem carries_settle (operation : Pending.Operation) :
    Carries client [operation] (client.settle (client.pending.perform operation).2.1
      (client.pending.perform operation).2.2) where
  pending := rfl
  settlements := by
    simp only [Pending.run, List.append_nil]
    rfl

/-- A single operation that fails no channel. -/
theorem follows_settle (operation : Pending.Operation)
    (other : ∀ channel, operation ≠ .failAll channel) :
    Follows client [operation] (client.settle (client.pending.perform operation).2.1
      (client.pending.perform operation).2.2) where
  toCarries := client.carries_settle operation
  opened := Nat.le_refl _
  active channel _ isActive :=
    ⟨isActive, fun mem => other channel (List.mem_singleton.mp mem).symm⟩

/-- Another pool in which no channel is active that was not. -/
theorem follows_pool {pool : ChannelPool}
    (active : ∀ channel, pool.isActive channel = true → client.pool.isActive channel = true) :
    Follows client [] { client with pool := pool } :=
  follows_nothing rfl rfl (Nat.le_refl _) fun channel _ => active channel

theorem follows_update (id : ChannelId) {change : Channel → Channel}
    (same : ∀ c, (change c).id = c.id ∧ (change c).isActive = c.isActive) :
    Follows client [] { client with pool := client.pool.update id change } :=
  client.follows_pool fun other isActive =>
    (client.pool.isActive_update id other same).symm.trans isActive

theorem follows_count (event : Metrics.Event) : Follows client [] (client.count event) :=
  follows_nothing rfl rfl (Nat.le_refl _) fun _ _ isActive => isActive

/-! ## Channels that end -/

/-- The calls of some channels fail. -/
def endings (ids : List ChannelId) : List Pending.Operation :=
  ids.map .failAll

theorem carries_endAll (ids : List ChannelId) :
    Carries client (endings ids) (ids.foldl endReading client)
      ∧ (ids.foldl endReading client).pool = client.pool
      ∧ (ids.foldl endReading client).opened = client.opened := by
  induction ids generalizing client with
  | nil => exact ⟨(follows_refl client).toCarries, rfl, rfl⟩
  | cons id ids ih =>
      obtain ⟨later, pool, opened⟩ := ih (client.endReading id)
      have first : Carries client [.failAll id] (client.endReading id) :=
        (client.carries_settle (.failAll id)).trans (follows_count _ _).toCarries
      exact ⟨first.trans later, pool, opened⟩

/-- Channels of a pool are closed, in which no channel of before is active that was not then. -/
theorem follows_closeThese {client : Client} {pool : ChannelPool} (ids : List ChannelId)
    (follows : Follows before [] client)
    (active : ∀ channel, channel ≤ before.opened → pool.isActive channel = true →
      before.pool.isActive channel = true) :
    Follows before (endings (ids.filter pool.isActive))
      (client.withPool (pool.closeThese ids)) := by
  obtain ⟨carries, same, opened⟩ :=
    carries_endAll { client with pool := (pool.closeThese ids).2 } (ids.filter pool.isActive)
  refine ⟨follows.toCarries.trans ⟨carries.pending, carries.settlements⟩,
    Nat.le_trans follows.opened (Nat.le_of_eq opened.symm), fun channel known isActive => ?_⟩
  have same : (client.withPool (pool.closeThese ids)).pool = (pool.closeThese ids).2 := same
  rw [same, ChannelPool.isActive_closeThese] at isActive
  refine ⟨active channel known isActive.1, fun mem => isActive.2 ?_⟩
  obtain ⟨id, ends, named⟩ := List.mem_map.mp mem
  obtain rfl := Pending.Operation.failAll.inj named
  exact (List.mem_filter.mp ends).1

/-! ## What each step does -/

/-- Whether an operation takes calls along with their channel or is about an id that is named. -/
def Names (name : String → Prop) : Pending.Operation → Prop
  | .put id _ => name id
  | .complete response => name response.requestId
  | .fail id _ => name id
  | .remove id => name id
  | .failAll _ => True
  | .forget _ => True

/-- What happened is some operations that are about named ids, or the end of channels. -/
def Does (name : String → Prop) (before after : Client) : Prop :=
  ∃ operations, Follows before operations after ∧ ∀ operation ∈ operations, Names name operation

section Does

variable {name : String → Prop}

theorem Does.trans (first : Does name before middle) (second : Does name middle after) :
    Does name before after := by
  obtain ⟨operations, follows, named⟩ := first
  obtain ⟨more, follows', named'⟩ := second
  refine ⟨operations ++ more, follows.trans follows', fun operation mem => ?_⟩
  exact (List.mem_append.mp mem).elim (named operation) (named' operation)

theorem Follows.does (follows : Follows before [] after) : Does name before after :=
  ⟨[], follows, nofun⟩

variable (name)

theorem does_closeThese {client : Client} {pool : ChannelPool} (ids : List ChannelId)
    (follows : Follows before [] client)
    (active : ∀ channel, channel ≤ before.opened → pool.isActive channel = true →
      before.pool.isActive channel = true) :
    Does name before (client.withPool (pool.closeThese ids)) := by
  refine ⟨_, follows_closeThese ids follows active, fun operation mem => ?_⟩
  obtain ⟨id, -, rfl⟩ := List.mem_map.mp mem
  exact trivial

theorem does_endChannel (id : ChannelId) : Does name client (client.endChannel id) :=
  does_closeThese name [id] client.follows_refl fun _ _ isActive => isActive

theorem does_close : Does name client client.close :=
  does_closeThese name _ client.follows_refl fun _ _ isActive => isActive

theorem does_closeAddress (address : SocketAddress) :
    Does name client (client.closeAddress address) :=
  does_closeThese name _ client.follows_refl fun _ _ isActive => isActive

theorem does_failChannel (id : ChannelId) (fault : Fault) :
    Does name client (client.failChannel id fault) := by
  rw [failChannel]
  split
  · exact (client.follows_count .protocolError).does.trans (does_endChannel _ name id)
  · exact client.does_endChannel name id

theorem follows_write (channel : Channel) (message : Message) (refusal : Option String) :
    Follows client [] (client.write channel message refusal).2 := by
  have coded (codec : Frame.Codec) : Follows client []
      { client with pool := client.pool.update channel.id fun c => { c with codec } } :=
    client.follows_update channel.id fun _ => ⟨rfl, rfl⟩
  rw [write]
  dsimp only
  split
  · exact coded _
  · exact (coded _).trans (follows_count _ _)
  · exact coded _

theorem follows_transmit (network : Network) (channel : Channel) (message : Message) :
    Follows client [] (client.transmit network channel message).2 := by
  rw [transmit]
  split
  · exact client.follows_write ..
  · exact client.follows_write ..
  · exact client.follows_refl

theorem does_heartbeat (network : Network) (id : ChannelId) :
    Does name client (client.heartbeat network id).2 := by
  rw [heartbeat]
  split
  · exact client.follows_refl.does
  · next channel found =>
      split
      · have numbered : Follows client [] { client with
            pool := client.pool.update id fun c => { c with lastPing := channel.lastPing + 1 } } :=
          client.follows_update id fun _ => ⟨rfl, rfl⟩
        have sent := numbered.trans (follows_transmit _ network channel
          ⟨client.options.format, client.options.compression, channel.lastPing + 1, .ping⟩)
        dsimp only
        split
        · next frame next written =>
            rw [written] at sent
            exact (sent.trans (follows_count _ _)).does
        · next fault next failed =>
            rw [failed] at sent
            exact sent.does.trans (does_endChannel _ name id)
      · exact client.follows_refl.does

/-! ### Receiving -/

/-- The responses among some messages. -/
def responsesOf (messages : List Message) : List Response :=
  messages.filterMap fun message =>
    match message.body with
    | .response response => some response
    | _ => none

/-- Responses are handed to the calls that they answer. -/
def completions (messages : List Message) : List Pending.Operation :=
  (responsesOf messages).map .complete

/-- The first response with an id decides about what waits there. -/
theorem fate_completions (messages : List Message) (id : String) (channel : ChannelId) :
    Pending.fate id channel (completions messages)
      = ((responsesOf messages).find? fun response => response.requestId = id).map .answered := by
  rw [completions, Pending.fate, List.findSome?_map]
  induction responsesOf messages with
  | nil => rfl
  | cons response responses ih =>
      rw [List.findSome?_cons, List.find?_cons, ih]
      by_cases same : response.requestId = id
      · simp [Pending.Operation.settlement?, same]
      · simp [Pending.Operation.settlement?, same]

/-- A response is handed to the table, and every other message leaves it. -/
theorem follows_takeMessage (message : Message) :
    Follows client (completions [message]) (client.takeMessage message) := by
  have counted := client.follows_count .frameReceived
  obtain ⟨format, compression, id, body⟩ := message
  cases body with
  | request request => exact counted
  | ping => exact counted
  | pong => exact counted.trans (follows_count _ .heartbeatAnswered)
  | response response =>
      have completing := counted.trans
        ((client.count .frameReceived).follows_settle (.complete response) nofun)
      rw [Pending.perform] at completing
      rw [takeMessage]
      dsimp only at completing ⊢
      generalize completed : (client.count .frameReceived).pending.complete response = outcome
        at completing ⊢
      obtain ⟨_ | _, settled, pending⟩ := outcome
      · -- without a call, nothing is settled and the table stays
        rw [Pending.complete, Pending.settle] at completed
        cases found : (client.count .frameReceived).pending.calls.get? response.requestId with
        | some waiting => rw [found] at completed; cases completed
        | none =>
            rw [found] at completed
            obtain ⟨-, rfl, rfl⟩ := completed
            exact completing.trans (follows_count _ .correlationError)
      · exact completing

theorem follows_takeMessages (messages : List Message) :
    Follows client (completions messages) (messages.foldl takeMessage client) := by
  induction messages generalizing client with
  | nil => exact client.follows_refl
  | cons message messages ih =>
      have both := (client.follows_takeMessage message).trans (ih (client.takeMessage message))
      rw [completions, completions, ← List.map_append, responsesOf, responsesOf,
        ← List.filterMap_append] at both
      exact both

/-- The messages that become whole with some bytes. -/
def arriving (client : Client) (id : ChannelId) (bytes : Bytes) : List Message :=
  match client.pool.channel? id with
  | some channel =>
    if channel.isActive then (channel.codec.decodeAll (channel.received ++ bytes)).messages else []
  | none => []

/-- The messages that become whole are taken, and then the channel may end. -/
theorem follows_receive (id : ChannelId) (bytes : Bytes) :
    ∃ middle, Follows client (completions (client.arriving id bytes)) middle
      ∧ Does (fun _ => False) middle (client.receive id bytes) := by
  rw [receive, arriving]
  cases client.pool.channel? id with
  | none => exact ⟨client, client.follows_refl, client.follows_refl.does⟩
  | some channel =>
      dsimp only
      by_cases isActive : channel.isActive = true
      · rw [if_pos isActive, if_pos isActive]
        generalize channel.codec.decodeAll (channel.received ++ bytes) = decoded
        have kept : Follows client [] { client with
            pool := client.pool.update id fun c => { c with received := decoded.left } } :=
          client.follows_update id fun _ => ⟨rfl, rfl⟩
        refine ⟨_, kept.trans (follows_takeMessages _ decoded.messages), ?_⟩
        cases decoded.fault with
        | none => exact (follows_refl _).does
        | some fault => exact does_failChannel _ _ id fault
      · rw [if_neg isActive, if_neg isActive]
        exact ⟨client, client.follows_refl, client.follows_refl.does⟩

/-! ### Sending -/

theorem does_connect (network : Network) (address : SocketAddress) :
    Does name client (client.connect network address).2 := by
  rw [connect]
  split
  · exact client.follows_refl.does
  · exact client.follows_refl.does
  · dsimp only
    rw [ChannelPool.set]
    refine does_closeThese name _ ?_ fun channel known isActive => ?_
    · exact follows_nothing rfl rfl (Nat.le_succ _) fun _ _ isActive => isActive
    · rw [ChannelPool.isActive_push] at isActive
      · exact isActive
      · exact Nat.ne_of_lt (Nat.lt_succ_of_le known)

theorem does_channelTo (network : Network) (address : SocketAddress) :
    Does name client (client.channelTo network address).2 := by
  have got : Follows client [] { client with pool := (client.pool.get address).2 } := by
    refine client.follows_pool fun channel isActive => ?_
    rw [ChannelPool.isActive, ChannelPool.channel?, ChannelPool.channels_get] at isActive
    exact isActive
  rw [channelTo]
  dsimp only
  split
  · exact got.does
  · exact got.does.trans (does_connect _ name network address)

/-- A call is entered. -/
theorem follows_enter (address : SocketAddress) (channel : Channel) (request : Request) :
    Follows client [.put request.id channel.id] (client.enter address channel request).2 := by
  have put := client.carries_settle (.put request.id channel.id)
  have same (other : ChannelId) : (client.pool.update channel.id fun c =>
      { c with nextFrame := c.nextFrame + 1 }).isActive other = client.pool.isActive other :=
    client.pool.isActive_update channel.id other fun _ => ⟨rfl, rfl⟩
  refine ⟨⟨put.pending, put.settlements⟩, Nat.le_refl _, fun other _ isActive => ⟨?_, by simp⟩⟩
  exact (same other).symm.trans isActive

theorem follows_fail (id : String) (fault : Fault) :
    Follows client [.fail id fault] (client.fail id fault) :=
  client.follows_settle (.fail id fault) nofun

theorem follows_transmitRequest (network : Network) (outgoing : Outgoing) :
    Follows client [] (client.transmitRequest network outgoing).2 := by
  have released : Follows client [] (client.release outgoing) :=
    follows_nothing rfl rfl (Nat.le_refl _) fun _ _ isActive => isActive
  exact released.trans (follows_transmit ..)

/-- The end of a write concerns no call, or it fails what waits under the id of the request.  Then
the channel may end too, if the operating system refused the frame. -/
theorem endSend_cases (network : Network) (outgoing : Outgoing) :
    (∃ frame, (client.endSend network outgoing).1 = .ok frame
        ∧ Follows client [] (client.endSend network outgoing).2)
      ∨ ∃ fault ids, (client.endSend network outgoing).1 = .error fault
        ∧ (∀ id ∈ ids, id = outgoing.channel.id ∧ ∃ detail, fault = .io detail)
        ∧ Follows client (.fail outgoing.request.id fault :: endings ids)
          (client.endSend network outgoing).2 := by
  have sent := client.follows_transmitRequest network outgoing
  rw [endSend]
  split
  · next frame after written =>
      rw [written] at sent
      exact .inl ⟨frame, rfl, sent⟩
  · next fault after refused =>
      rw [refused] at sent
      have failed := sent.trans (follows_fail after outgoing.request.id fault)
      dsimp only
      split
      · next detail =>
          refine .inr ⟨_, _, rfl, fun id mem => ?_, failed.trans (follows_closeThese
            [outgoing.channel.id] (follows_refl _) fun _ _ isActive => isActive)⟩
          exact ⟨List.mem_singleton.mp (List.mem_filter.mp mem).1, detail, rfl⟩
      · exact .inr ⟨fault, [], rfl, nofun, failed⟩

/-- A client after it has looked up an address for a request. -/
def looked (client : Client) (store : Store Event) (numbers : List Nat) (request : Request) :
    Client :=
  { client with
    discovery := (client.discovery.find store numbers client.strategy request.serviceKey).2.1 }

/-- What beginning to send comes to: no address is found, no channel is there, or a call is
entered. -/
theorem beginSend_paths (network : Network) (store : Store Event) (numbers : List Nat)
    (request : Request) :
    let begun := client.beginSend network store numbers request
    (∃ fault, begun.1 = .error fault ∧ begun.2.1 = client.looked store numbers request)
      ∨ ∃ address,
        let opening := ((client.looked store numbers request).beginActive address).channelTo
          network address
        (∃ fault, begun.1 = .error fault ∧ begun.2.1 = opening.2.endActive address)
          ∨ ∃ channel, opening.1 = .ok channel
            ∧ begun.1 = .ok (opening.2.enter address channel request).1
            ∧ begun.2.1 = (opening.2.enter address channel request).2 := by
  intro begun
  generalize came : begun = begun'
  rw [show begun = client.beginSend network store numbers request from rfl, beginSend] at came
  dsimp only at came
  split at came
  · next fault failed =>
      subst came
      exact .inl ⟨fault, rfl, rfl⟩
  · next address found =>
      refine .inr ⟨address, ?_⟩
      split at came
      · next fault after failed =>
          subst came
          exact .inl ⟨fault, rfl, by rw [looked, failed]⟩
      · next channel after got =>
          split at came
          · subst came
            exact .inl ⟨_, rfl, by rw [looked, got]⟩
          · subst came
            exact .inr ⟨channel, by rw [looked, got], by rw [looked, got], by rw [looked, got]⟩

end Does

end Client

end RemoteCall

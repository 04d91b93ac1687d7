import RemoteCall.Proofs.Client.Operations
import RemoteCall.Proofs.Frame.Stream

/-! # Reading a channel to its end

    The messages of a channel are taken one after another, and then the channel
    ends: with its stream, with a fault, or because somebody closes it.  What
    has become of the client then is told by the messages and the table alone
    (`Concluded`): each call that waits has a verdict, which is the first
    response with its id, or else that its channel is gone (`verdict`), and the
    counts say how many messages of each kind there were.

    The route: taking messages and ending the channel are operations on the
    table, so that the verdict is what the first operation that concerns an
    entry makes of it (`fate_reading`).  The counts are those of one message
    after another (`Taken`); that a response either takes a call out of the
    table or is an error of correlation gives the number of the errors
    (`Taken.answered`).  Bytes that come in chunks make the client take the
    messages that are decoded from all of them (`foldl_receive`). -/

namespace RemoteCall.Client

variable {client final : Client} {id : ChannelId} {messages : List Message} {fault : Option Fault}

/-! ## Messages -/

/-- What taking a message comes to.  A response settles the call that waits under its id, and counts
as an error of correlation where there is none; everything else is at most counted. -/
def Takes (client : Client) (message : Message) (after : Client) : Prop :=
  let counted := client.count .frameReceived
  match message.body with
  | .response response =>
    match client.pending.calls.get? response.requestId with
    | some waiting => after = { counted with
        pending := { client.pending with calls := client.pending.calls.erase response.requestId }
        settlements := (waiting.ticket, .answered response) :: client.settlements }
    | none => after = counted.count .correlationError
  | .pong => after = counted.count .heartbeatAnswered
  | _ => after = counted

theorem takes_takeMessage (client : Client) (message : Message) :
    client.Takes message (client.takeMessage message) := by
  obtain ⟨format, compression, number, body⟩ := message
  cases body with
  | request request => rfl
  | ping => rfl
  | pong => rfl
  | response response =>
      have completed : (client.count .frameReceived).pending.complete response
          = client.pending.complete response := rfl
      rw [Takes, takeMessage]
      dsimp only
      rw [completed, Pending.complete, Pending.settle]
      cases client.pending.calls.get? response.requestId with
      | some waiting => rfl
      | none => rfl

/-- Whether a message answers a heartbeat. -/
def isPong (message : Message) : Bool :=
  match message.body with
  | .pong => true
  | _ => false

/-- What messages do to the counts, and that they leave everything but the table and what is
settled.  A response that is no error of correlation takes one call out of the table. -/
structure Taken (before : Client) (messages : List Message) (after : Client) : Prop where
  metrics : after.metrics = { before.metrics with
    framesReceived := before.metrics.framesReceived + messages.length
    heartbeatsAnswered := before.metrics.heartbeatsAnswered + messages.countP isPong
    correlationErrors := after.metrics.correlationErrors }
  matched : after.metrics.correlationErrors + before.pending.size
    = before.metrics.correlationErrors + (responsesOf messages).length + after.pending.size
  rest : after = { before with
    pending := after.pending, metrics := after.metrics, settlements := after.settlements }

theorem taken_takeMessage (client : Client) (message : Message) :
    Taken client [message] (client.takeMessage message) := by
  have takes := client.takes_takeMessage message
  obtain ⟨format, compression, number, body⟩ := message
  cases body with
  | request request => exact ⟨by rw [takes]; rfl, by rw [takes]; rfl, by rw [takes]; rfl⟩
  | ping => exact ⟨by rw [takes]; rfl, by rw [takes]; rfl, by rw [takes]; rfl⟩
  | pong => exact ⟨by rw [takes]; rfl, by rw [takes]; rfl, by rw [takes]; rfl⟩
  | response response =>
      rw [Takes] at takes
      dsimp only at takes
      cases found : client.pending.calls.get? response.requestId with
      | some waiting =>
          rw [found] at takes
          dsimp only at takes
          refine ⟨by rw [takes]; rfl, ?_, by rw [takes]; rfl⟩
          have fewer : (client.pending.calls.erase response.requestId).size + 1
              = client.pending.calls.size := Dictionary.size_erase found
          rw [takes]
          show client.metrics.correlationErrors + client.pending.calls.size
            = client.metrics.correlationErrors + 1
              + (client.pending.calls.erase response.requestId).size
          omega
      | none =>
          rw [found] at takes
          dsimp only at takes
          exact ⟨by rw [takes]; rfl, by rw [takes]; rfl, by rw [takes]; rfl⟩

theorem taken_takeMessages (client : Client) (messages : List Message) :
    Taken client messages (messages.foldl takeMessage client) := by
  induction messages generalizing client with
  | nil => exact ⟨rfl, rfl, rfl⟩
  | cons message messages ih =>
      obtain ⟨metrics, matched, rest⟩ := client.taken_takeMessage message
      obtain ⟨metrics', matched', rest'⟩ := ih (client.takeMessage message)
      rw [List.foldl_cons]
      have frames : (message :: messages).length = [message].length + messages.length :=
        Nat.add_comm ..
      have pongs : (message :: messages).countP isPong
          = [message].countP isPong + messages.countP isPong := by
        rw [← List.countP_append, List.singleton_append]
      have both : responsesOf (message :: messages)
          = responsesOf [message] ++ responsesOf messages := by
        rw [responsesOf, responsesOf, responsesOf, ← List.filterMap_append, List.singleton_append]
      refine ⟨?_, ?_, ?_⟩
      · rw [metrics', metrics, frames, pongs, ← Nat.add_assoc, ← Nat.add_assoc]
      · rw [both, List.length_append]
        omega
      · rw [rest', rest]

/-! ## The end of a channel -/

/-- How reading a channel ends, with a fault of its frames or without one. -/
inductive Concludes (client : Client) (id : ChannelId) : Option Fault → Client → Prop where
  /-- The stream ends. -/
  | stream : Concludes client id none (client.endChannel id)
  /-- A frame cannot be read. -/
  | fault (fault : Fault) : Concludes client id (some fault) (client.failChannel id fault)
  /-- Somebody closes the channel to an address. -/
  | closeAddress {address : SocketAddress} (used : client.pool.idFor address = some id) :
      Concludes client id none (client.closeAddress address)
  /-- Somebody closes all channels, and no other one is active. -/
  | close (alone : (client.pool.inUse.map fun use => use.2).filter client.pool.isActive = [id]) :
      Concludes client id none client.close

/-- What the end of a channel does, with a fault or without one. -/
structure Ended (before : Client) (id : ChannelId) (fault : Option Fault) (after : Client) :
    Prop where
  carries : Carries before [.failAll id] after
  metrics : after.metrics = { before.metrics with
    protocolErrors :=
      before.metrics.protocolErrors + if fault.any Fault.isViolation then 1 else 0
    connectionsActive := before.metrics.connectionsActive - 1 }
  inactive : after.pool.isActive id = false
  others : ∀ other, other ≠ id → after.pool.channel? other = before.pool.channel? other
  rest : after = { before with
    pool := after.pool, pending := after.pending, metrics := after.metrics
    settlements := after.settlements }

/-- Channels are closed, and only one of them was active. -/
theorem ended_closeThese {pool : ChannelPool} {ids : List ChannelId}
    (channels : pool.channels = client.pool.channels) (alone : ids.filter pool.isActive = [id]) :
    Ended client id none (client.withPool (pool.closeThese ids)) := by
  have one : client.withPool (pool.closeThese ids)
      = { client with pool := (pool.closeThese ids).2 }.endReading id := by
    rw [withPool, ChannelPool.closeThese, alone]
    rfl
  have same (other : ChannelId) : pool.channel? other = client.pool.channel? other := by
    rw [ChannelPool.channel?, channels, ChannelPool.channel?]
  have mem : id ∈ ids := (List.mem_filter.mp (alone ▸ .head _ : id ∈ ids.filter pool.isActive)).1
  obtain ⟨pending, settlements⟩ := client.carries_settle (.failAll id)
  rw [one]
  refine ⟨⟨pending, settlements⟩, rfl, ?_, fun other apart => ?_, rfl⟩
  · refine eq_false_of_ne_true fun still => ?_
    exact ((pool.isActive_closeThese ids id).mp still).2 mem
  · show (pool.closeThese ids).2.channel? other = client.pool.channel? other
    rw [ChannelPool.channel?_closeThese, same]
    refine (Option.map_congr fun c found => ?_).trans Option.map_id'
    split
    · next listed =>
        -- of the listed channels, only the one that ends was active
        have inactive : pool.isActive other ≠ true := fun still => apart <|
          List.mem_singleton.mp (alone ▸ List.mem_filter.mpr ⟨listed, still⟩)
        rw [ChannelPool.isActive, same, found] at inactive
        rw [Channel.deactivate, ← eq_false_of_ne_true inactive]
        rfl
    · rfl

theorem Concludes.ended (concludes : Concludes client id fault final)
    (isActive : client.pool.isActive id = true) : Ended client id fault final := by
  have alone {pool : ChannelPool} (channels : pool.channels = client.pool.channels) :
      [id].filter pool.isActive = [id] := by
    refine List.filter_eq_self.mpr fun other mem => ?_
    rw [List.mem_singleton.mp mem, ChannelPool.isActive, ChannelPool.channel?, channels]
    exact isActive
  cases concludes with
  | stream => exact ended_closeThese rfl (alone rfl)
  | closeAddress used =>
      rw [Client.closeAddress, ChannelPool.remove, used]
      exact ended_closeThese rfl (alone rfl)
  | close only => exact ended_closeThese rfl only
  | fault fault =>
      rw [failChannel]
      split
      · next violates =>
          obtain ⟨⟨pending, settlements⟩, metrics, inactive, others, rest⟩ :
              Ended (client.count .protocolError) id none _ := ended_closeThese rfl (alone rfl)
          refine ⟨⟨pending, settlements⟩, metrics.trans ?_, inactive, others, rest⟩
          rw [Option.any_some, if_pos violates]
          rfl
      · next harmless =>
          obtain ⟨carries, metrics, inactive, others, rest⟩ :
              Ended client id none (client.endChannel id) := ended_closeThese rfl (alone rfl)
          refine ⟨carries, metrics.trans ?_, inactive, others, rest⟩
          rw [Option.any_some, if_neg harmless]
          rfl

/-! ## Reading to the end -/

/-- What becomes of a call that waits when a channel is read to its end: the first response with its
id answers it, whatever channel it went out on, and without one it fails with its channel. -/
def verdict (messages : List Message) (id : ChannelId) (entry : String × Waiting) :
    Option Settlement :=
  (((responsesOf messages).find? fun response => response.requestId = entry.1).map .answered).or
    (if entry.2.channel = id then some (.failed .connectionClosed) else none)

/-- The number of calls that wait and are answered by some messages. -/
def answered (client : Client) (messages : List Message) : Nat :=
  client.pending.calls.entries.countP fun entry =>
    (responsesOf messages).any fun response => response.requestId = entry.1

/-- What has become of a client when it has read a channel to its end. -/
structure Concluded (client : Client) (id : ChannelId) (messages : List Message)
    (fault : Option Fault) (final : Client) : Prop where
  /-- Every message is taken as it says, whatever was taken before. -/
  takes : ∀ earlier message, earlier ++ [message] <+: messages →
    (earlier.foldl takeMessage client).Takes message
      ((earlier ++ [message]).foldl takeMessage client)
  /-- Exactly the calls with a verdict leave the table, each settled by it. -/
  table : final.pending.calls = client.pending.calls.filter fun request waiting =>
    (verdict messages id (request, waiting)).isNone
  settles : ∃ settled, final.settlements = settled ++ client.settlements
    ∧ settled.Perm (client.pending.calls.entries.filterMap fun entry =>
      (verdict messages id entry).map (entry.2.ticket, ·))
  /-- Nothing else is counted but frames, answers to heartbeats, errors of correlation, a fault that
  is a violation, and the connection that is gone. -/
  metrics : final.metrics = { client.metrics with
    framesReceived := client.metrics.framesReceived + messages.length
    heartbeatsAnswered := client.metrics.heartbeatsAnswered + messages.countP isPong
    protocolErrors :=
      client.metrics.protocolErrors + if fault.any Fault.isViolation then 1 else 0
    correlationErrors := final.metrics.correlationErrors
    connectionsActive := client.metrics.connectionsActive - 1 }
  /-- A response answers a call or is an error of correlation. -/
  matched : final.metrics.correlationErrors + client.answered messages
    = client.metrics.correlationErrors + (responsesOf messages).length
  inactive : final.pool.isActive id = false
  others : ∀ other, other ≠ id → final.pool.channel? other = client.pool.channel? other
  /-- All else is as it was. -/
  rest : final = { client with
    pool := final.pool
    pending := { client.pending with calls := final.pending.calls }
    metrics := final.metrics
    settlements := final.settlements }

theorem fate_reading (entry : String × Waiting) :
    Pending.fate entry.1 entry.2.channel (completions messages ++ [.failAll id])
      = verdict messages id entry := by
  have last : Pending.fate entry.1 entry.2.channel [.failAll id]
      = if entry.2.channel = id then some (.failed .connectionClosed) else none := by
    rw [Pending.fate_cons, Pending.Operation.settlement?]
    by_cases same : entry.2.channel = id
    · rw [if_pos same, if_pos same.symm]
      rfl
    · rw [if_neg same, if_neg (Ne.symm same)]
      rfl
  have first := fate_completions messages entry.1 entry.2.channel
  rw [Pending.fate] at first last
  rw [Pending.fate, List.findSome?_append, first, last, verdict]

/-- Reading enters no call. -/
theorem enterNothing_reading (messages : List Message) (id : ChannelId) :
    Pending.EnterNothing (completions messages ++ [.failAll id]) := by
  intro operation mem before
  rcases List.mem_append.mp mem with completes | fails
  · obtain ⟨response, -, rfl⟩ := List.mem_map.mp completes
    rfl
  · rw [List.mem_singleton.mp fails]
    rfl

/-- The messages take the calls out of the table that they answer. -/
theorem Taken.answered (taken : Taken client messages final)
    (carries : Carries client (completions messages) final) :
    final.metrics.correlationErrors + client.answered messages
      = client.metrics.correlationErrors + (responsesOf messages).length := by
  have nothing : Pending.EnterNothing (completions messages) := fun operation mem =>
    enterNothing_reading messages 0 operation (List.mem_append_left _ mem)
  have parts := client.pending.calls.entries.length_eq_countP_add_countP fun entry =>
    (responsesOf messages).any fun response => response.requestId = entry.1
  have left : final.pending.size = client.pending.calls.entries.countP fun entry =>
      ¬ ((responsesOf messages).any fun response => response.requestId = entry.1) = true := by
    rw [carries.table nothing, Pending.size, Dictionary.size, Dictionary.filter,
      List.countP_eq_length_filter]
    refine congrArg List.length (List.filter_congr fun entry _ => ?_)
    rw [fate_completions, Option.isNone_map, Bool.eq_iff_iff, Option.isNone_iff_eq_none,
      List.find?_eq_none]
    simp
  have matched := taken.matched
  rw [left] at matched
  rw [Client.answered]
  have size : client.pending.size = client.pending.calls.entries.length := rfl
  omega

/-- Reading to the end, where the bytes that the channel has left over may have changed before. -/
theorem concluded {pool : ChannelPool} (isActive : pool.isActive id = true)
    (others : ∀ other, other ≠ id → pool.channel? other = client.pool.channel? other)
    (concludes : Concludes (messages.foldl takeMessage { client with pool := pool }) id fault
      final) :
    Concluded client id messages fault final := by
  have taken := taken_takeMessages { client with pool := pool } messages
  have taking := (follows_takeMessages { client with pool := pool } messages).toCarries
  generalize messages.foldl takeMessage { client with pool := pool } = middle
    at taken taking concludes
  have samePool : middle.pool = pool := congrArg Client.pool taken.rest
  have ended := concludes.ended (samePool ▸ isActive)
  have carries : Carries client (completions messages ++ [.failAll id]) final := by
    obtain ⟨pending, settlements⟩ := taking.trans ended.carries
    exact ⟨pending, settlements⟩
  have nothing := enterNothing_reading messages id
  have passes : (fun request (waiting : Waiting) => (Pending.fate request waiting.channel
        (completions messages ++ [.failAll id])).isNone)
      = fun request waiting => (verdict messages id (request, waiting)).isNone :=
    funext fun request => funext fun waiting =>
      congrArg Option.isNone (fate_reading (request, waiting))
  have table := carries.table nothing
  rw [passes] at table
  have verdicts := carries.settled nothing
  simp only [fate_reading] at verdicts
  refine
    { takes := fun earlier message _ => ?takes
      table := ?table
      settles := verdicts
      metrics := ?metrics
      matched := ?matched
      inactive := ended.inactive
      others := fun other apart => ?others
      rest := ?rest }
  case takes =>
    rw [List.foldl_append]
    exact takes_takeMessage _ message
  case table => rw [table]
  case metrics => rw [ended.metrics, taken.metrics]
  case matched =>
    have same : final.metrics.correlationErrors = middle.metrics.correlationErrors := by
      rw [ended.metrics]
    rw [same]
    exact taken.answered taking
  case others =>
    rw [ended.others other apart, samePool]
    exact others other apart
  case rest =>
    calc final
      _ = { middle with
            pool := final.pool, pending := final.pending, metrics := final.metrics
            settlements := final.settlements } := ended.rest
      _ = { client with
            pool := final.pool, pending := final.pending, metrics := final.metrics
            settlements := final.settlements } := by rw [taken.rest]
      _ = _ := by rw [table]

/-! ## Bytes of a channel -/

/-- Once there was a fault, nothing more is decoded. -/
theorem foldl_feed_of_fault {codec : Frame.Codec} {state : Frame.Codec.Decoded} {fault : Fault}
    (failed : state.fault = some fault) (chunks : List Bytes) :
    chunks.foldl codec.feed state = state := by
  induction chunks with
  | nil => rfl
  | cons chunk chunks ih =>
      rw [List.foldl_cons, Frame.Codec.feed, failed]
      exact ih

/-- What was decoded before makes no difference to what is decoded. -/
theorem foldl_feed (codec : Frame.Codec) (earlier : List Message)
    (state : Frame.Codec.Decoded) (chunks : List Bytes) :
    chunks.foldl codec.feed { state with messages := earlier ++ state.messages }
      = { chunks.foldl codec.feed state with
          messages := earlier ++ (chunks.foldl codec.feed state).messages } := by
  induction chunks generalizing state with
  | nil => rfl
  | cons chunk chunks ih =>
      have one : codec.feed { state with messages := earlier ++ state.messages } chunk
          = { codec.feed state chunk with
              messages := earlier ++ (codec.feed state chunk).messages } := by
        obtain ⟨messages, fault, left⟩ := state
        cases fault with
        | some fault => rfl
        | none => simp only [Frame.Codec.feed, List.append_assoc]
      rw [List.foldl_cons, List.foldl_cons, one, ih]

/-- An inactive channel brings nothing. -/
theorem foldl_receive_of_inactive (inactive : client.pool.isActive id = false)
    (chunks : List Bytes) :
    chunks.foldl (fun client bytes => client.receive id bytes) client = client := by
  have nothing (bytes : Bytes) : client.receive id bytes = client := by
    rw [ChannelPool.isActive] at inactive
    rw [receive]
    cases found : client.pool.channel? id with
    | none => rfl
    | some channel =>
        rw [found] at inactive
        exact if_neg (ne_true_of_eq_false inactive)
  induction chunks with
  | nil => rfl
  | cons chunk chunks ih => rw [List.foldl_cons, nothing, ih]

/-- Messages are taken without a look at the channels. -/
theorem takeMessages_withPool (client : Client) (pool : ChannelPool) (messages : List Message) :
    messages.foldl takeMessage { client with pool := pool }
      = { messages.foldl takeMessage client with pool := pool } := by
  have one (client : Client) (message : Message) :
      takeMessage { client with pool := pool } message
        = { client.takeMessage message with pool := pool } := by
    obtain ⟨format, compression, number, body⟩ := message
    cases body with
    | request request => rfl
    | ping => rfl
    | pong => rfl
    | response response =>
        rw [takeMessage, takeMessage]
        dsimp only [count]
        generalize client.pending.complete response = outcome
        obtain ⟨_ | _, settled, pending⟩ := outcome
        · rfl
        · rfl
  induction messages generalizing client with
  | nil => rfl
  | cons message messages ih => rw [List.foldl_cons, List.foldl_cons, one, ih]

/-- The end of a channel, if there was a fault. -/
def failWith (client : Client) (id : ChannelId) : Option Fault → Client
  | none => client
  | some fault => client.failChannel id fault

/-- Bytes that come on an active channel have their messages taken, and a fault ends it.  Of the
channels, only this one changes, by what it has left over. -/
theorem receive_of_isActive {channel : Channel} (found : client.pool.channel? id = some channel)
    (isActive : channel.isActive = true) (bytes : Bytes) :
    let decoded := channel.codec.decodeAll (channel.received ++ bytes)
    ∃ pool : ChannelPool,
      pool.channel? id = some { channel with received := decoded.left }
        ∧ (∀ other, other ≠ id → pool.channel? other = client.pool.channel? other)
        ∧ client.receive id bytes
          = failWith (decoded.messages.foldl takeMessage { client with pool := pool }) id
              decoded.fault := by
  intro decoded
  let keep (c : Channel) : Channel := { c with received := decoded.left }
  have looked (other : ChannelId) : (client.pool.update id keep).channel? other
      = (client.pool.channel? other).map fun c => if c.id = id then keep c else c :=
    client.pool.channel?_update id other fun _ => rfl
  refine ⟨client.pool.update id keep, ?_, fun other apart => ?_, ?_⟩
  · rw [looked, found, Option.map_some, if_pos (List.key_of_find? found)]
  · refine (looked other).trans ((Option.map_congr fun c known => ?_).trans Option.map_id')
    exact if_neg ((List.key_of_find? known : c.id = other) ▸ apart)
  · rw [receive, found]
    dsimp only
    rw [if_pos isActive]
    cases decoded.fault with
    | none => rfl
    | some fault => rfl

/-- Bytes that come on a channel in chunks have their messages taken, up to the first fault, with
which the channel ends. -/
theorem foldl_receive {channel : Channel} (found : client.pool.channel? id = some channel)
    (isActive : channel.isActive = true) (chunks : List Bytes) :
    let decoded := chunks.foldl channel.codec.feed ⟨[], none, channel.received⟩
    ∃ pool : ChannelPool,
      pool.isActive id = true
        ∧ (∀ other, other ≠ id → pool.channel? other = client.pool.channel? other)
        ∧ chunks.foldl (fun client bytes => client.receive id bytes) client
          = failWith (decoded.messages.foldl takeMessage { client with pool := pool }) id
              decoded.fault := by
  have still {pool : ChannelPool} {channel : Channel} (there : pool.channel? id = some channel)
      (isActive : channel.isActive = true) : pool.isActive id = true := by
    rw [ChannelPool.isActive, there]
    exact isActive
  induction chunks generalizing client channel with
  | nil => exact ⟨client.pool, still found isActive, fun _ _ => rfl, rfl⟩
  | cons bytes chunks ih =>
      obtain ⟨pool, there, others, received⟩ := receive_of_isActive found isActive bytes
      have fed : channel.codec.feed ⟨[], none, channel.received⟩ bytes
          = channel.codec.decodeAll (channel.received ++ bytes) := rfl
      rw [List.foldl_cons, List.foldl_cons, fed, received]
      generalize channel.codec.decodeAll (channel.received ++ bytes) = decoded at there
      have taken := takeMessages_withPool client pool decoded.messages
      cases ends : decoded.fault with
      | some fault =>
          -- the channel has ended, and the other chunks do not come any more
          refine ⟨pool, still there isActive, others, ?_⟩
          have middle : (decoded.messages.foldl takeMessage
              { client with pool := pool }).pool.isActive id = true := by
            rw [taken]
            exact still there isActive
          rw [foldl_feed_of_fault ends, ends]
          exact foldl_receive_of_inactive ((Concludes.fault fault).ended middle).inactive chunks
      | none =>
          -- the other chunks come on the channel with what is left over
          rw [failWith, taken]
          obtain ⟨last, still', others', read⟩ :=
            @ih { decoded.messages.foldl takeMessage client with pool := pool }
              { channel with received := decoded.left } there isActive
          have fresh : decoded = ⟨decoded.messages ++ [], none, decoded.left⟩ := by
            rw [List.append_nil, ← ends]
          have rest := foldl_feed channel.codec decoded.messages ⟨[], none, decoded.left⟩ chunks
          rw [← fresh] at rest
          refine ⟨last, still', fun other apart => ?_, ?_⟩
          · rw [others' other apart, others other apart]
          · rw [rest, List.foldl_append, takeMessages_withPool client last]
            exact read

/-- A client reads a channel to its end: some messages that are followed by the end, or bytes that
come in chunks, either without a fault until the end or up to a fault, which is the end. -/
inductive Reads (client : Client) (id : ChannelId) :
    List Message → Option Fault → Client → Prop where
  | messages {messages : List Message} {fault : Option Fault} {final : Client}
      (concludes : Concludes (messages.foldl takeMessage client) id fault final) :
      Reads client id messages fault final
  | bytes {channel : Channel} {chunks : List Bytes} {decoded : Frame.Codec.Decoded} {final : Client}
      (found : client.pool.channel? id = some channel)
      (decodes : chunks.foldl channel.codec.feed ⟨[], none, channel.received⟩ = decoded)
      (whole : decoded.fault = none)
      (concludes : Concludes (chunks.foldl (fun client bytes => client.receive id bytes) client)
        id none final) : Reads client id decoded.messages none final
  | broken {channel : Channel} {chunks : List Bytes} {decoded : Frame.Codec.Decoded} {fault : Fault}
      (found : client.pool.channel? id = some channel)
      (decodes : chunks.foldl channel.codec.feed ⟨[], none, channel.received⟩ = decoded)
      (failed : decoded.fault = some fault) :
      Reads client id decoded.messages (some fault)
        (chunks.foldl (fun client bytes => client.receive id bytes) client)

/-- **What a client has become when it has read an active channel to its end.** -/
theorem reading_concludes {client final : Client} {id : ChannelId} {messages : List Message}
    {fault : Option Fault} (isActive : client.pool.isActive id = true)
    (reads : Reads client id messages fault final) : Concluded client id messages fault final := by
  have active {channel : Channel} (found : client.pool.channel? id = some channel) :
      channel.isActive = true := by
    rw [ChannelPool.isActive, found] at isActive
    exact isActive
  cases reads with
  | messages concludes => exact concluded isActive (fun _ _ => rfl) concludes
  | bytes found decodes whole concludes =>
      obtain ⟨pool, still, others, read⟩ := foldl_receive found (active found) _
      rw [decodes, whole] at read
      rw [read] at concludes
      exact concluded still others concludes
  | broken found decodes failed =>
      obtain ⟨pool, still, others, read⟩ := foldl_receive found (active found) _
      rw [decodes, failed] at read
      rw [read]
      exact concluded still others (.fault _)

/-- Two calls went out on the channel that is read and two on another one.  One of each is answered,
a response answers none, and a bad mark ends the channel. -/
theorem reading_concludes_badMark :
    let address : SocketAddress := ⟨.v4 127 0 0 1, 9000, 0⟩
    let codec := Frame.Codec.standard .standard
    let client : Client := { idle {} .default .none .standard with
      pool := ⟨[.fresh 2 address codec, .fresh 1 address codec], [(address, 2)]⟩
      pending := ⟨.ofList [("a", ⟨1, 1⟩), ("b", ⟨2, 1⟩), ("c", ⟨3, 2⟩), ("d", ⟨4, 2⟩)], 4⟩ }
    let response (id : String) : Message := ⟨1, 0, 0, .response (.ofData id none)⟩
    let messages := [response "c", ⟨1, 0, 1, .pong⟩, response "x", response "a"]
    let final := (messages.foldl takeMessage client).failChannel 1 (.badMagic [0])
    Concluded client 1 messages (some (.badMagic [0])) final
      ∧ final.pending.calls.entries = [("d", ⟨4, 2⟩)] := by
  intro address codec client response messages final
  have isActive : client.pool.isActive 1 = true := by decide +kernel
  exact ⟨reading_concludes isActive (.messages (.fault _)), by decide +kernel⟩

end RemoteCall.Client

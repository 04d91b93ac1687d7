import RemoteCall.Client.Calls
import RemoteCall.Client.Reading
import RemoteCall.Proofs.Client.Settlements

/-! # What a client does without its callers

    Frames arrive and are written, channels open and end, heartbeats leave and
    the directory changes.  None of this begins or ends a call for its caller:
    the calls, the counts of outcomes and the numbers of active calls stay, and
    all that happens to the table of pending calls is that entries leave it with
    a settlement (`Keeps`, `Quiet`).

    Such steps compose (`Quiet.trans`), so each of them is traced back to one
    operation on the table that enters nothing (`quiet_settle`), a count of
    something else (`quiet_count`), or a change of the pool of channels
    (`quiet_pool`). -/

namespace RemoteCall.Client

open Directory

/-- Every channel in use was opened. -/
def Numbered (client : Client) : Prop :=
  ∀ use ∈ client.pool.inUse, use.2 ≤ client.opened

/-- A change of a client that keeps its calls: some may be settled, none is entered, fetched or given
up. -/
structure Keeps (before after : Client) : Prop where
  calls : after.calls = before.calls
  outgoing : ∀ outgoing ∈ after.outgoing, outgoing ∈ before.outgoing
  succeeded : after.metrics.callsSucceeded = before.metrics.callsSucceeded
  failed : after.metrics.callsFailed = before.metrics.callsFailed
  entered : after.pending.entered = before.pending.entered
  remaining : ∀ entry ∈ after.pending.calls.entries, entry ∈ before.pending.calls.entries
  /-- Whatever is settled was in the table before and is gone. -/
  settled : ∃ new, after.settlements = new ++ before.settlements
    ∧ ∀ settlement ∈ new, ∃ entry ∈ before.pending.calls.entries,
      entry ∉ after.pending.calls.entries ∧ entry.2.ticket = settlement.1
  numbered : before.Numbered → after.Numbered

/-- A change that keeps the calls, and with them the numbers of active ones. -/
structure Quiet (before after : Client) : Prop extends Keeps before after where
  active : ∀ address,
    after.discovery.active.count address = before.discovery.active.count address

variable {before middle after : Client}

theorem Keeps.trans (first : Keeps before middle) (second : Keeps middle after) :
    Keeps before after where
  calls := second.calls.trans first.calls
  outgoing outgoing mem := first.outgoing outgoing (second.outgoing outgoing mem)
  succeeded := second.succeeded.trans first.succeeded
  failed := second.failed.trans first.failed
  entered := second.entered.trans first.entered
  remaining entry mem := first.remaining entry (second.remaining entry mem)
  settled := by
    obtain ⟨old, oldEq, oldGone⟩ := first.settled
    obtain ⟨new, newEq, newGone⟩ := second.settled
    refine ⟨new ++ old, by rw [newEq, oldEq, List.append_assoc], fun settlement mem => ?_⟩
    rcases List.mem_append.mp mem with mem | mem
    · obtain ⟨entry, there, gone, same⟩ := newGone settlement mem
      exact ⟨entry, first.remaining entry there, gone, same⟩
    · -- what is gone after the first change does not come back
      obtain ⟨entry, there, gone, same⟩ := oldGone settlement mem
      exact ⟨entry, there, fun back => gone (second.remaining entry back), same⟩
  numbered h := second.numbered (first.numbered h)

@[refl] theorem Quiet.refl (client : Client) : Quiet client client where
  calls := rfl
  outgoing _ mem := mem
  succeeded := rfl
  failed := rfl
  entered := rfl
  remaining _ mem := mem
  settled := ⟨[], rfl, nofun⟩
  numbered h := h
  active _ := rfl

/-- Whatever becomes of what is known about addresses. -/
theorem keeps_discovery (client : Client) (discovery : Discovery) :
    Keeps client { client with discovery := discovery } :=
  { (Quiet.refl client).toKeeps with calls := rfl }

theorem Quiet.trans (first : Quiet before middle) (second : Quiet middle after) :
    Quiet before after :=
  ⟨first.toKeeps.trans second.toKeeps,
    fun address => (second.active address).trans (first.active address)⟩

/-! ## The three kinds of steps -/

variable (client : Client)

/-- An operation on the table that enters nothing. -/
theorem quiet_settle (operation : Pending.Operation)
    (none : operation.entered client.pending.entered = []) :
    Quiet client (client.settle (client.pending.perform operation).2.1
      (client.pending.perform operation).2.2) where
  calls := rfl
  outgoing _ mem := mem
  active _ := rfl
  succeeded := rfl
  failed := rfl
  entered := by
    have counted := (client.pending.tickets_perform operation).2
    rw [none] at counted
    exact counted
  remaining entry mem := by
    have entries := client.pending.entries_perform operation
    rw [none] at entries
    exact (List.mem_filter.mp (entries.mem_iff.mp mem)).1
  settled := by
    have entries := client.pending.entries_perform operation
    rw [none] at entries
    refine ⟨_, rfl, fun settlement mem => ?_⟩
    rw [List.mem_reverse, client.pending.settled_perform, List.mem_filterMap] at mem
    obtain ⟨entry, there, settles⟩ := mem
    obtain ⟨concerned, same⟩ := Pending.Operation.passes_of_settles settles
    refine ⟨entry, there, fun back => ?_, same⟩
    exact absurd (List.mem_filter.mp (entries.mem_iff.mp back)).2 (ne_true_of_eq_false concerned)
  numbered h := h

/-- A count of something that is no outcome of a call. -/
theorem quiet_count (event : Metrics.Event)
    (other : event ≠ .callSucceeded ∧ event ≠ .callFailed) : Quiet client (client.count event) := by
  have succeeded : (client.metrics.count event).callsSucceeded = client.metrics.callsSucceeded := by
    cases event <;> first | rfl | exact absurd rfl other.1
  have failed : (client.metrics.count event).callsFailed = client.metrics.callsFailed := by
    cases event <;> first | rfl | exact absurd rfl other.2
  exact { Quiet.refl client with succeeded := succeeded, failed := failed }

/-- Another pool, whose channels in use are among those that were in use. -/
theorem quiet_pool {pool : ChannelPool} (inUse : ∀ use ∈ pool.inUse, use ∈ client.pool.inUse) :
    Quiet client { client with pool := pool } :=
  { Quiet.refl client with numbered := fun h use mem => h use (inUse use mem) }

theorem quiet_update (id : ChannelId) (change : Channel → Channel) :
    Quiet client { client with pool := client.pool.update id change } :=
  client.quiet_pool fun _ mem => mem

/-! ## Channels that end -/

theorem inUse_closeThese (pool : ChannelPool) (ids : List ChannelId) :
    (pool.closeThese ids).2.inUse = pool.inUse := by
  show (ids.foldl (fun pool id => pool.update id Channel.deactivate) pool).inUse = _
  induction ids generalizing pool with
  | nil => rfl
  | cons id ids ih => exact ih _

theorem quiet_endReading (id : ChannelId) : Quiet client (client.endReading id) :=
  (client.quiet_settle (.failAll id) rfl).trans (quiet_count _ _ (by decide))

theorem quiet_endAll (ids : List ChannelId) : Quiet client (ids.foldl endReading client) := by
  induction ids generalizing client with
  | nil => rfl
  | cons id ids ih => exact (client.quiet_endReading id).trans (ih _)

/-- Channels become inactive, in a pool whose channels in use are among those that were in use. -/
theorem quiet_closeThese {pool : ChannelPool} (ids : List ChannelId)
    (inUse : ∀ use ∈ pool.inUse, use ∈ client.pool.inUse) :
    Quiet client (client.withPool (pool.closeThese ids)) := by
  have same : (pool.closeThese ids).2.inUse = pool.inUse := inUse_closeThese pool ids
  exact (client.quiet_pool fun _ mem => inUse _ (same ▸ mem)).trans (quiet_endAll _ _)

theorem quiet_endChannel (id : ChannelId) : Quiet client (client.endChannel id) :=
  client.quiet_closeThese [id] fun _ mem => mem

theorem quiet_close : Quiet client client.close :=
  client.quiet_closeThese _ nofun

theorem quiet_closeAddress (address : SocketAddress) :
    Quiet client (client.closeAddress address) :=
  client.quiet_closeThese _ fun _ mem => (List.mem_filter.mp mem).1

/-! ## Frames that come in -/

theorem quiet_takeMessage (message : Message) : Quiet client (client.takeMessage message) := by
  have counted := client.quiet_count .frameReceived (by decide)
  obtain ⟨format, compression, id, body⟩ := message
  cases body with
  | request request => exact counted
  | ping => exact counted
  | pong => exact counted.trans (quiet_count _ _ (by decide))
  | response response =>
      have completing := (client.count .frameReceived).quiet_settle (.complete response) rfl
      rw [Pending.perform] at completing
      rw [takeMessage]
      dsimp only at completing ⊢
      generalize (client.count .frameReceived).pending.complete response = completed
        at completing ⊢
      obtain ⟨_ | _, settled, pending⟩ := completed
      · exact counted.trans (quiet_count _ _ (by decide))
      · exact counted.trans completing

theorem quiet_failChannel (id : ChannelId) (fault : Fault) :
    Quiet client (client.failChannel id fault) := by
  rw [failChannel]
  split
  · exact (client.quiet_count .protocolError (by decide)).trans (quiet_endChannel _ id)
  · exact client.quiet_endChannel id

theorem quiet_receive (id : ChannelId) (bytes : Bytes) : Quiet client (client.receive id bytes) := by
  have taking (messages : List Message) (client : Client) :
      Quiet client (messages.foldl takeMessage client) := by
    induction messages generalizing client with
    | nil => rfl
    | cons message messages ih => exact (client.quiet_takeMessage message).trans (ih _)
  rw [receive]
  split
  · rfl
  · next channel found =>
      split
      · dsimp only
        split
        · exact (client.quiet_update id _).trans (taking _ _)
        · exact ((client.quiet_update id _).trans (taking _ _)).trans (quiet_failChannel _ id _)
      · rfl

/-! ## Frames that go out -/

theorem quiet_write (channel : Channel) (message : Message) (refusal : Option String) :
    Quiet client (client.write channel message refusal).2 := by
  rw [write]
  dsimp only
  split
  · exact client.quiet_update _ _
  · exact (client.quiet_update _ _).trans (quiet_count _ _ (by decide))
  · exact client.quiet_update _ _

theorem quiet_transmit (network : Network) (channel : Channel) (message : Message) :
    Quiet client (client.transmit network channel message).2 := by
  rw [transmit]
  split
  · exact client.quiet_write ..
  · exact client.quiet_write ..
  · rfl

/-- A call that fails is settled. -/
theorem quiet_fail (id : String) (fault : Fault) : Quiet client (client.fail id fault) :=
  client.quiet_settle (.fail id fault) rfl

theorem quiet_heartbeat (network : Network) (id : ChannelId) :
    Quiet client (client.heartbeat network id).2 := by
  rw [heartbeat]
  split
  · rfl
  · next channel found =>
      split
      · have sent := (client.quiet_update id fun c =>
          { c with lastPing := channel.lastPing + 1 }).trans (quiet_transmit _ network channel
            ⟨client.options.format, client.options.compression, channel.lastPing + 1, .ping⟩)
        dsimp only
        split
        · next frame next written =>
            rw [written] at sent
            exact sent.trans (quiet_count _ _ (by decide))
        · next fault next failed =>
            rw [failed] at sent
            exact sent.trans (quiet_endChannel _ id)
      · rfl

/-! ## Channels that open -/

theorem quiet_connect (network : Network) (address : SocketAddress) :
    Quiet client (client.connect network address).2 := by
  rw [connect]
  split
  · rfl
  · rfl
  · dsimp only
    rw [withPool]
    refine Quiet.trans ?_ (quiet_endAll _ _)
    refine { Quiet.refl client with numbered := fun h use mem => ?_ }
    rw [ChannelPool.set, inUse_closeThese] at mem
    rcases List.mem_cons.mp mem with rfl | mem
    · exact Nat.le_refl _
    · exact Nat.le_succ_of_le (h use (List.mem_filter.mp mem).1)

theorem inUse_get (pool : ChannelPool) (address : SocketAddress) :
    ∀ use ∈ (pool.get address).2.inUse, use ∈ pool.inUse := by
  rw [ChannelPool.get]
  split
  · exact fun use mem => mem
  · split
    · exact fun use mem => mem
    · exact fun use mem => (List.mem_filter.mp mem).1

theorem quiet_channelTo (network : Network) (address : SocketAddress) :
    Quiet client (client.channelTo network address).2 := by
  have got := client.quiet_pool (inUse_get client.pool address)
  rw [channelTo]
  dsimp only
  split
  · exact got
  · exact got.trans (quiet_connect _ network address)

theorem idFor_forget (pool : ChannelPool) (address : SocketAddress) :
    (pool.forget address).idFor address = none := by
  refine List.lookup_eq_none_iff.mpr fun use mem => ?_
  have other : use.1 ≠ address := of_decide_eq_true (List.mem_filter.mp mem).2
  exact bne_iff_ne.mpr other.symm

theorem set_of_idFor_eq_none {pool : ChannelPool} {channel : Channel}
    (unused : pool.idFor channel.address = none) : (pool.set channel).1 = [] := by
  rw [ChannelPool.set, unused]
  rfl

/-- A new channel closes none, where the one in use was never put in. -/
theorem set_of_channel?_eq_none {pool : ChannelPool} {channel : Channel} {id : ChannelId}
    (used : pool.idFor channel.address = some id) (absent : pool.channel? id = none)
    (new : id ≠ channel.id) : (pool.set channel).1 = [] := by
  have gone : (if (pool.channel? channel.id).isSome then pool.channels
      else channel :: pool.channels).find? (·.id = id) = none := by
    split
    · exact absent
    · rw [List.find?_cons_of_neg (by simpa using new.symm)]
      exact absent
  rw [ChannelPool.set, used]
  refine List.filter_eq_nil_iff.mpr fun other mem => ?_
  obtain rfl := List.mem_singleton.mp mem
  refine ne_true_of_eq_false ?_
  exact congrArg (Option.any Channel.isActive) gone

/-- Where no active channel to an address was found, a new one closes none. -/
theorem set_get_of_none {pool : ChannelPool} {channel : Channel}
    (absent : (pool.get channel.address).1 = none)
    (new : ∀ use ∈ pool.inUse, use.2 ≠ channel.id) :
    ((pool.get channel.address).2.set channel).1 = [] := by
  rw [ChannelPool.get] at absent ⊢
  cases used : pool.idFor channel.address with
  | none => exact set_of_idFor_eq_none used
  | some id =>
      rw [used, Option.bind_some] at absent
      rw [Option.bind_some]
      cases there : pool.channel? id with
      | none =>
          obtain ⟨first, last, inUse, -⟩ := List.lookup_eq_some_iff.mp used
          have known : (channel.address, id) ∈ pool.inUse :=
            inUse ▸ List.mem_append_right first (.head last)
          exact set_of_channel?_eq_none used there (new _ known)
      | some other =>
          rw [there] at absent
          dsimp only at absent ⊢
          split at absent
          · exact nomatch absent
          · next inactive =>
              rw [if_neg inactive]
              exact set_of_idFor_eq_none (idFor_forget pool channel.address)

/-- Opening a channel that closes none concerns no call that waits. -/
theorem pending_connect (network : Network) (address : SocketAddress)
    (closesNone : ∀ codec, (client.pool.set (.fresh (client.opened + 1) address codec)).1 = []) :
    (client.connect network address).2.pending = client.pending := by
  rw [connect]
  cases network.dial address with
  | refused detail => rfl
  | timedOut => rfl
  | connected =>
      dsimp only [withPool, count]
      rw [closesNone]
      rfl

theorem pending_channelTo (numbered : client.Numbered) (network : Network)
    (address : SocketAddress) :
    (client.channelTo network address).2.pending = client.pending := by
  rw [channelTo]
  dsimp only
  split
  · rfl
  · next absent =>
      refine pending_connect _ network address fun codec => ?_
      exact set_get_of_none absent fun use mem => Nat.ne_of_lt (Nat.lt_succ_of_le (numbered use mem))

/-! ## Addresses that are looked up -/

/-- Choosing an address reads the numbers of active calls and leaves them. -/
theorem active_find (discovery : Discovery) (store : Store Event) (numbers : List Nat)
    (strategyName key : String) :
    (discovery.find store numbers strategyName key).2.1.active = discovery.active := by
  have prepared : (discovery.prepare store strategyName key).2.1.active = discovery.active := by
    rw [Discovery.prepare]
    cases discovery.cache.lookup store key with
    | mk list rest => cases list <;> rfl
  rw [Discovery.find]
  split
  · next fault next store' failed =>
      rw [failed] at prepared
      exact prepared
  · next list strategy next store' found =>
      rw [found] at prepared
      exact prepared

theorem quiet_find (store : Store Event) (numbers : List Nat) (key : String) :
    Quiet client { client with
      discovery := (client.discovery.find store numbers client.strategy key).2.1 } :=
  { Quiet.refl client with
    active := fun address => congrArg (·.count address) (active_find ..) }

theorem quiet_absorb (event : Event) : Quiet client (client.absorb event) :=
  { Quiet.refl client with active := fun _ => rfl }

end RemoteCall.Client

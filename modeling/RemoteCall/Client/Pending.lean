import RemoteCall.Dictionary
import RemoteCall.Fault
import RemoteCall.Message

/-!
# Pending calls

A call waits for its response under the id of its request, together with the number of the channel
that it went out on. Entering a call gives a ticket; the operation that removes the call from the
table settles its ticket, so that no ticket is settled twice.

Whether somebody still holds a ticket makes no difference to the table.
-/

namespace RemoteCall

/-- Identifies a channel among all channels that there ever were. -/
abbrev ChannelId := Nat

/-- Identifies an entered call among all that were ever entered in a table; the first one is 1. -/
abbrev Ticket := Nat

/-- How the wait for a response ended. -/
inductive Settlement where
  /-- The response came. -/
  | answered (response : Response)
  /-- The call failed before a response came. -/
  | failed (fault : Fault)
  /-- The call was removed without a result. -/
  | withdrawn
  deriving DecidableEq, Repr

/-- A call that waits. -/
structure Waiting where
  ticket : Ticket
  channel : ChannelId
  deriving DecidableEq, Repr

/-- The calls that wait, by the ids of their requests. -/
structure Pending where
  calls : Dictionary Waiting
  /-- How many calls were ever entered. -/
  entered : Nat

namespace Pending

/-- No call was ever entered. -/
def empty : Pending := ⟨.empty, 0⟩

/-- What an operation settles. -/
abbrev Settled := List (Ticket × Settlement)

/-- Enters a call. Another one under the same id fails. -/
def put (pending : Pending) (id : String) (channel : ChannelId) : Ticket × Settled × Pending :=
  let ticket := pending.entered + 1
  let replaced :=
    match pending.calls.get? id with
    | some other => [(other.ticket, .failed (.notPending id))]
    | none => []
  (ticket, replaced, ⟨pending.calls.insert id ⟨ticket, channel⟩, ticket⟩)

/-- Removes a call with a settlement; tells whether there was one. -/
def settle (pending : Pending) (id : String) (settlement : Settlement) :
    Bool × Settled × Pending :=
  match pending.calls.get? id with
  | some call =>
    (true, [(call.ticket, settlement)], { pending with calls := pending.calls.erase id })
  | none => (false, [], pending)

/-- Hands a response to the call that it answers. -/
def complete (pending : Pending) (response : Response) : Except Fault Unit × Settled × Pending :=
  match pending.settle response.requestId (.answered response) with
  | (true, settled, pending) => (.ok (), settled, pending)
  | (false, settled, pending) => (.error (.notPending response.requestId), settled, pending)

/-- Fails a call. -/
def fail (pending : Pending) (id : String) (fault : Fault) : Bool × Settled × Pending :=
  pending.settle id (.failed fault)

/-- Removes a call without a result. -/
def remove (pending : Pending) (id : String) : Bool × Settled × Pending :=
  pending.settle id .withdrawn

/-- The calls that went out on a channel, with their ids. -/
def callsOn (pending : Pending) (channel : ChannelId) : List (String × Waiting) :=
  pending.calls.entries.filter fun call => call.2.channel = channel

/-- Fails all calls that went out on a channel. -/
def failAll (pending : Pending) (channel : ChannelId) : Nat × Settled × Pending :=
  let calls := pending.callsOn channel
  (calls.length, calls.map fun call => (call.2.ticket, .failed .connectionClosed),
    { pending with calls := pending.calls.filter fun _ call => call.channel ≠ channel })

/-- Whether a call waits under an id. -/
def contains (pending : Pending) (id : String) : Bool :=
  pending.calls.contains id

/-- How many calls wait. -/
def size (pending : Pending) : Nat :=
  pending.calls.size

end Pending

end RemoteCall

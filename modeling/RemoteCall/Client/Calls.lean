import RemoteCall.Client.Basic
import RemoteCall.Client.Proxy

/-!
# The outcomes of calls

The outcome of a call is fetched once it is settled, or once its time is over. A call can be given up
at any time, before or after its outcome was fetched. While the outcome is neither fetched nor the call
given up, the call counts as one in progress for its address.
-/

namespace RemoteCall

/-- The outcome that a settlement means to the caller. -/
def Settlement.outcome : Settlement → Except Fault Response
  | .answered response => .ok response
  | .failed fault => .error fault
  | .withdrawn => .error .connectionClosed

namespace Client

/-- Sends a typed call of a method; `numbers` are for the draws of the strategy. -/
def invoke {α : Type} (client : Client) (network : Network)
    (store : Directory.Store Directory.Event) (numbers : List Nat) (identity : ServiceIdentity)
    (id method : String) (form : Blob.Form α) (argument : α) : Sending :=
  match Proxy.request identity id method form argument with
  | .ok request => client.send network store numbers request
  | .error fault => ⟨.error fault, none, client, store⟩

/-- The call with a ticket. -/
def call? (client : Client) (ticket : Ticket) : Option Call :=
  client.calls.find? (·.ticket = ticket)

/-- The settlement of a call. -/
def settlement? (client : Client) (ticket : Ticket) : Option Settlement :=
  client.settlements.lookup ticket

/-- How an outcome is counted. -/
def event : Except Fault Response → Metrics.Event
  | .ok response => if response.isSuccess then .callSucceeded else .callFailed
  | .error _ => .callFailed

/-- The outcome of a call is fetched. -/
def resolve (client : Client) (call : Call) (outcome : Except Fault Response) : Client :=
  { (client.count (event outcome)).endActive call.address with
    calls := client.calls.map fun c =>
      if c.ticket = call.ticket then { c with isResolved := true } else c }

/-- Removes what waits under the id of a call. -/
def withdraw (client : Client) (call : Call) : Client :=
  let (_, settled, pending) := client.pending.remove call.requestId
  client.settle settled pending

/-- Fetches the outcome of a call, if it is settled and was not fetched before. -/
def poll (client : Client) (ticket : Ticket) : Option (Except Fault Response) × Client :=
  match client.call? ticket with
  | none => (none, client)
  | some call =>
    if call.isResolved then (none, client)
    else
      match client.settlement? ticket with
      | none => (none, client)
      | some settlement => (some settlement.outcome, client.resolve call settlement.outcome)

/-- Fetches the outcome of a call whose time is over: that of its settlement, or else that it took too
long. -/
def expire (client : Client) (ticket : Ticket) : Option (Except Fault Response) × Client :=
  match client.call? ticket with
  | none => (none, client)
  | some call =>
    if call.isResolved then (none, client)
    else
      match client.settlement? ticket with
      | some settlement => (some settlement.outcome, client.resolve call settlement.outcome)
      | none =>
        let outcome := .error (.timeout call.requestId)
        (some outcome, (client.withdraw call).resolve call outcome)

/-- Gives a call up. -/
def drop (client : Client) (ticket : Ticket) : Client :=
  match client.call? ticket with
  | none => client
  | some call =>
    let client := client.withdraw call
    let client := if call.isResolved then client else client.endActive call.address
    { client with calls := client.calls.filter fun c => c.ticket ≠ ticket }

end Client

end RemoteCall

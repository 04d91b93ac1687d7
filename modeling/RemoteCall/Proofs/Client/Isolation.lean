import RemoteCall.Proofs.Client.Tracked

/-! # What calls of one client have to do with each other

    Calls wait under the ids of their requests, and ids may come again.  A call
    whose id is used again fails at once, so that an unsettled call always
    waits under its id itself (`Placed`), and neither its end nor that of any
    call with another id concerns a call that waits.  The exceptions are calls
    that are settled: giving one up withdraws whatever waits under its id, be
    it a later call (`Isolated.takes`, `takes_later_call`), and when such a
    call's own request is still on its way and cannot be written, the later call
    fails with it (`Isolated.fails`, `fails_later_call`).  Where nobody does
    this to a call, it comes to the first response with its id (`Answers`).

    The route: a call that waits undisturbed still does so after a step, or the
    step has brought its response, and so by induction on the run
    (`Accounts.awaits_run`).  From then on every outcome that is fetched is the
    answer (`Accounts.resolves`). -/

namespace RemoteCall.Client

open Directory

variable {client : Client} {fetched : Fetched}

/-! ## Calls that wait for their response -/

/-- The responses that a happening brings. -/
def brings (client : Client) : Happening → List Response
  | .receives channel bytes => responsesOf (client.arriving channel bytes)
  | _ => []

/-- The responses that happenings bring, one after another. -/
def responses : Client → List Happening → List Response
  | _, [] => []
  | client, happening :: later =>
    client.brings happening ++ responses (client.step happening).2 later

/-- What disturbs a call that was entered under an id: the id is used again, a request with the id
cannot be written, the time of the call runs out, or a call with the id is given up, be it this one
or an earlier one. -/
def Disturbs (client : Client) (id : String) (ticket : Ticket) : Happening → Prop
  | .begins _ _ _ request => request.id = id
  | .writes network other => ∃ outgoing, client.outgoing? other = some outgoing
    ∧ outgoing.request.id = id ∧ ∃ fault, (client.endSend network outgoing).1 = .error fault
  | .expires other => other = ticket
  | .drops other => (other, id) ∈ client.held
  | _ => False

/-- None of some happenings disturbs a call that was entered under an id. -/
def Undisturbed (client : Client) (id : String) (ticket : Ticket) : List Happening → Prop
  | [] => True
  | happening :: later =>
    ¬ client.Disturbs id ticket happening ∧ (client.step happening).2.Undisturbed id ticket later

theorem responses_append (client : Client) (happenings later : List Happening) :
    client.responses (happenings ++ later)
      = client.responses happenings ++ (client.run happenings).2.responses later := by
  induction happenings generalizing client with
  | nil => rfl
  | cons happening happenings ih =>
      simp only [List.cons_append, responses, run, ih, List.append_assoc]

section Awaits

variable {id : String} {ticket : Ticket} {channel : ChannelId} {happening : Happening}
  {later : List Happening}

theorem Undisturbed.inTime (undisturbed : client.Undisturbed id ticket later) :
    .expires ticket ∉ later := by
  induction later generalizing client with
  | nil => exact List.not_mem_nil
  | cons happening later ih =>
      rintro (_ | ⟨_, mem⟩)
      · exact undisturbed.1 rfl
      · exact ih undisturbed.2 mem

/-- Undisturbed, a call is not given up. -/
theorem Undisturbed.held_run (undisturbed : client.Undisturbed id ticket later)
    (known : (ticket, id) ∈ client.held) : (ticket, id) ∈ (client.run later).2.held := by
  induction later generalizing client with
  | nil => exact known
  | cons happening later ih =>
      refine ih undisturbed.2 (mem_held_step known fun drops => undisturbed.1 ?_)
      rw [drops]
      exact known

/-- Undisturbed and unanswered, a call that waits is not touched. -/
theorem Undisturbed.not_touches (undisturbed : client.Undisturbed id ticket (happening :: later))
    (placed : client.Placed) (mem : (id, ⟨ticket, channel⟩) ∈ client.pending.calls.entries)
    (unanswered : ∀ response ∈ client.brings happening, response.requestId ≠ id) :
    ¬ client.Touches happening id := by
  obtain ⟨undisturbed, -⟩ := undisturbed
  cases happening with
  | begins network store numbers request => exact fun same => undisturbed same.symm
  | writes network other => exact undisturbed
  | receives channel bytes =>
      rintro ⟨response, came, same⟩
      exact unanswered response came same
  | expires other =>
      rintro ⟨call, found, isOpen, unsettled, rfl⟩
      obtain rfl := call?_ticket found
      -- an unsettled call waits itself under its id, where this one does
      have known := mem_held (List.mem_of_find?_eq_some found)
      exact undisturbed (placed.ticket_eq (.inl known) unsettled mem rfl).symm
  | drops other =>
      rintro ⟨call, found, rfl⟩
      obtain rfl := call?_ticket found
      exact undisturbed (mem_held (List.mem_of_find?_eq_some found))
  | _ => exact False.elim

/-- The first response with the id of a call that waits settles the call. -/
theorem settles_step (sound : client.Sound)
    (mem : (id, ⟨ticket, channel⟩) ∈ client.pending.calls.entries) {response : Response}
    (first : (client.brings happening).find? (fun response => response.requestId = id)
      = some response) :
    (client.step happening).2.settlement? ticket = some (.answered response) := by
  cases happening with
  | receives other bytes =>
      obtain ⟨middle, taken, operations, ended, -⟩ := client.follows_receive other bytes
      refine (taken.trans ended).toCarries.settles sound mem ?_
      have answered := fate_completions (client.arriving other bytes) id channel
      rw [Pending.fate, List.findSome?_append, ← Pending.fate, answered]
      rw [brings] at first
      rw [first]
      rfl
  | _ => cases first

/-- An undisturbed call waits as long as its channel is active and no response has its id, and the
first one that has settles it. -/
theorem Accounts.awaits_run (accounts : Accounts fetched client) (placed : client.Placed)
    (mem : (id, ⟨ticket, channel⟩) ∈ client.pending.calls.entries) (known : channel ≤ client.opened)
    {during : List Happening} (undisturbed : client.Undisturbed id ticket during)
    (isActive : (client.run during).2.pool.isActive channel = true) :
    match (client.responses during).find? fun response => response.requestId = id with
    | some response => (client.run during).2.settlement? ticket = some (.answered response)
    | none => (id, ⟨ticket, channel⟩) ∈ (client.run during).2.pending.calls.entries := by
  induction during generalizing fetched client with
  | nil => exact mem
  | cons happening later ih =>
      rw [responses, List.find?_append]
      cases first : (client.brings happening).find? fun response => response.requestId = id with
      | some response =>
          exact (accounts.step happening).stays_run (settles_step accounts.sound mem first) later
      | none =>
          have unanswered := List.find?_eq_none.mp first
          have untouched := undisturbed.not_touches placed mem (by simpa using unanswered)
          obtain ⟨operations, follows, named⟩ := client.does_step happening
          have opened := Nat.le_trans known follows.opened
          refine ih (accounts.step happening) (accounts.placed_step placed happening) ?_ opened
            undisturbed.2 isActive
          exact Does.spares ⟨operations, follows, named⟩ mem untouched known
            (isActive_of_run opened isActive)

/-- The channel may end with the response. -/
theorem Accounts.answered_run (accounts : Accounts fetched client) (placed : client.Placed)
    (mem : (id, ⟨ticket, channel⟩) ∈ client.pending.calls.entries) (known : channel ≤ client.opened)
    {during : List Happening} (undisturbed : client.Undisturbed id ticket during)
    (isActive : (client.run during).2.pool.isActive channel = true) {response : Response}
    (first : (client.responses (during ++ [happening])).find?
      (fun response => response.requestId = id) = some response) :
    (client.run (during ++ [happening])).2.settlement? ticket = some (.answered response) := by
  have awaited := accounts.awaits_run placed mem known undisturbed isActive
  rw [responses_append, List.find?_append] at first
  rw [run_append]
  cases early : (client.responses during).find? fun response => response.requestId = id with
  | some other =>
      rw [early] at first awaited
      obtain rfl := Option.some.inj first
      exact (accounts.run during).stays_run awaited [happening]
  | none =>
      rw [early] at first awaited
      rw [responses, responses, List.append_nil] at first
      exact settles_step (accounts.run during).sound awaited first

end Awaits

/-! ## Isolation -/

/-- An entry is in the table, and its call is not settled. -/
def Waits (client : Client) (entry : String × Waiting) : Prop :=
  entry ∈ client.pending.calls.entries ∧ client.settlement? entry.2.ticket = none

/-- The channel of an entry does not end with a request that cannot be written: that one goes over
another channel, or it was not the operating system that refused it. -/
def Spared (entry : String × Waiting) (outgoing : Outgoing) (fault : Fault) : Prop :=
  entry.2.channel = outgoing.channel.id → ∀ detail, fault ≠ .io detail

/-- Undisturbed, a call that is entered comes to the first response with its id, if its channel is
active until that is there, whatever happens afterwards. -/
def Answers (client : Client) (network : Network) (store : Store Event) (numbers : List Nat)
    (request : Request) : Prop :=
  let begun := client.beginSend network store numbers request
  ∀ outgoing, begun.1 = .ok outgoing →
    ∀ during way bytes response, begun.2.1.Undisturbed request.id outgoing.ticket during →
      (begun.2.1.run during).2.pool.isActive outgoing.channel.id = true →
      (begun.2.1.responses (during ++ [.receives way bytes])).find?
          (fun response => response.requestId = request.id) = some response →
      ∀ rest,
        let outcome := begun.2.1.run (during ++ .receives way bytes :: rest)
        outcome.2.settlement? outgoing.ticket = some (.answered response)
          ∧ (∀ one ∈ outcome.1, one.1 = outgoing.ticket → one.2 = .ok response)
          ∧ (.drops outgoing.ticket ∉ rest → (outgoing.ticket, .ok response) ∈ outcome.1
            ∨ (outcome.2.poll outgoing.ticket).1 = some (.ok response))

/-- What calls have to do with each other. -/
structure Isolated (client : Client) : Prop where
  /-- A call that was not given up is settled or waits under the id of its request, and so is one
  whose request is on its way. -/
  placed : client.Placed
  /-- Fetching an outcome concerns no call that waits. -/
  polls : ∀ ticket entry, client.Waits entry → (client.poll ticket).2.Waits entry
  /-- The time that runs out is that of one call only. -/
  expires : ∀ ticket entry, client.Waits entry → entry.2.ticket ≠ ticket →
    (client.expire ticket).2.Waits entry
  /-- A call that is not settled is given up without any other one. -/
  drops : ∀ ticket entry, client.settlement? ticket = none → client.Waits entry →
    entry.2.ticket ≠ ticket → (client.drop ticket).Waits entry
  /-- A call that is given up takes along what waits under its id, and nothing else.  When it is
  settled, that is the entry of another call. -/
  takes : ∀ call ∈ client.held, ∀ entry, client.Waits entry →
    if entry.1 = call.2 then (client.drop call.1).settlement? entry.2.ticket = some .withdrawn
    else (client.drop call.1).Waits entry
  /-- A request that is written concerns no call that waits. -/
  writes : ∀ network outgoing frame, (client.endSend network outgoing).1 = .ok frame →
    ∀ entry, client.Waits entry → (client.endSend network outgoing).2.Waits entry
  /-- A call that is not settled and whose request cannot be written fails without any other one,
  apart from the calls of a channel that ends. -/
  refuses : ∀ network, ∀ outgoing ∈ client.outgoing, ∀ fault,
    (client.endSend network outgoing).1 = .error fault →
      client.settlement? outgoing.ticket = none → ∀ entry, client.Waits entry →
        entry.2.ticket ≠ outgoing.ticket → Spared entry outgoing fault →
          (client.endSend network outgoing).2.Waits entry
  /-- A request that cannot be written fails what waits under its id, and nothing else, apart from
  the calls of a channel that ends.  When its call is settled, that is another call. -/
  fails : ∀ network outgoing fault, (client.endSend network outgoing).1 = .error fault →
    ∀ entry, client.Waits entry →
      if entry.1 = outgoing.request.id then
        (client.endSend network outgoing).2.settlement? entry.2.ticket = some (.failed fault)
      else Spared entry outgoing fault → (client.endSend network outgoing).2.Waits entry
  answers : ∀ network store numbers request, client.Answers network store numbers request

theorem Sound.waits_iff (sound : client.Sound) (entry : String × Waiting) :
    client.Waits entry ↔ entry ∈ client.pending.calls.entries := by
  refine ⟨And.left, fun mem => ⟨mem, ?_⟩⟩
  cases found : client.settlement? entry.2.ticket with
  | none => rfl
  | some settlement => exact absurd rfl (sound.ticket_ne_of_settlement? found entry mem)

/-- What one call under an id makes of an entry when it is withdrawn. -/
theorem fate_remove (entry : String × Waiting) (id : String) :
    Pending.fate entry.1 entry.2.channel [.remove id]
      = if id = entry.1 then some .withdrawn else none := by
  rw [Pending.fate_cons, Pending.Operation.settlement?]
  split <;> rfl

theorem carries_withdraw (client : Client) (call : Call) :
    Carries client [.remove call.requestId] (client.withdraw call) :=
  client.carries_settle (.remove call.requestId)

theorem carries_drop {ticket : Ticket} {call : Call} (found : client.call? ticket = some call) :
    Carries client [.remove call.requestId] (client.drop ticket) := by
  obtain ⟨pending, settlements⟩ := client.carries_withdraw call
  rw [drop, found]
  dsimp only
  split <;> exact ⟨pending, settlements⟩

theorem waits_poll (ticket : Ticket) {entry : String × Waiting} (waits : client.Waits entry) :
    (client.poll ticket).2.Waits entry := by
  rw [Client.poll]
  split
  · exact waits
  · split
    · exact waits
    · split <;> exact waits

theorem Accounts.waits_expire (accounts : Accounts fetched client) (placed : client.Placed)
    {ticket : Ticket} {entry : String × Waiting} (waits : client.Waits entry)
    (other : entry.2.ticket ≠ ticket) : (client.expire ticket).2.Waits entry := by
  rw [(accounts.expire ticket).sound.waits_iff, Client.expire]
  split
  · exact waits.1
  · next call found =>
      obtain rfl := call?_ticket found
      split
      · exact waits.1
      · split
        · exact waits.1
        · next unsettled =>
            have known := mem_held (List.mem_of_find?_eq_some found)
            refine (client.carries_withdraw call).kept waits.1 ?_
            rw [fate_remove, if_neg fun same => ?_]
            exact other (placed.ticket_eq (.inl known) unsettled waits.1 same.symm)

/-- What a call takes along when it is given up. -/
theorem Accounts.takes (accounts : Accounts fetched client) {call : Ticket × String}
    (known : call ∈ client.held) {entry : String × Waiting} (waits : client.Waits entry) :
    if entry.1 = call.2 then (client.drop call.1).settlement? entry.2.ticket = some .withdrawn
    else (client.drop call.1).Waits entry := by
  obtain ⟨one, mem, rfl⟩ := List.mem_map.mp known
  have carries := carries_drop (accounts.sound.call?_of_mem mem)
  split
  · next same =>
      refine carries.settles accounts.sound waits.1 ?_
      rw [fate_remove, if_pos same.symm]
  · next apart =>
      rw [(accounts.drop one.ticket).sound.waits_iff]
      refine carries.kept waits.1 ?_
      rw [fate_remove, if_neg (Ne.symm apart)]

theorem Accounts.waits_drop (accounts : Accounts fetched client) (placed : client.Placed)
    {ticket : Ticket} (unsettled : client.settlement? ticket = none) {entry : String × Waiting}
    (waits : client.Waits entry) (other : entry.2.ticket ≠ ticket) :
    (client.drop ticket).Waits entry := by
  cases found : client.call? ticket with
  | none =>
      rw [Client.drop, found]
      exact waits
  | some call =>
      obtain rfl := call?_ticket found
      have known := mem_held (List.mem_of_find?_eq_some found)
      have taken := accounts.takes known waits
      rw [if_neg fun same => other (placed.ticket_eq (.inl known) unsettled waits.1 same)] at taken
      exact taken

/-- What the end of a write makes of an entry. -/
theorem fate_fail (entry : String × Waiting) (id : String) (fault : Fault) (ids : List ChannelId) :
    Pending.fate entry.1 entry.2.channel (.fail id fault :: endings ids)
      = if id = entry.1 then some (.failed fault)
        else Pending.fate entry.1 entry.2.channel (endings ids) := by
  rw [Pending.fate_cons, Pending.Operation.settlement?]
  split <;> rfl

theorem fate_endings {entry : String × Waiting} {ids : List ChannelId}
    (other : entry.2.channel ∉ ids) :
    Pending.fate entry.1 entry.2.channel (endings ids) = none := by
  refine List.findSome?_eq_none_iff.mpr fun operation mem => ?_
  obtain ⟨id, ends, rfl⟩ := List.mem_map.mp mem
  exact if_neg fun same : id = entry.2.channel => other (same ▸ ends)

theorem Accounts.endSend (accounts : Accounts fetched client) (network : Network)
    (outgoing : Outgoing) : Accounts fetched (client.endSend network outgoing).2 :=
  accounts.quiet (client.quiet_endSend network outgoing)

theorem Accounts.waits_endSend (accounts : Accounts fetched client) {network : Network}
    {outgoing : Outgoing} {frame : Bytes} (written : (client.endSend network outgoing).1 = .ok frame)
    {entry : String × Waiting} (waits : client.Waits entry) :
    (client.endSend network outgoing).2.Waits entry := by
  rcases client.endSend_cases network outgoing with
    ⟨_, -, follows⟩ | ⟨fault, ids, refused, -, -⟩
  · rw [(accounts.endSend network outgoing).sound.waits_iff]
    exact follows.kept waits.1 rfl
  · cases written.symm.trans refused

/-- What fails with a request that cannot be written. -/
theorem Accounts.fails (accounts : Accounts fetched client) {network : Network}
    {outgoing : Outgoing} {fault : Fault}
    (refused : (client.endSend network outgoing).1 = .error fault) {entry : String × Waiting}
    (waits : client.Waits entry) :
    if entry.1 = outgoing.request.id then
      (client.endSend network outgoing).2.settlement? entry.2.ticket = some (.failed fault)
    else Spared entry outgoing fault → (client.endSend network outgoing).2.Waits entry := by
  rcases client.endSend_cases network outgoing with
    ⟨frame, written, -⟩ | ⟨other, ids, same, ends, follows⟩
  · cases refused.symm.trans written
  · obtain rfl := Except.error.inj (refused.symm.trans same)
    split
    · next same =>
        refine follows.settles accounts.sound waits.1 ?_
        rw [fate_fail, if_pos same.symm]
    · next apart =>
        intro spared
        rw [(accounts.endSend network outgoing).sound.waits_iff]
        refine follows.kept waits.1 ?_
        rw [fate_fail, if_neg (Ne.symm apart), fate_endings]
        intro mem
        obtain ⟨own, detail, io⟩ := ends _ mem
        exact spared own detail io

theorem Accounts.waits_refused (accounts : Accounts fetched client) (placed : client.Placed)
    {network : Network} {outgoing : Outgoing} (known : outgoing ∈ client.outgoing) {fault : Fault}
    (refused : (client.endSend network outgoing).1 = .error fault)
    (unsettled : client.settlement? outgoing.ticket = none) {entry : String × Waiting}
    (waits : client.Waits entry) (other : entry.2.ticket ≠ outgoing.ticket)
    (spared : Spared entry outgoing fault) : (client.endSend network outgoing).2.Waits entry := by
  have failed := accounts.fails refused waits
  rw [if_neg fun same => other
    (placed.ticket_eq (.inr (mem_underway known)) unsettled waits.1 same)] at failed
  exact failed spared

/-- An undisturbed call that waits comes to the first response with its id, if its channel is active
until that is there. -/
theorem Accounts.resolves (accounts : Accounts fetched client) (placed : client.Placed)
    {id : String} {ticket : Ticket} {channel : ChannelId}
    (mem : (id, ⟨ticket, channel⟩) ∈ client.pending.calls.entries)
    (opened : channel ≤ client.opened) {during : List Happening}
    {way : ChannelId} {bytes : Bytes} {response : Response}
    (undisturbed : client.Undisturbed id ticket during)
    (isActive : (client.run during).2.pool.isActive channel = true)
    (first : (client.responses (during ++ [.receives way bytes])).find?
      (fun response => response.requestId = id) = some response) (rest : List Happening) :
    let outcome := client.run (during ++ .receives way bytes :: rest)
    outcome.2.settlement? ticket = some (.answered response)
      ∧ (∀ one ∈ outcome.1, one.1 = ticket → one.2 = .ok response)
      ∧ (.drops ticket ∉ rest →
        (ticket, .ok response) ∈ outcome.1 ∨ (outcome.2.poll ticket).1 = some (.ok response)) := by
  intro outcome
  have answered := accounts.answered_run placed mem opened undisturbed isActive first
  have inTime : .expires ticket ∉ during ++ [.receives way bytes] := by
    simpa using undisturbed.inTime
  obtain ⟨settled, only⟩ := accounts.run_of_settled inTime answered rest
  rw [← List.append_cons] at settled only
  refine ⟨settled, only, fun kept => ?_⟩
  obtain ⟨call, known, rfl, rfl, isOpen⟩ := accounts.sound.waits _ mem
  have unfetched : call.ticket ∉ fetched.map (·.1) := by
    rw [← accounts.tallied.resolved call known, isOpen]
    exact Bool.false_ne_true
  have kept' : .drops call.ticket ∉ .receives way bytes :: rest := by simpa using kept
  have still := held_run (undisturbed.held_run (mem_held known)) kept'
  rw [← congrArg Prod.snd (client.run_append during (.receives way bytes :: rest))] at still
  rcases (accounts.run _).fetched_or_poll still settled with there | polled
  · rw [List.map_append, List.mem_append] at there
    obtain ⟨one, came, same⟩ := List.mem_map.mp (there.resolve_left unfetched)
    have whole : one = (call.ticket, .ok response) := Prod.ext same (only one came same)
    exact .inl (whole ▸ came)
  · exact .inr polled

theorem Accounts.answers (accounts : Accounts fetched client) (placed : client.Placed)
    (network : Network) (store : Store Event) (numbers : List Nat) (request : Request) :
    client.Answers network store numbers request := by
  intro outgoing handed during way bytes response undisturbed isActive first rest
  obtain ⟨mem, opened⟩ :=
    client.beginSend_waits network store numbers request accounts.sound handed
  exact (accounts.beginSend network store numbers request).resolves
    (accounts.placed_step placed (.begins network store numbers request)) mem opened undisturbed
    isActive first rest

/-- **What calls of one client have to do with each other after every run.** -/
theorem run_isolated (settings : Settings) (format : Envelope.Format)
    (compression : Compression.Method) (catalogue : Extension.Catalogue)
    (happenings : List Happening) :
    Isolated ((idle settings format compression catalogue).run happenings).2 := by
  have idle := accounts_idle settings format compression catalogue
  have accounts := idle.run happenings
  have placed := idle.placed_run (by rintro _ (mem | mem) <;> cases mem) happenings
  exact
    { placed := placed
      polls := fun ticket _ waits => waits_poll ticket waits
      expires := fun _ _ waits other => accounts.waits_expire placed waits other
      drops := fun _ _ unsettled waits other => accounts.waits_drop placed unsettled waits other
      takes := fun _ known _ waits => accounts.takes known waits
      writes := fun _ _ _ written _ waits => accounts.waits_endSend written waits
      refuses := fun _ _ known _ refused unsettled _ waits other spared =>
        accounts.waits_refused placed known refused unsettled waits other spared
      fails := fun _ _ _ refused _ waits => accounts.fails refused waits
      answers := accounts.answers placed }

/-! ### An id that is used twice -/

/-- A network in which everybody can be reached. -/
def allConnected : Network :=
  ⟨fun _ => .connected, fun _ => false, fun _ => none⟩

/-- A directory with one address of a service. -/
def echoes : Store Event :=
  { Store.empty with tree := Tree.empty.insert "/my-rpc/Echo/127.0.0.1:9000" [] }

/-- A request to the service. -/
def echo (id : String) (parameters : Bytes) : Request :=
  ⟨id, "Echo", "say", [], parameters, "", ""⟩

/-- A request to the service begins to go out. -/
def asks (id : String) (parameters : Bytes) : Happening :=
  .begins allConnected echoes [] (echo id parameters)

/-- The frame that answers the request with an id. -/
def answer (id : String) : Bytes :=
  ((Frame.Codec.standard .standard).encode ⟨1, 0, 0, .response (.ofData id none)⟩ []).2.1

/-- The answer to the request with an id comes in on the first channel. -/
def hears (id : String) : Happening :=
  .receives 1 (answer id)

/-- A call is entered while the request of another one with its id is on its way.  The other one
fails, its request is written and its outcome is fetched, a third call is made and given up: none of
this keeps the call from its response. -/
theorem answers_second_call :
    let client := ((idle {} .default .none .standard).run [asks "a" []]).2
    let begun := client.beginSend allConnected echoes [] (echo "a" [])
    let during := [.writes allConnected 1, .writes allConnected 2, .polls 1, asks "b" [], .drops 3]
    (begun.2.1.run (during ++ hears "a" :: [.polls 2])).2.settlement? 2
      = some (.answered (.ofData "a" none)) := by
  intro client begun during
  have told : begun.1.map (fun outgoing => (outgoing.ticket, outgoing.channel.id)) = .ok (2, 1) := by
    decide +kernel
  cases handed : begun.1 with
  | error fault => rw [handed] at told; cases told
  | ok outgoing =>
      rw [handed] at told
      obtain ⟨ticket, channel⟩ := Prod.mk.inj (Except.ok.inj told)
      have isolated : Isolated client := run_isolated {} .default .none .standard [asks "a" []]
      have answered := isolated.answers allConnected echoes [] (echo "a" []) outgoing handed during
        1 (answer "a") (.ofData "a" none) ?undisturbed ?isActive ?first [.polls 2]
      case undisturbed =>
        have written (now : Client) (ticket : Ticket)
            (one : (now.outgoing? ticket).all fun outgoing =>
              (now.endSend allConnected outgoing).1.toBool) :
            ¬ now.Disturbs "a" 2 (.writes allConnected ticket) := by
          rintro ⟨other, found, -, fault, refused⟩
          rw [found, Option.all_some, refused] at one
          cases one
        have dropped (now : Client) (ticket : Ticket) (other : (ticket, "a") ∉ now.held) :
            ¬ now.Disturbs "a" 2 (.drops ticket) := other
        rw [ticket]
        exact ⟨written _ 1 (by decide +kernel), written _ 2 (by decide +kernel), id,
          show "b" ≠ "a" by decide, dropped _ 3 (by decide +kernel), trivial⟩
      case isActive =>
        rw [channel]
        decide +kernel
      case first => decide +kernel
      rw [ticket] at answered
      exact answered.1

/-- The first of two calls with one id is given up after the second was sent: this takes the entry
of the second call away, and the response to it, which comes in on a live channel, is lost. -/
theorem takes_later_call :
    let client := ((idle {} .default .none .standard).run [asks "a" [], .writes allConnected 1,
      asks "a" [], .writes allConnected 2]).2
    client.Waits ("a", ⟨2, 1⟩)
      ∧ ¬ (client.drop 1).Waits ("a", ⟨2, 1⟩)
      ∧ (client.run [.drops 1, hears "a"]).2.pool.isActive 1 = true
      ∧ (client.run [.drops 1, hears "a", .polls 2]).1 = [(2, .error .connectionClosed)] := by
  intro client
  exact ⟨⟨by decide +kernel, by decide +kernel⟩, fun waits => absurd waits.1 (by decide +kernel),
    by decide +kernel, by decide +kernel⟩

/-- The first of two calls with one id has a request that is too long, and the second is entered and
written before that is noticed: the second call fails in place of the first, and the response to it,
which comes in on a live channel, is lost. -/
theorem fails_later_call :
    let settings : Settings := { transport := { maxFrameLength := 200 } }
    let client := ((idle settings .default .none .standard).run
      [asks "a" (List.replicate 200 0), asks "a" [], .writes allConnected 2]).2
    let failed := client.run [.writes allConnected 1, hears "a", .polls 2]
    client.Waits ("a", ⟨2, 1⟩)
      ∧ failed.1 = [(2, .error (.frameTooLong 231))]
      ∧ failed.2.pool.isActive 1 = true := by
  intro settings client failed
  exact ⟨⟨by decide +kernel, by decide +kernel⟩, by decide +kernel, by decide +kernel⟩

end RemoteCall.Client

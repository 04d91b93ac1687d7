import RemoteCall.Client.Pending
import RemoteCall.Proofs.Dictionary
import Mathlib.Data.List.Nodup

/-! # Every call that waits is settled once

    The table of pending calls goes through operations in any order, with ids
    and channels that may come again (`Pending.run`).  What becomes of a call
    does not depend on the table at all: the first later operation that
    concerns its id or its channel decides (`Pending.fate`).

    The route: one operation settles the entries that it concerns and leaves
    all others, and only `put` adds one (`settled_perform`, `entries_perform`).
    By induction on the operations, the settlements of a run and the entries at
    its end are those of the LIVES that the run tells by itself, without a
    table (`settled_run`, `entries_run`).  Tickets are numbered, so that a
    ticket has one life, and everything that can be said of a ticket is read
    off there (`run_ledger`). -/

namespace RemoteCall.Pending

/-! ## Operations -/

/-- What can be done to a table. -/
inductive Operation where
  | put (id : String) (channel : ChannelId)
  | complete (response : Response)
  | fail (id : String) (fault : Fault)
  | remove (id : String)
  | failAll (channel : ChannelId)
  /-- Whoever holds a ticket goes away. -/
  | forget (ticket : Ticket)
  deriving DecidableEq, Repr

/-- Does an operation; gives the tickets that it hands out, of which there is at most one. -/
def perform (pending : Pending) : Operation → List Ticket × Settled × Pending
  | .put id channel =>
    let (ticket, settled, pending) := pending.put id channel
    ([ticket], settled, pending)
  | .complete response => ([], (pending.complete response).2)
  | .fail id fault => ([], (pending.fail id fault).2)
  | .remove id => ([], (pending.remove id).2)
  | .failAll channel => ([], (pending.failAll channel).2)
  | .forget _ => ([], [], pending)

/-- Does operations one after another. -/
def run : Pending → List Operation → List Ticket × Settled × Pending
  | pending, [] => ([], [], pending)
  | pending, operation :: rest =>
    let (tickets, settled, pending) := pending.perform operation
    let (otherTickets, more, pending) := run pending rest
    (tickets ++ otherTickets, settled ++ more, pending)

/-! ## Lives -/

/-- What an operation means to a call that waits under an id and went out on a channel. -/
def Operation.settlement? (id : String) (channel : ChannelId) : Operation → Option Settlement
  | .put other _ => if other = id then some (.failed (.notPending id)) else none
  | .complete response => if response.requestId = id then some (.answered response) else none
  | .fail other fault => if other = id then some (.failed fault) else none
  | .remove other => if other = id then some .withdrawn else none
  | .failAll other => if other = channel then some (.failed .connectionClosed) else none
  | .forget _ => none

/-- What an operation settles of an entry, with the ticket. -/
def Operation.settles (operation : Operation) (entry : String × Waiting) :
    Option (Ticket × Settlement) :=
  (operation.settlement? entry.1 entry.2.channel).map (entry.2.ticket, ·)

/-- Whether an operation means nothing to an entry. -/
def Operation.passes (operation : Operation) (entry : String × Waiting) : Bool :=
  (operation.settlement? entry.1 entry.2.channel).isNone

/-- What the first of some operations that means anything to a call means to it. -/
def fate (id : String) (channel : ChannelId) (later : List Operation) : Option Settlement :=
  later.findSome? (Operation.settlement? id channel)

/-- The life of a call: what it was entered as, and its fate. -/
structure Life where
  id : String
  waiting : Waiting
  fate : Option Settlement
  deriving DecidableEq, Repr

/-- The settlement that a life comes to, with its ticket. -/
def Life.settled? (life : Life) : Option (Ticket × Settlement) :=
  life.fate.map (life.waiting.ticket, ·)

/-- What a life that has not come to its end has in the table. -/
def Life.kept? (life : Life) : Option (String × Waiting) :=
  if life.fate = none then some (life.id, life.waiting) else none

/-- The life of an entry, as some operations make it. -/
def lifeOf (later : List Operation) (entry : String × Waiting) : Life :=
  ⟨entry.1, entry.2, fate entry.1 entry.2.channel later⟩

/-- What an operation enters where some calls were entered before. -/
def Operation.entered (before : Nat) : Operation → List (String × Waiting)
  | .put id channel => [(id, ⟨before + 1, channel⟩)]
  | _ => []

/-- The lives that begin in some operations, in order, where some calls were entered before. -/
def lives : Nat → List Operation → List Life
  | _, [] => []
  | before, operation :: later =>
    (operation.entered before).map (lifeOf later)
      ++ lives (before + (operation.entered before).length) later

theorem fate_cons (operation : Operation) (later : List Operation) (id : String)
    (channel : ChannelId) :
    fate id channel (operation :: later)
      = (operation.settlement? id channel).or (fate id channel later) := by
  rw [fate, List.findSome?_cons]
  cases operation.settlement? id channel <;> rfl

/-- Tickets are numbered in the order of the lives. -/
theorem tickets_lives (before : Nat) (operations : List Operation) :
    (lives before operations).map (·.waiting.ticket)
      = List.range' (before + 1) (lives before operations).length := by
  induction operations generalizing before with
  | nil => rfl
  | cons operation later ih =>
      rw [lives, List.map_append, ih, List.length_append, List.length_map]
      cases operation with
      | put id channel =>
          show [before + 1] ++ _ = List.range' (before + 1) (1 + _)
          rw [Nat.add_comm 1, List.range'_succ]
          rfl
      | _ => simp [Operation.entered]

theorem nodup_tickets (before : Nat) (operations : List Operation) :
    ((lives before operations).map (·.waiting.ticket)).Nodup := by
  rw [tickets_lives]
  exact List.nodup_range'

/-! ## One operation -/

theorem Operation.passes_of_settles {operation : Operation} {entry : String × Waiting}
    {settlement : Ticket × Settlement} (settles : operation.settles entry = some settlement) :
    operation.passes entry = false ∧ entry.2.ticket = settlement.1 := by
  obtain ⟨means, concerns, rfl⟩ := Option.map_eq_some_iff.mp settles
  rw [passes, concerns]
  exact ⟨rfl, rfl⟩

section Perform

variable (pending : Pending)

/-- Settling a call that may be there. -/
theorem settle_eq (id : String) (settlement : Settlement) :
    pending.settle id settlement
      = ((pending.calls.get? id).isSome,
          ((pending.calls.get? id).map fun call => (call.ticket, settlement)).toList,
          { pending with calls := pending.calls.erase id }) := by
  rw [settle]
  cases found : pending.calls.get? id with
  | some call => rfl
  | none => rw [Dictionary.erase_of_get?_eq_none found]; rfl

theorem complete_eq (response : Response) :
    (pending.complete response).2
      = (pending.settle response.requestId (.answered response)).2 := by
  rw [complete, settle_eq]
  cases pending.calls.get? response.requestId <;> rfl

/-- What an operation settles: the entries that it concerns. -/
theorem settled_perform (operation : Operation) :
    (pending.perform operation).2.1
      = pending.calls.entries.filterMap operation.settles := by
  -- four operations name an id, and at most one entry has it
  have named (id : String) (settlement : String → Settlement) :
      ((pending.calls.get? id).map fun call => (call.ticket, settlement id)).toList
        = pending.calls.entries.filterMap fun entry =>
            (if id = entry.1 then some (settlement entry.1) else none).map
              (entry.2.ticket, ·) := by
    rw [← Dictionary.filterMap_entries]
    refine List.filterMap_congr fun entry _ => ?_
    by_cases same : id = entry.1
    · rw [if_pos same, if_pos same, same]
      rfl
    · rw [if_neg same, if_neg same]
      rfl
  cases operation with
  | put id channel =>
      refine Eq.trans ?_ (named id fun id => .failed (.notPending id))
      rw [perform, put]
      cases pending.calls.get? id <;> rfl
  | complete response =>
      rw [perform, complete_eq, settle_eq]
      exact named response.requestId fun _ => .answered response
  | fail id fault =>
      rw [perform, fail, settle_eq]
      exact named id fun _ => .failed fault
  | remove id =>
      rw [perform, remove, settle_eq]
      exact named id fun _ => .withdrawn
  | failAll channel =>
      show (pending.callsOn channel).map _ = _
      rw [callsOn, ← List.filterMap_eq_map, List.filterMap_filter]
      refine List.filterMap_congr fun entry _ => ?_
      by_cases same : entry.2.channel = channel
      · simp [Operation.settles, Operation.settlement?, same]
      · simp [Operation.settles, Operation.settlement?, same, Ne.symm same]
  | forget ticket => exact (List.filterMap_none _).symm

/-- What is in the table after an operation: what it enters, and the entries that it does not
concern. -/
theorem entries_perform (operation : Operation) :
    (pending.perform operation).2.2.calls.entries.Perm
      (operation.entered pending.entered ++ pending.calls.entries.filter operation.passes) := by
  have others (id : String) (settlement : String → Settlement) :
      (pending.calls.entries.filter fun entry =>
          (if id = entry.1 then some (settlement entry.1) else none).isNone)
        = (pending.calls.erase id).entries := by
    refine List.filter_congr fun entry _ => ?_
    by_cases same : id = entry.1
    · simp [same]
    · simp [same, Ne.symm same]
  cases operation with
  | put id channel =>
      show (pending.calls.insert id _).entries.Perm ((id, _) :: _)
      refine (Dictionary.insert_perm ..).trans (.of_eq (congrArg _ ?_))
      exact (others id fun id => .failed (.notPending id)).symm
  | complete response =>
      rw [perform, complete_eq, settle_eq]
      exact .of_eq (others response.requestId fun _ => .answered response).symm
  | fail id fault =>
      rw [perform, fail, settle_eq]
      exact .of_eq (others id fun _ => .failed fault).symm
  | remove id =>
      rw [perform, remove, settle_eq]
      exact .of_eq (others id fun _ => .withdrawn).symm
  | failAll channel =>
      refine .of_eq (List.filter_congr fun entry _ => ?_)
      by_cases same : entry.2.channel = channel
      · simp [Operation.passes, Operation.settlement?, same]
      · simp [Operation.passes, Operation.settlement?, same, Ne.symm same]
  | forget ticket => exact .of_eq (List.filter_eq_self.mpr fun _ _ => rfl).symm

/-- An operation hands out the tickets of what it enters, and counts them. -/
theorem tickets_perform (operation : Operation) :
    (pending.perform operation).1
        = (operation.entered pending.entered).map (·.2.ticket)
      ∧ (pending.perform operation).2.2.entered
        = pending.entered + (operation.entered pending.entered).length := by
  cases operation with
  | put id channel => exact ⟨rfl, rfl⟩
  | complete response => rw [perform, complete_eq, settle_eq]; exact ⟨rfl, rfl⟩
  | fail id fault => rw [perform, fail, settle_eq]; exact ⟨rfl, rfl⟩
  | remove id => rw [perform, remove, settle_eq]; exact ⟨rfl, rfl⟩
  | failAll channel => exact ⟨rfl, rfl⟩
  | forget ticket => exact ⟨rfl, rfl⟩

end Perform

/-! ## Runs -/

/-- An operation that means something to an entry decides its life. -/
theorem lifeOf_cons_of_some {operation : Operation} {entry : String × Waiting}
    {settlement : Settlement}
    (h : operation.settlement? entry.1 entry.2.channel = some settlement)
    (later : List Operation) :
    lifeOf (operation :: later) entry = ⟨entry.1, entry.2, some settlement⟩ := by
  rw [lifeOf, fate_cons, h]
  rfl

/-- An operation that means nothing to an entry leaves its life to the others. -/
theorem lifeOf_cons_of_none {operation : Operation} {entry : String × Waiting}
    (h : operation.settlement? entry.1 entry.2.channel = none) (later : List Operation) :
    lifeOf (operation :: later) entry = lifeOf later entry := by
  rw [lifeOf, fate_cons, h]
  rfl

/-- The settlements that some operations have in store for entries are those that the first of them
makes and those that the others make of the entries that it does not concern. -/
theorem settled_cons (operation : Operation) (later : List Operation)
    (entries : List (String × Waiting)) :
    ((entries.map (lifeOf (operation :: later))).filterMap Life.settled?).Perm
      (entries.filterMap operation.settles
        ++ ((entries.filter operation.passes).map (lifeOf later)).filterMap Life.settled?) := by
  induction entries with
  | nil => exact .refl _
  | cons entry entries ih =>
      rw [List.map_cons]
      cases found : operation.settlement? entry.1 entry.2.channel with
      | some settlement =>
          have ends : (lifeOf (operation :: later) entry).settled?
              = some (entry.2.ticket, settlement) := by
            rw [lifeOf_cons_of_some found]
            rfl
          have now : operation.settles entry = some (entry.2.ticket, settlement) := by
            rw [Operation.settles, found]
            rfl
          rw [List.filterMap_cons_some ends, List.filterMap_cons_some now,
            List.filter_cons_of_neg (by simp [Operation.passes, found])]
          exact ih.cons _
      | none =>
          have now : operation.settles entry = none := by
            rw [Operation.settles, found]
            rfl
          rw [lifeOf_cons_of_none found, List.filterMap_cons_none now,
            List.filter_cons_of_pos (by simp [Operation.passes, found]), List.map_cons]
          cases ends : (lifeOf later entry).settled? with
          | none =>
              rw [List.filterMap_cons_none ends, List.filterMap_cons_none ends]
              exact ih
          | some settled =>
              rw [List.filterMap_cons_some ends, List.filterMap_cons_some ends]
              exact (ih.cons settled).trans List.perm_middle.symm

/-- Of the entries of which some operations make nothing, the first makes nothing, and the others
make nothing of what is left. -/
theorem entries_cons (operation : Operation) (later : List Operation)
    (entries : List (String × Waiting)) :
    (entries.map (lifeOf (operation :: later))).filterMap Life.kept?
      = ((entries.filter operation.passes).map (lifeOf later)).filterMap Life.kept? := by
  induction entries with
  | nil => rfl
  | cons entry entries ih =>
      rw [List.map_cons]
      cases found : operation.settlement? entry.1 entry.2.channel with
      | some settlement =>
          have gone : (lifeOf (operation :: later) entry).kept? = none := by
            rw [lifeOf_cons_of_some found]
            rfl
          rw [List.filterMap_cons_none gone,
            List.filter_cons_of_neg (by simp [Operation.passes, found]), ih]
      | none =>
          rw [lifeOf_cons_of_none found,
            List.filter_cons_of_pos (by simp [Operation.passes, found]), List.map_cons,
            List.filterMap_cons, ih, List.filterMap_cons]

/-- All lives that a run is about: those of the entries that are there, and those that begin. -/
def allLives (pending : Pending) (operations : List Operation) : List Life :=
  pending.calls.entries.map (lifeOf operations) ++ lives pending.entered operations

/-- After an operation, the same lives are there, without those that it has ended. -/
theorem allLives_perform (pending : Pending) (operation : Operation) (later : List Operation) :
    (allLives (pending.perform operation).2.2 later).Perm
      ((pending.calls.entries.filter operation.passes).map (lifeOf later)
        ++ lives pending.entered (operation :: later)) := by
  rw [allLives, (tickets_perform pending operation).2, lives, ← List.append_assoc]
  refine List.Perm.append_right _ ?_
  refine ((entries_perform pending operation).map (lifeOf later)).trans ?_
  rw [List.map_append]
  exact List.perm_append_comm

/-- A run settles what its lives come to. -/
theorem settled_run (pending : Pending) (operations : List Operation) :
    (run pending operations).2.1.Perm
      ((allLives pending operations).filterMap Life.settled?) := by
  induction operations generalizing pending with
  | nil =>
      have unsettled : ∀ life ∈ allLives pending [], life.settled? = none := by
        intro life mem
        rw [allLives, lives, List.append_nil] at mem
        obtain ⟨entry, -, rfl⟩ := List.mem_map.mp mem
        rfl
      rw [List.filterMap_eq_nil_iff.mpr unsettled]
      exact .refl _
  | cons operation later ih =>
      show ((pending.perform operation).2.1
        ++ (run (pending.perform operation).2.2 later).2.1).Perm _
      have rest := (ih (pending.perform operation).2.2).trans
        ((allLives_perform pending operation later).filterMap _)
      rw [List.filterMap_append] at rest
      rw [allLives, List.filterMap_append, settled_perform]
      refine (rest.append_left _).trans ?_
      rw [← List.append_assoc]
      exact (settled_cons operation later pending.calls.entries).symm.append_right _

/-- At the end of a run the table has the lives that have come to no end. -/
theorem entries_run (pending : Pending) (operations : List Operation) :
    (run pending operations).2.2.calls.entries.Perm
      ((allLives pending operations).filterMap Life.kept?) := by
  induction operations generalizing pending with
  | nil =>
      rw [allLives, lives, List.append_nil, List.filterMap_map]
      exact .of_eq (List.filterMap_some).symm
  | cons operation later ih =>
      have rest := (ih (pending.perform operation).2.2).trans
        ((allLives_perform pending operation later).filterMap _)
      rw [List.filterMap_append] at rest
      rw [allLives, List.filterMap_append, entries_cons]
      exact rest

/-- The tickets that a run hands out are those of the lives that begin in it. -/
theorem tickets_run (pending : Pending) (operations : List Operation) :
    (run pending operations).1
      = (lives pending.entered operations).map (·.waiting.ticket) := by
  induction operations generalizing pending with
  | nil => rfl
  | cons operation later ih =>
      obtain ⟨tickets, entered⟩ := tickets_perform pending operation
      show (pending.perform operation).1 ++ (run (pending.perform operation).2.2 later).1 = _
      rw [ih, tickets, entered, lives, List.map_append, List.map_map]
      rfl

/-! ## What is told of a ticket -/

/-- Where tickets have one life each, all that is settled under a ticket is the fate of its life. -/
theorem filter_settled {all : List Life} (distinct : (all.map (·.waiting.ticket)).Nodup)
    {life : Life} (mem : life ∈ all) :
    (all.filterMap Life.settled?).filter (fun settled => settled.1 = life.waiting.ticket)
      = life.settled?.toList := by
  -- a settlement has the ticket of its life, so that other lives have no part in the filter
  have own {other : Life} (same : other.waiting.ticket = life.waiting.ticket) :
      (other.settled?.filter fun settled => settled.1 = life.waiting.ticket) = other.settled? := by
    rw [Life.settled?, ← same]
    cases other.fate with
    | none => rfl
    | some settlement => exact Option.filter_some_pos (decide_eq_true rfl)
  have foreign {other : Life} (apart : other.waiting.ticket ≠ life.waiting.ticket) :
      (other.settled?.filter fun settled => settled.1 = life.waiting.ticket) = none := by
    rw [Life.settled?]
    cases other.fate with
    | none => rfl
    | some settlement => exact Option.filter_some_neg (by simpa using apart)
  rw [List.filter_filterMap]
  induction all with
  | nil => exact nomatch mem
  | cons first all ih =>
      rw [List.map_cons, List.nodup_cons] at distinct
      obtain ⟨fresh, distinct⟩ := distinct
      have apart {other : Life} (later : other ∈ all) :
          other.waiting.ticket ≠ first.waiting.ticket :=
        fun same => fresh (same ▸ List.mem_map_of_mem later)
      rw [List.filterMap_cons]
      rcases List.mem_cons.mp mem with rfl | later
      · rw [own rfl, List.filterMap_eq_nil_iff.mpr fun other mem => foreign (apart mem)]
        cases life.settled? <;> rfl
      · rw [foreign (apart later).symm]
        exact ih distinct later

/-- The lives that some operations begin and do not end. -/
def standing (operations : List Operation) : List Life :=
  (lives 0 operations).filter fun life => life.fate = none

theorem filterMap_kept? (all : List Life) :
    all.filterMap Life.kept?
      = (all.filter fun life => life.fate = none).map fun life => (life.id, life.waiting) := by
  rw [← List.filterMap_eq_map, List.filterMap_filter]
  refine List.filterMap_congr fun life _ => ?_
  by_cases unsettled : life.fate = none <;> simp [Life.kept?, unsettled]

/-- The table at the end of a history has the lives that stand. -/
theorem entries_history (operations : List Operation) :
    (run .empty operations).2.2.calls.entries.Perm
      ((standing operations).map fun life => (life.id, life.waiting)) :=
  (entries_run .empty operations).trans (.of_eq (filterMap_kept? _))

/-- What the tickets, the settlements and the table of a history have to do with its lives. -/
structure Ledger (operations : List Operation) (tickets : List Ticket) (settled : Settled)
    (table : Pending) : Prop where
  /-- Every call that is entered gets a ticket of its own. -/
  tickets_eq : tickets = (lives 0 operations).map (·.waiting.ticket)
  nodup_tickets : tickets.Nodup
  /-- All that is settled under a ticket is the fate of its call: nothing, or one settlement. -/
  settled_eq : ∀ life ∈ lives 0 operations,
    settled.filter (fun settled => settled.1 = life.waiting.ticket) = life.settled?.toList
  settled_mem : ∀ settlement ∈ settled, settlement.1 ∈ tickets
  /-- The table holds the entry of a call exactly while the call is unsettled. -/
  held_iff : ∀ life ∈ lives 0 operations,
    table.calls.get? life.id = some life.waiting ↔ life.fate = none
  held_mem : ∀ id waiting, table.calls.get? id = some waiting →
    ∃ life ∈ standing operations, life.id = id ∧ life.waiting = waiting
  /-- There are as many entries as lives that stand, and these have distinct ids. -/
  size_eq : table.size = (standing operations).length
  nodup_ids : ((standing operations).map Life.id).Nodup
  /-- A response is refused, and then changes nothing, exactly when no entry has its id. -/
  refused_iff : ∀ response,
    table.complete response = (.error (.notPending response.requestId), [], table)
      ↔ table.contains response.requestId = false
  /-- The end of a channel fails the calls that went out on it, counts them, and leaves every other
  entry as it was. -/
  failAll_settles : ∀ channel, (table.failAll channel).2.1.Perm
    (((standing operations).filter fun life => life.waiting.channel = channel).map fun life =>
      (life.waiting.ticket, .failed .connectionClosed))
  failAll_counts : ∀ channel, (table.failAll channel).1 = (table.failAll channel).2.1.length
  failAll_leaves : ∀ channel id, (table.failAll channel).2.2.calls.get? id
    = (table.calls.get? id).filter fun waiting => waiting.channel ≠ channel

/-- Whatever is done to an empty table, in whatever order: every ticket is settled at most once, by
the first later operation that concerns its call, and is unsettled exactly while the table holds the
entry that was made with it. -/
theorem run_ledger (operations : List Operation) :
    Ledger operations (run .empty operations).1 (run .empty operations).2.1
      (run .empty operations).2.2 := by
  have tickets := tickets_run .empty operations
  have settled : (run .empty operations).2.1.Perm
      ((lives 0 operations).filterMap Life.settled?) := settled_run .empty operations
  have entries := entries_history operations
  have distinct := nodup_tickets 0 operations
  refine
    { tickets_eq := tickets
      nodup_tickets := tickets ▸ distinct
      settled_eq := fun life mem => ?settled_eq
      settled_mem := fun settlement mem => ?settled_mem
      held_iff := fun life mem => ?held_iff
      held_mem := fun id waiting found => ?held_mem
      size_eq := ?size_eq
      nodup_ids := ?nodup_ids
      refused_iff := fun response => ?refused_iff
      failAll_settles := fun channel => ?failAll_settles
      failAll_counts := fun channel => (List.length_map _).symm
      failAll_leaves := fun channel id => Dictionary.get?_filter .. }
  case settled_eq =>
    have filtered := settled.filter fun settled => settled.1 = life.waiting.ticket
    rw [filter_settled distinct mem] at filtered
    -- a list of at most one entry has one order only
    cases ends : life.settled? with
    | none => rw [ends] at filtered; exact List.perm_nil.mp filtered
    | some settled => rw [ends] at filtered; exact List.perm_singleton.mp filtered
  case settled_mem =>
    obtain ⟨life, lived, ends⟩ := List.mem_filterMap.mp (settled.mem_iff.mp mem)
    obtain ⟨_, -, rfl⟩ := Option.map_eq_some_iff.mp ends
    rw [tickets]
    exact List.mem_map_of_mem lived
  case held_iff =>
    rw [Dictionary.get?_eq_some_iff, entries.mem_iff, List.mem_map]
    constructor
    · rintro ⟨other, stands, same⟩
      obtain ⟨otherMem, unsettled⟩ := List.mem_filter.mp stands
      obtain ⟨-, same⟩ := Prod.mk.inj same
      -- the ticket tells which life it is
      obtain rfl := List.inj_on_of_nodup_map distinct otherMem mem (congrArg Waiting.ticket same)
      exact of_decide_eq_true unsettled
    · intro unsettled
      exact ⟨life, List.mem_filter.mpr ⟨mem, decide_eq_true unsettled⟩, rfl⟩
  case held_mem =>
    rw [Dictionary.get?_eq_some_iff, entries.mem_iff, List.mem_map] at found
    obtain ⟨life, stands, same⟩ := found
    exact ⟨life, stands, Prod.mk.inj same⟩
  case size_eq =>
    rw [size, Dictionary.size, entries.length_eq, List.length_map]
  case nodup_ids =>
    have keys := (run .empty operations).2.2.calls.nodup_keys
    rw [Dictionary.keys, (entries.map _).nodup_iff, List.map_map] at keys
    exact keys
  case refused_iff =>
    rw [complete, settle, contains, Dictionary.contains]
    cases (run .empty operations).2.2.calls.get? response.requestId <;> simp
  case failAll_settles =>
    have on := (entries.filter fun entry => entry.2.channel = channel).map
      fun entry => (entry.2.ticket, Settlement.failed .connectionClosed)
    rw [List.filter_map, List.map_map] at on
    exact on

end RemoteCall.Pending

import Mathlib.Data.List.Perm.Basic
import Mathlib.Logic.Embedding.Basic
import RemoteCall.Proofs.Lists
import RemoteCall.Proofs.Workers.Promises
import RemoteCall.Server.Connection

/-! # A connection and the pool that handles its requests

    A connection hands its requests to a pool of workers, which others use too,
    and learns from it what came of each one (`Handling`).  The reader, the
    tasks of the requests, the pool and the writer take their steps in any
    order (`Act`).

    Nothing is lost or answered twice on the way, because at every moment each
    request that came in is still with its task or has its answer in the queue
    or behind it, and so has each ping its pong (`Kept`).  The queue is a queue,
    and only pings put pongs there, so that pongs keep their order.  A writer
    that has stopped has left nothing behind, and nobody is there who could add
    to it.  One act keeps all this (`Kept.step`), and hence so does a run
    (`Kept.run`). -/

namespace RemoteCall.Server

/-- A connection, and the pool whose workers handle its requests. -/
structure Handling where
  connection : Connection
  workers : Workers.SharedPool

/-- The message that a request came in with, and the number of the request. -/
def Job.origin (job : Job) : Message × JobNumber :=
  (⟨job.stamp.format, job.stamp.compression, job.stamp.id, .request job.request⟩, job.number)

/-- Whether a message is a pong. -/
def isPong (message : Message) : Bool :=
  message.body = .pong

/-- Whether a message is a request. -/
def isRequest (message : Message) : Bool :=
  message.body.kind = .request

/-- The pong to a message, if that is a ping. -/
def pongTo? : Message → Option Message
  | ⟨format, compression, id, .ping⟩ => some ⟨format, compression, id, .pong⟩
  | _ => none

/-- The requests among some messages, numbered from one. -/
def requests (messages : List Message) : List (Message × JobNumber) :=
  (messages.filter isRequest).zipIdx 1

/-- The answer to a request, where it is known what its task was told by the pool: that there is a
result, or why there is none. -/
inductive Replies (provider : Provider) : Option Fault → Message → Message → Prop
  | handled (format compression : UInt8) (id : UInt32) (request : Request) :
    Replies provider none ⟨format, compression, id, .request request⟩
      ⟨format, compression, id, .response (provider.handle request)⟩
  | failed (format compression : UInt8) (id : UInt32) (request : Request) (fault : Fault) :
    Replies provider (some fault) ⟨format, compression, id, .request request⟩
      ⟨format, compression, id, .response (.ofFailure request.id fault.message)⟩

/-- The reader stops where reading ends, and nowhere else. -/
theorem Connection.isReading_step (provider : Provider) (connection : Connection)
    (happening : Happening) :
    (connection.step provider happening).2.isReading
      = match happening with
        | .ended _ => false
        | _ => connection.isReading := by
  cases happening with
  | message message =>
      rw [step]
      split
      · rw [takeMessage]
        split <;> rfl
      · rfl
  | ended fault =>
      rw [step]
      split
      · rfl
      · next deaf => exact eq_false_of_ne_true deaf
  | returned number fault? =>
      rw [step, takeBack]
      dsimp only
      split <;> rfl
  | turn =>
      rw [step]
      split
      · rw [write]
        split
        · rfl
        · split <;> rfl
      · rfl
  | closing =>
      rw [step, close]
      split <;> rfl

namespace Handling

/-! ## Runs -/

/-- What can happen next. -/
inductive Act where
  /-- The reader takes a message. -/
  | reads (message : Message)
  /-- The reader stops: the stream has ended, or was silent for too long, or brought a fault. -/
  | stops (fault : Option Fault)
  /-- Something happens to the pool.  The task of a request calls it under the request's ticket. -/
  | works (act : Workers.SharedPool.Act)
  /-- The task of a request passes on what the pool has told it. -/
  | answers (number : JobNumber)
  /-- The writer takes a turn. -/
  | writes
  /-- The connection is closed if the reader and the writer have stopped. -/
  | closes

/-- A new connection, and a new pool. -/
def start (codec : Frame.Codec) (name : String) (size : Nat) : Handling :=
  ⟨.ofCodec codec, .start name size⟩

/-- Something happens to the connection. -/
def take (provider : Provider) (handling : Handling) (happening : Happening) :
    List Effect × Handling :=
  ((handling.connection.step provider happening).1,
    { handling with connection := (handling.connection.step provider happening).2 })

section

variable (provider : Provider) (tickets : JobNumber ↪ Workers.Ticket)

/-- What comes of an act. -/
def step (handling : Handling) : Act → List Effect × Handling
  | .reads message => handling.take provider (.message message)
  | .stops fault => handling.take provider (.ended fault)
  | .works act => ([], { handling with workers := handling.workers.step act })
  | .answers number =>
    match handling.workers.answers.lookup (tickets number) with
    | some told => handling.take provider (.returned number told)
    | none => ([], handling)
  | .writes => handling.take provider .turn
  | .closes => handling.take provider .closing

/-- What comes of acts, one after another. -/
def run : Handling → List Act → List Effect × Handling
  | handling, [] => ([], handling)
  | handling, act :: later =>
    ((handling.step provider tickets act).1
        ++ (run (handling.step provider tickets act).2 later).1,
      (run (handling.step provider tickets act).2 later).2)

/-- The message that comes in with an act. -/
def taking (handling : Handling) : Act → List Message
  | .reads message => if handling.connection.isReading then [message] else []
  | _ => []

/-- The answer that leaves the queue with an act, which is the oldest one. -/
def leaving (handling : Handling) : Act → List Message
  | .writes => if handling.connection.isWriting then handling.connection.outbox.take 1 else []
  | _ => []

/-- The answers that leave the queue with some acts, one after another. -/
def departed : Handling → List Act → List Message
  | _, [] => []
  | handling, act :: later =>
    handling.leaving act ++ departed (handling.step provider tickets act).2 later

end

/-- The messages that come in before the reader stops. -/
def inbound : List Act → List Message
  | [] => []
  | .reads message :: later => message :: inbound later
  | .stops _ :: _ => []
  | _ :: later => inbound later

/-! ## What is kept -/

/-- What holds of a connection and its pool where some messages have come in and some answers have
left. -/
structure Kept (provider : Provider) (tickets : JobNumber ↪ Workers.Ticket)
    (messages left : List Message) (handling : Handling) : Prop where
  counted : handling.connection.requests = (messages.filter isRequest).length
  /-- Each request is with its task, or has one answer, left or not; and the other answers are the
  pongs. -/
  answered : ∃ done : List ((Message × JobNumber) × Message),
    (requests messages).Perm (done.map (·.1) ++ handling.connection.jobs.map Job.origin)
      ∧ (left ++ handling.connection.outbox).Perm (messages.filterMap pongTo? ++ done.map (·.2))
      ∧ ∀ one ∈ done, ∃ told, (tickets one.1.2, told) ∈ handling.workers.answers
        ∧ Replies provider told one.1.1 one.2
  pongs : (left ++ handling.connection.outbox).filter isPong = messages.filterMap pongTo?
  /-- The writer has stopped only where nothing is left to do. -/
  silent : handling.connection.isWriting = false →
    handling.connection.hasSenders = false ∧ handling.connection.outbox = []
  closed : handling.connection.isOpen = false →
    handling.connection.isReading = false ∧ handling.connection.isWriting = false

variable {provider : Provider} {tickets : JobNumber ↪ Workers.Ticket} {messages left : List Message}
  {handling : Handling}

theorem kept_start (provider : Provider) (tickets : JobNumber ↪ Workers.Ticket)
    (codec : Frame.Codec) (name : String) (size : Nat) :
    (start codec name size).Kept provider tickets [] [] where
  counted := rfl
  answered := ⟨[], .refl _, .refl _, nofun⟩
  pongs := rfl
  silent := nofun
  closed := nofun

namespace Kept

variable (kept : handling.Kept provider tickets messages left)

include kept

/-- The numbers of the requests at the workers differ. -/
theorem nodup_numbers : (handling.connection.jobs.map (·.number)).Nodup := by
  obtain ⟨done, requests, -, -⟩ := kept.answered
  have numbers := requests.map Prod.snd
  rw [Server.requests, List.zipIdx_map_snd, List.map_append, List.map_map, List.map_map] at numbers
  exact (numbers.nodup_iff.mp List.nodup_range').of_append_right

/-- As long as the reader reads, the writer writes and the connection is open. -/
theorem busy (reading : handling.connection.isReading = true) :
    handling.connection.isWriting = true ∧ handling.connection.isOpen = true := by
  constructor
  · by_contra stopped
    have silent := (kept.silent (eq_false_of_ne_true stopped)).1
    rw [Connection.hasSenders, reading] at silent
    exact nomatch silent
  · by_contra closed
    exact nomatch reading.symm.trans (kept.closed (eq_false_of_ne_true closed)).1

/-- A message that asks for nothing. -/
theorem ignores {message : Message} (noPong : pongTo? message = none)
    (noRequest : isRequest message = false) :
    handling.Kept provider tickets (messages ++ [message]) left := by
  have requests : (messages ++ [message]).filter isRequest = messages.filter isRequest := by
    rw [List.filter_append, List.filter_singleton, noRequest, Bool.cond_false, List.append_nil]
  have pongs : (messages ++ [message]).filterMap pongTo? = messages.filterMap pongTo? := by
    rw [List.filterMap_append, List.filterMap_cons, noPong, List.filterMap_nil, List.append_nil]
  obtain ⟨counted, answered, ordered, silent, closed⟩ := kept
  refine ⟨requests ▸ counted, ?_, pongs ▸ ordered, silent, closed⟩
  rw [Server.requests, requests, pongs]
  exact answered

/-- The pong to a ping is put into the queue. -/
theorem pings (reading : handling.connection.isReading = true) (format compression : UInt8)
    (id : UInt32) :
    (handling.step provider tickets (.reads ⟨format, compression, id, .ping⟩)).2.Kept provider tickets
      (messages ++ [⟨format, compression, id, .ping⟩]) left := by
  obtain ⟨isWriting, isOpen⟩ := kept.busy reading
  obtain ⟨counted, ⟨done, requests, answers, replies⟩, pongs, -, -⟩ := kept
  have same : (messages ++ [(⟨format, compression, id, .ping⟩ : Message)]).filter isRequest
      = messages.filter isRequest := by
    rw [List.filter_append]
    exact List.append_nil _
  have more : (messages ++ [(⟨format, compression, id, .ping⟩ : Message)]).filterMap pongTo?
      = messages.filterMap pongTo? ++ [⟨format, compression, id, .pong⟩] :=
    List.filterMap_append
  rw [step, take, Connection.step, if_pos reading, Connection.takeMessage]
  refine ⟨counted.trans (congrArg _ same.symm), ⟨done, ?_, ?_, replies⟩, ?_,
    fun stopped => ?_, fun closed => ?_⟩
  · rw [Server.requests, same]
    exact requests
  · rw [more, ← List.append_assoc, List.append_assoc (messages.filterMap pongTo?)]
    refine (answers.append_right _).trans ?_
    rw [List.append_assoc]
    exact List.perm_append_comm.append_left _
  · rw [more, ← List.append_assoc, List.filter_append, pongs]
    rfl
  · cases isWriting.symm.trans stopped
  · cases isOpen.symm.trans closed

/-- A request gets the next number and a task. -/
theorem asks (reading : handling.connection.isReading = true) (format compression : UInt8)
    (id : UInt32) (request : Request) :
    (handling.step provider tickets (.reads ⟨format, compression, id, .request request⟩)).2.Kept
      provider tickets (messages ++ [⟨format, compression, id, .request request⟩]) left := by
  obtain ⟨isWriting, isOpen⟩ := kept.busy reading
  obtain ⟨counted, ⟨done, requests, answers, replies⟩, pongs, -, -⟩ := kept
  have more : (messages ++ [(⟨format, compression, id, .request request⟩ : Message)]).filter isRequest
      = messages.filter isRequest ++ [⟨format, compression, id, .request request⟩] :=
    List.filter_append ..
  have same : (messages ++ [(⟨format, compression, id, .request request⟩ : Message)]).filterMap pongTo?
      = messages.filterMap pongTo? := by
    rw [List.filterMap_append]
    exact List.append_nil _
  rw [step, take, Connection.step, if_pos reading, Connection.takeMessage]
  refine ⟨?_, ⟨done, ?_, ?_, replies⟩, same ▸ pongs, fun stopped => ?_, fun closed => ?_⟩
  · rw [more, List.length_append, ← counted]
    rfl
  · rw [Server.requests, more, List.zipIdx_append, List.map_append, ← List.append_assoc]
    refine requests.append (.of_eq ?_)
    rw [← counted, Nat.add_comm]
    rfl
  · rw [same]
    exact answers
  · cases isWriting.symm.trans stopped
  · cases isOpen.symm.trans closed

theorem reads (message : Message) :
    (handling.step provider tickets (.reads message)).2.Kept provider tickets
      (messages ++ if handling.connection.isReading then [message] else []) left := by
  cases reading : handling.connection.isReading with
  | false =>
      rw [step, take, Connection.step, reading, if_neg Bool.false_ne_true,
        if_neg Bool.false_ne_true, List.append_nil]
      exact kept
  | true =>
      rw [if_pos rfl]
      obtain ⟨format, compression, id, body⟩ := message
      cases body with
      | ping => exact kept.pings reading format compression id
      | request request => exact kept.asks reading format compression id request
      | response response =>
          rw [step, take, Connection.step, if_pos reading]
          exact kept.ignores rfl rfl
      | pong =>
          rw [step, take, Connection.step, if_pos reading]
          exact kept.ignores rfl rfl

theorem stops (fault : Option Fault) :
    (handling.step provider tickets (.stops fault)).2.Kept provider tickets messages left := by
  rw [step, take, Connection.step]
  split
  · next reading =>
      obtain ⟨isWriting, isOpen⟩ := kept.busy reading
      refine ⟨kept.counted, kept.answered, kept.pongs, fun stopped => ?_, fun closed => ?_⟩
      · cases isWriting.symm.trans stopped
      · cases isOpen.symm.trans closed
  · exact kept

/-- What the pool has told the tasks of requests stays so. -/
theorem works (act : Workers.SharedPool.Act) :
    (handling.step provider tickets (.works act)).2.Kept provider tickets messages left := by
  obtain ⟨counted, ⟨done, requests, answers, replies⟩, pongs, silent, closed⟩ := kept
  have grows := (Workers.SharedPool.grows_run handling.workers [act]).answers.subset
  refine ⟨counted, ⟨done, requests, answers, fun one mem => ?_⟩, pongs, silent, closed⟩
  obtain ⟨told, known, replied⟩ := replies one mem
  exact ⟨told, grows known, replied⟩

theorem answers (number : JobNumber) :
    (handling.step provider tickets (.answers number)).2.Kept provider tickets messages left := by
  rw [step]
  split
  · next told known =>
      rw [take, Connection.step, Connection.takeBack]
      dsimp only
      split
      · exact kept
      · next job found =>
          obtain rfl : job.number = number := List.key_of_find? found
          have nodup := kept.nodup_numbers
          obtain ⟨counted, ⟨done, requests, answers, replies⟩, pongs, silent, closed⟩ := kept
          have alone := (List.perm_of_find? nodup found).map Job.origin
          have replied : Replies provider told job.origin.1 (job.answer provider told) := by
            cases told with
            | none => exact .handled ..
            | some fault => exact .failed ..
          have noPong : [job.answer provider told].filter isPong = [] := by
            cases told <;> rfl
          refine ⟨counted, ⟨(job.origin, job.answer provider told) :: done, ?_, ?_, ?_⟩, ?_,
            fun stopped => ?_, closed⟩
          · -- the request moves from the tasks to those that have answers
            exact requests.trans ((alone.append_left _).trans List.perm_middle)
          · rw [← List.append_assoc]
            refine (answers.append_right _).trans ?_
            rw [List.append_assoc]
            exact List.perm_append_comm.append_left _
          · intro one mem
            rcases List.mem_cons.mp mem with rfl | old
            · obtain ⟨earlier, later, all, -⟩ := List.lookup_eq_some_iff.mp known
              exact ⟨told, all ▸ List.mem_append_right earlier (.head later), replied⟩
            · exact replies one old
          · rw [← List.append_assoc, List.filter_append, pongs, noPong, List.append_nil]
          · have none := (silent stopped).1
            rw [Connection.hasSenders, Bool.or_eq_false_iff, Bool.not_eq_false', List.isEmpty_iff]
              at none
            rw [none.2] at found
            cases found
  · exact kept

theorem writes :
    (handling.step provider tickets .writes).2.Kept provider tickets messages
      (left ++ if handling.connection.isWriting then handling.connection.outbox.take 1 else []) := by
  rw [step, take, Connection.step]
  split
  · next isWriting =>
      rw [Connection.write]
      obtain ⟨counted, ⟨done, requests, answers, replies⟩, pongs, silent, closed⟩ := kept
      split
      · next answer rest oldest =>
          rw [oldest] at answers pongs ⊢
          rw [List.append_cons] at answers pongs
          refine ⟨counted, ⟨done, requests, answers, replies⟩, pongs, fun stopped => ?_, closed⟩
          cases isWriting.symm.trans stopped
      · next empty =>
          have kept : handling.Kept provider tickets messages left :=
            ⟨counted, ⟨done, requests, answers, replies⟩, pongs, silent, closed⟩
          rw [empty, List.take_nil, List.append_nil]
          split
          · exact kept
          · next noSenders =>
              rw [empty] at answers pongs
              exact ⟨counted, ⟨done, requests, answers, replies⟩, pongs,
                fun _ => ⟨eq_false_of_ne_true noSenders, rfl⟩,
                fun isClosed => ⟨(closed isClosed).1, rfl⟩⟩
  · rw [List.append_nil]
    exact kept

theorem closes :
    (handling.step provider tickets .closes).2.Kept provider tickets messages left := by
  rw [step, take, Connection.step, Connection.close]
  split
  · next stopped =>
      rw [Bool.and_eq_true, Bool.and_eq_true, Bool.not_eq_true', Bool.not_eq_true'] at stopped
      exact ⟨kept.counted, kept.answered, kept.pongs, kept.silent,
        fun _ => ⟨stopped.1.2, stopped.2⟩⟩
  · exact kept

theorem nothing : handling.Kept provider tickets (messages ++ []) (left ++ []) := by
  rw [List.append_nil, List.append_nil]
  exact kept

theorem step (act : Act) :
    (handling.step provider tickets act).2.Kept provider tickets
      (messages ++ handling.taking act) (left ++ handling.leaving act) := by
  cases act with
  | reads message => exact (List.append_nil left).symm ▸ kept.reads message
  | stops fault => exact (kept.stops fault).nothing
  | works act => exact (kept.works act).nothing
  | answers number => exact (kept.answers number).nothing
  | writes => exact (List.append_nil messages).symm ▸ kept.writes
  | closes => exact kept.closes.nothing

end Kept

theorem isReading_step (provider : Provider) (tickets : JobNumber ↪ Workers.Ticket)
    (handling : Handling) (act : Act) :
    (handling.step provider tickets act).2.connection.isReading
      = match act with
        | .stops _ => false
        | _ => handling.connection.isReading := by
  have reads := handling.connection.isReading_step provider
  cases act with
  | reads message => exact reads (.message message)
  | stops fault => exact reads (.ended fault)
  | works act => rfl
  | answers number =>
      rw [step]
      cases handling.workers.answers.lookup (tickets number) with
      | none => rfl
      | some told => exact reads (.returned number told)
  | writes => exact reads .turn
  | closes => exact reads .closing

/-- A message comes in if and only if the reader has not stopped. -/
theorem inbound_cons (provider : Provider) (tickets : JobNumber ↪ Workers.Ticket)
    (handling : Handling) (act : Act) (later : List Act) :
    (if handling.connection.isReading then inbound (act :: later) else [])
      = handling.taking act ++
        if (handling.step provider tickets act).2.connection.isReading then inbound later
        else [] := by
  rw [isReading_step]
  cases act with
  | reads message =>
      rw [taking, inbound]
      dsimp only
      split <;> rfl
  | stops fault =>
      rw [inbound, ite_self]
      rfl
  | _ => rfl

/-- The reader stops for good. -/
theorem deaf_run {acts : List Act}
    (stopped : handling.connection.isReading = false ∨ ∃ fault, .stops fault ∈ acts) :
    (handling.run provider tickets acts).2.connection.isReading = false := by
  induction acts generalizing handling with
  | nil =>
      rcases stopped with deaf | ⟨fault, mem⟩
      · exact deaf
      · cases mem
  | cons act later ih =>
      refine ih ?_
      rw [isReading_step]
      rcases stopped with deaf | ⟨fault, mem⟩
      · cases act with
        | stops fault => exact .inl rfl
        | _ => exact .inl deaf
      · rcases List.mem_cons.mp mem with rfl | mem
        · exact .inl rfl
        · exact .inr ⟨fault, mem⟩

/-- Whatever happens, all messages that came in are accounted for. -/
theorem Kept.run (kept : handling.Kept provider tickets messages left) (acts : List Act) :
    (handling.run provider tickets acts).2.Kept provider tickets
      (messages ++ if handling.connection.isReading then inbound acts else [])
      (left ++ handling.departed provider tickets acts) := by
  induction acts generalizing handling messages left with
  | nil =>
      rw [inbound, ite_self, List.append_nil, departed, List.append_nil]
      exact kept
  | cons act later ih =>
      rw [departed, ← List.append_assoc, inbound_cons provider tickets, ← List.append_assoc]
      exact ih (kept.step act)

end Handling

end RemoteCall.Server

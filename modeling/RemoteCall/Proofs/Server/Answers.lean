import Mathlib.Data.List.Forall2
import Mathlib.Data.List.ReduceOption
import RemoteCall.Proofs.Frame.Encoding
import RemoteCall.Proofs.Server.Handling
import RemoteCall.Server.Basic

/-! # Every request is answered once

    When a connection is closed, the frames that were written are one pong for
    each ping and one response for each request that came in, and nothing else
    (`Handling.run_answers`).  A response is that of the provider, or a failure
    that tells why the workers did not handle the request, each under the
    numbers of the frame that it answers (`Handled`).  A response that has no
    frame is replaced by a failure that tells so, and only where that has no
    frame either nothing is written (`Delivery`).  And closed it is, once the
    reader has stopped and the pool has told what came of every request: the
    tasks pass that on, and the writer ends behind the last answer
    (`Kept.ends`).

    The route: which answers leave is told by what is kept of a connection and
    its pool (`Handling.Kept`).  What a leaving answer is written as takes no
    notice of what left before it (`written_run`), because the codec's pool
    stays clean.  What the task of a request was told is what the pool promises
    to tell it (`exists_responds`). -/

namespace RemoteCall

open RemoteCall.Frame

namespace Frame.Codec

/-- What a new codec writes for an answer: its frame, or else that of the response which replaces
it. -/
def delivery (codec : Codec) (answer : Message) : Option (Message × Bytes) :=
  match codec.frameOf answer with
  | .ok frame => some (answer, frame)
  | .error fault =>
    (Server.Connection.replacement answer fault).bind fun other =>
      (codec.frameOf other).toOption.map (other, ·)

/-- On a clean pool a leaving answer is written as a new codec does it, and the pool stays clean. -/
theorem frameOf_eq_delivery (codec : Codec) {pool : BufferPool} (clean : pool.Clean)
    (answer : Message) :
    ∃ after, after.Clean
      ∧ Server.Connection.frameOf (codec.withPool pool) answer
        = (codec.delivery answer, codec.withPool after) := by
  obtain ⟨next, nextClean, first⟩ := encode_of_clean (codec.withPool pool) clean answer []
  rw [frameOf_withPool] at first
  rw [Server.Connection.frameOf, first, delivery]
  cases codec.frameOf answer with
  | ok frame => exact ⟨next, nextClean, rfl⟩
  | error fault =>
      dsimp only
      cases Server.Connection.replacement answer fault with
      | none => exact ⟨next, nextClean, rfl⟩
      | some other =>
          obtain ⟨last, lastClean, second⟩ :=
            encode_of_clean (codec.withPool next) nextClean other []
          rw [frameOf_withPool] at second
          refine ⟨last, lastClean, ?_⟩
          dsimp only
          rw [show ((codec.withPool pool).withPool next).encode other [] = _ from second,
            Option.bind_some]
          cases codec.frameOf other <;> rfl

/-- A pong has a frame under every limit that a codec can have. -/
theorem frameOf_of_pong (catalogue : Extension.Catalogue) (limit : Nat) {pong : Message}
    (body : pong.body = .pong) :
    (ofLimit catalogue limit).frameOf pong = .ok (header headerLength pong) := by
  have fits : ¬ (ofLimit catalogue limit).limit < headerLength := by
    show ¬ min (max limit headerLength) sizeLimit < headerLength
    have room : headerLength ≤ sizeLimit := by decide
    omega
  rw [frameOf, packed, body]
  show finish _ _ _ = _
  rw [finish, List.length_nil, Nat.add_zero, if_neg fits, List.append_nil]

end Frame.Codec

namespace Server

open Workers (SharedPool)

/-! ## What is written for a request -/

/-- What came of a request at the workers, where its task has a ticket of a pool with a name, and the
response that follows from it. -/
inductive Responds (provider : Provider) (workers : SharedPool) (name : String)
    (ticket : Workers.Ticket) (request : Request) : Response → Prop
  | handled (ran : ticket ∈ workers.ended) (told : (ticket, none) ∈ workers.answers) :
    Responds provider workers name ticket request (provider.handle request)
  /-- The pool was shut down before the request could be handled. -/
  | refused (never : ticket ∉ workers.started) (told : (ticket,
      some (.transport ("worker pool " ++ name ++ " is shut down"))) ∈ workers.answers) :
    Responds provider workers name ticket request
      (.ofFailure request.id (Fault.transport ("worker pool " ++ name ++ " is shut down")).message)
  /-- A worker broke down over the request. -/
  | brokeDown (report : String) (ran : ticket ∈ workers.ended)
    (told : (ticket, some (.invocation ("worker task failed: " ++ report))) ∈ workers.answers) :
    Responds provider workers name ticket request
      (.ofFailure request.id (Fault.invocation ("worker task failed: " ++ report)).message)

/-- What is written as the response to a request with an id, under the numbers of a frame: the
response, or else one that tells why that has no frame; and nothing only where that has no frame
either. -/
inductive Delivery (codec : Codec) (format compression : UInt8) (id : UInt32) (requestId : String)
    (response : Response) : Option (Message × Bytes) → Prop
  | whole {frame : Bytes}
    (encodes : codec.encoded ⟨format, compression, id, .response response⟩ = .ok frame) :
    Delivery codec format compression id requestId response
      (some (⟨format, compression, id, .response response⟩, frame))
  | replaced {fault : Fault} {frame : Bytes}
    (fails : codec.encoded ⟨format, compression, id, .response response⟩ = .error fault)
    (encodes : codec.encoded
      ⟨format, compression, id, .response (.ofFailure requestId fault.message)⟩ = .ok frame) :
    Delivery codec format compression id requestId response
      (some (⟨format, compression, id, .response (.ofFailure requestId fault.message)⟩, frame))
  | missing {fault again : Fault}
    (fails : codec.encoded ⟨format, compression, id, .response response⟩ = .error fault)
    (failsAgain : codec.encoded
      ⟨format, compression, id, .response (.ofFailure requestId fault.message)⟩ = .error again) :
    Delivery codec format compression id requestId response none

/-- What is written for the message of a request whose task has a ticket. -/
inductive Handled (provider : Provider) (workers : SharedPool) (name : String) (codec : Codec)
    (ticket : Workers.Ticket) : Message → Option (Message × Bytes) → Prop
  | intro {format compression : UInt8} {id : UInt32} {request : Request} {response : Response}
    {delivery : Option (Message × Bytes)}
    (responds : Responds provider workers name ticket request response)
    (delivers : Delivery codec format compression id request.id response delivery) :
    Handled provider workers name codec ticket ⟨format, compression, id, .request request⟩ delivery

/-- What the task of a request was told is what the pool promises to tell it. -/
theorem exists_responds {provider : Provider} {workers : SharedPool} {name : String} {size : Nat}
    (promises : workers.Promises name size) {ticket : Workers.Ticket} {told : Option Fault}
    (known : (ticket, told) ∈ workers.answers) {message answer : Message}
    (replies : Replies provider told message answer) :
    ∃ format compression id request response,
      message = ⟨format, compression, id, .request request⟩
      ∧ answer = ⟨format, compression, id, .response response⟩
      ∧ Responds provider workers name ticket request response
      ∧ response.requestId = request.id := by
  obtain ⟨once, ended, others⟩ := promises.told
  by_cases ran : ticket ∈ workers.ended
  · obtain ⟨ending, same⟩ := ended ticket ran
    obtain rfl : told = ending.fault? :=
      congrArg Prod.snd (List.inj_on_of_nodup_map once known same rfl)
    cases ending with
    | finished =>
        cases replies
        exact ⟨_, _, _, _, _, rfl, rfl, .handled ran known, by simp⟩
    | brokeDown report =>
        cases replies
        exact ⟨_, _, _, _, _, rfl, rfl, .brokeDown report ran known, rfl⟩
  · obtain ⟨never, rfl⟩ := others ticket told known ran
    cases replies
    exact ⟨_, _, _, _, _, rfl, rfl, .refused never known, rfl⟩

/-- Every response is delivered. -/
theorem delivery_delivery {codec : Codec} (clean : codec.buffers.Clean)
    (format compression : UInt8) (id : UInt32) (response : Response) :
    Delivery codec format compression id response.requestId response
      (codec.delivery ⟨format, compression, id, .response response⟩) := by
  have encoded := Codec.encoded_of_clean clean
  rw [Codec.delivery]
  cases first : codec.frameOf ⟨format, compression, id, .response response⟩ with
  | ok frame => exact .whole ((encoded _).trans first)
  | error fault =>
      have fails := (encoded _).trans first
      simp only [Connection.replacement, Option.bind_some]
      cases second : codec.frameOf
          ⟨format, compression, id, .response (.ofFailure response.requestId fault.message)⟩ with
      | ok frame => exact .replaced fails ((encoded _).trans second)
      | error again => exact .missing fails ((encoded _).trans second)

/-- The answer to a request is delivered as what came of the request gives. -/
theorem handled_of_replies {provider : Provider} {workers : SharedPool} {name : String} {size : Nat}
    (promises : workers.Promises name size) {codec : Codec} (clean : codec.buffers.Clean)
    {ticket : Workers.Ticket} {told : Option Fault} (known : (ticket, told) ∈ workers.answers)
    {message answer : Message} (replies : Replies provider told message answer) :
    Handled provider workers name codec ticket message (codec.delivery answer) := by
  obtain ⟨format, compression, id, request, response, rfl, rfl, responds, same⟩ :=
    exists_responds promises known replies
  exact .intro responds (same ▸ delivery_delivery clean format compression id response)

/-- Pongs are delivered as they are, with nothing but a header. -/
theorem delivery_pong (catalogue : Extension.Catalogue) (limit : Nat) {message pong : Message}
    (answers : pongTo? message = some pong) :
    (Codec.ofLimit catalogue limit).delivery pong = some (pong, header headerLength pong) := by
  have body : pong.body = .pong := by
    obtain ⟨format, compression, id, body⟩ := message
    cases body with
    | ping =>
        obtain rfl := Option.some.inj answers
        rfl
    | _ => cases answers
  rw [Codec.delivery, Codec.frameOf_of_pong catalogue limit body]

theorem filterMap_delivery_pongs (catalogue : Extension.Catalogue) (limit : Nat)
    (messages : List Message) :
    (messages.filterMap pongTo?).filterMap (Codec.ofLimit catalogue limit).delivery
      = (messages.filterMap pongTo?).map fun pong => (pong, header headerLength pong) := by
  rw [← List.filterMap_eq_map]
  refine List.filterMap_congr fun pong mem => ?_
  obtain ⟨message, -, answers⟩ := List.mem_filterMap.mp mem
  exact delivery_pong catalogue limit answers

/-- Only a pong is delivered as a pong. -/
theorem filter_delivery (catalogue : Extension.Catalogue) (limit : Nat) (answer : Message) :
    ((Codec.ofLimit catalogue limit).delivery answer).filter (isPong ·.1)
      = if isPong answer then some (answer, header headerLength answer) else none := by
  cases pong : isPong answer with
  | true =>
      rw [Codec.delivery, Codec.frameOf_of_pong catalogue limit (of_decide_eq_true pong)]
      exact Option.filter_some_pos pong
  | false =>
      rw [Codec.delivery]
      cases (Codec.ofLimit catalogue limit).frameOf answer with
      | ok frame => exact Option.filter_some_neg (by simp [pong])
      | error fault =>
          dsimp only
          rw [Connection.replacement]
          split
          · next response body =>
              -- what replaces a response is a response
              rw [Option.bind_some]
              cases (Codec.ofLimit catalogue limit).frameOf _ with
              | ok frame => rfl
              | error again => rfl
          · rfl

/-! ## What is written -/

/-- The messages that were written, with their frames. -/
def written (effects : List Effect) : List (Message × Bytes) :=
  effects.filterMap fun
    | .written message frame => some (message, frame)
    | _ => none

/-- What the connection writes is the delivery of what leaves, and the codec's pool stays clean. -/
theorem Connection.written_step (provider : Provider) {connection : Connection} {codec : Codec}
    {pool : BufferPool} (clean : pool.Clean) (sound : connection.codec = codec.withPool pool)
    (happening : Happening) :
    written (connection.step provider happening).1
        = (match happening with
          | .turn => if connection.isWriting then connection.outbox.take 1 else []
          | _ => []).filterMap codec.delivery
      ∧ ∃ after : BufferPool, after.Clean
        ∧ (connection.step provider happening).2.codec = codec.withPool after := by
  cases happening with
  | message message =>
      rw [step]
      split
      · rw [takeMessage]
        split <;> exact ⟨rfl, pool, clean, sound⟩
      · exact ⟨rfl, pool, clean, sound⟩
  | ended fault =>
      rw [step]
      split
      · rw [stopReading]
        split <;> exact ⟨rfl, pool, clean, sound⟩
      · exact ⟨rfl, pool, clean, sound⟩
  | returned number fault? =>
      rw [step, takeBack]
      split <;> exact ⟨rfl, pool, clean, sound⟩
  | turn =>
      rw [step]
      dsimp only
      split
      · rw [write]
        cases connection.outbox with
        | nil =>
            dsimp only
            split <;> exact ⟨rfl, pool, clean, sound⟩
        | cons answer rest =>
            obtain ⟨after, afterClean, framed⟩ := codec.frameOf_eq_delivery clean answer
            rw [sound]
            dsimp only
            rw [framed]
            refine ⟨?_, after, afterClean, rfl⟩
            dsimp only
            rw [List.take_succ_cons, List.take_zero, List.filterMap_cons, List.filterMap_nil]
            cases codec.delivery answer <;> rfl
      · exact ⟨rfl, pool, clean, sound⟩
  | closing =>
      rw [step, close]
      split <;> exact ⟨rfl, pool, clean, sound⟩

namespace Handling

variable {provider : Provider} {tickets : JobNumber ↪ Workers.Ticket} {handling : Handling}

theorem written_step {codec : Codec} {pool : BufferPool} (clean : pool.Clean)
    (sound : handling.connection.codec = codec.withPool pool) (act : Act) :
    written (handling.step provider tickets act).1
        = (handling.leaving act).filterMap codec.delivery
      ∧ ∃ after : BufferPool, after.Clean
        ∧ (handling.step provider tickets act).2.connection.codec = codec.withPool after := by
  have steps := Connection.written_step provider clean sound
  cases act with
  | reads message => exact steps (.message message)
  | stops fault => exact steps (.ended fault)
  | works act => exact ⟨rfl, pool, clean, sound⟩
  | answers number =>
      rw [step]
      cases handling.workers.answers.lookup (tickets number) with
      | none => exact ⟨rfl, pool, clean, sound⟩
      | some told => exact steps (.returned number told)
  | writes => exact steps .turn
  | closes => exact steps .closing

theorem written_run {codec : Codec} {pool : BufferPool} (clean : pool.Clean)
    (sound : handling.connection.codec = codec.withPool pool) (acts : List Act) :
    written (handling.run provider tickets acts).1
      = (handling.departed provider tickets acts).filterMap codec.delivery := by
  induction acts generalizing handling pool with
  | nil => rfl
  | cons act later ih =>
      obtain ⟨first, after, afterClean, still⟩ := written_step clean sound act
      rw [departed, run, written, List.filterMap_append, List.filterMap_append]
      exact congrArg₂ (· ++ ·) first (ih afterClean still)

/-! ## The end of a connection -/

/-- What is left to do when the reader has stopped and the pool has told what came of every request:
the tasks pass it on, the writer writes what there is and stops, and the connection is closed. -/
def remaining (connection : Connection) : List Act :=
  (connection.jobs.map fun job => .answers job.number)
    ++ (List.replicate (connection.outbox.length + connection.jobs.length + 1) .writes ++ [.closes])

/-- A writer to whom nobody can add anything stops, or it has less to write after its turn. -/
theorem turn_of_silent (provider : Provider) {connection : Connection}
    (silent : connection.hasSenders = false) :
    let after := (connection.step provider .turn).2
    after.hasSenders = false ∧ (after.isWriting = true →
      connection.isWriting = true ∧ after.outbox.length < connection.outbox.length) := by
  rw [Connection.step]
  split
  · next isWriting =>
      rw [Connection.write]
      cases oldest : connection.outbox with
      | nil =>
          rw [silent]
          exact ⟨silent, fun isWriting => absurd isWriting Bool.false_ne_true⟩
      | cons answer rest => exact ⟨silent, fun _ => ⟨isWriting, Nat.lt_succ_self _⟩⟩
  · next stopped => exact ⟨silent, fun isWriting => absurd isWriting stopped⟩

/-- The writer stops when it has written what is left, if nobody can add to it. -/
theorem stops_run (provider : Provider) (tickets : JobNumber ↪ Workers.Ticket)
    {handling : Handling} (silent : handling.connection.hasSenders = false) {turns : Nat}
    (enough : handling.connection.isWriting = true → handling.connection.outbox.length < turns) :
    let after := (handling.run provider tickets (List.replicate turns .writes)).2.connection
    after.isReading = false ∧ after.isWriting = false := by
  induction turns generalizing handling with
  | zero =>
      rw [Connection.hasSenders, Bool.or_eq_false_iff] at silent
      exact ⟨silent.1, eq_false_of_ne_true fun isWriting => Nat.not_lt_zero _ (enough isWriting)⟩
  | succ turns ih =>
      obtain ⟨still, less⟩ := turn_of_silent provider silent
      rw [List.replicate_succ, run]
      have still : (handling.step provider tickets .writes).2.connection.hasSenders = false := still
      refine ih still fun isWriting => ?_
      obtain ⟨before, less⟩ := less isWriting
      exact Nat.lt_of_lt_of_le less (Nat.lt_succ_iff.mp (enough before))

theorem run_append (handling : Handling) (acts later : List Act) :
    (handling.run provider tickets (acts ++ later)).2
      = ((handling.run provider tickets acts).2.run provider tickets later).2 := by
  induction acts generalizing handling with
  | nil => rfl
  | cons act acts ih => exact ih _

theorem takeBack_cons (provider : Provider) {connection : Connection} {job : Job} {jobs : List Job}
    (there : connection.jobs = job :: jobs) (new : job.number ∉ jobs.map (·.number))
    (fault? : Option Fault) :
    connection.takeBack provider job.number fault?
      = { connection with
          jobs := jobs
          outbox := connection.outbox ++ [job.answer provider fault?] } := by
  have first : connection.jobs.find? (·.number = job.number) = some job := by
    rw [there]
    exact List.find?_cons_of_pos (decide_eq_true rfl)
  have others : connection.jobs.filter (·.number ≠ job.number) = jobs := by
    rw [there, List.filter_cons_of_neg (by simp), List.filter_eq_self]
    exact fun other mem => decide_eq_true fun same => new (List.mem_map.mpr ⟨other, mem, same⟩)
  rw [Connection.takeBack, first, others]

/-- Each task is gone when it has passed on what the pool has told it. -/
theorem answers_run (provider : Provider) {jobs : List Job} (there : handling.connection.jobs = jobs)
    (distinct : (jobs.map (·.number)).Nodup)
    (told : ∀ job ∈ jobs, ∃ told, (tickets job.number, told) ∈ handling.workers.answers) :
    let after := (handling.run provider tickets (jobs.map fun job => .answers job.number)).2.connection
    after.jobs = [] ∧ after.outbox.length = handling.connection.outbox.length + jobs.length := by
  induction jobs generalizing handling with
  | nil => exact ⟨there, rfl⟩
  | cons job jobs ih =>
      obtain ⟨new, distinct⟩ := List.nodup_cons.mp distinct
      rw [List.map_cons, run, step]
      cases found : handling.workers.answers.lookup (tickets job.number) with
      | none =>
          obtain ⟨told, known⟩ := told job (.head _)
          simpa using List.lookup_eq_none_iff.mp found _ known
      | some fault? =>
          dsimp only
          rw [take, Connection.step, takeBack_cons provider there new]
          obtain ⟨gone, counted⟩ := @ih
            { handling with connection := { handling.connection with
                jobs := jobs
                outbox := handling.connection.outbox ++ [job.answer provider fault?] } }
            rfl distinct fun other mem => told other (.tail _ mem)
          refine ⟨gone, counted.trans ?_⟩
          rw [List.length_append, List.length_singleton, List.length_cons]
          omega

/-- The connection is closed when the writer has written what is left, if the reader has stopped and
all requests have come back. -/
theorem closes_run (silent : handling.connection.hasSenders = false) :
    (handling.run provider tickets (List.replicate (handling.connection.outbox.length + 1) .writes
      ++ [.closes])).2.connection.isOpen = false := by
  obtain ⟨deaf, stopped⟩ := stops_run provider tickets silent fun _ => Nat.lt_succ_self _
  rw [run_append]
  generalize (handling.run provider tickets _).2 = after at deaf stopped
  show (after.connection.close).2.isOpen = false
  rw [Connection.close, deaf, stopped]
  cases isOpen : after.connection.isOpen with
  | true => rfl
  | false => exact isOpen

/-! ## All answers -/

/-- Only acts of the pool concern it. -/
theorem workers_step (handling : Handling) (act : Act) :
    (handling.step provider tickets act).2.workers
      = match act with
        | .works call => handling.workers.step call
        | _ => handling.workers := by
  cases act with
  | answers number =>
      rw [step]
      cases handling.workers.answers.lookup (tickets number) <;> rfl
  | _ => rfl

theorem workers_run (provider : Provider) (tickets : JobNumber ↪ Workers.Ticket)
    (handling : Handling) (acts : List Act) :
    ∃ calls, (handling.run provider tickets acts).2.workers = handling.workers.run calls := by
  induction acts generalizing handling with
  | nil => exact ⟨[], rfl⟩
  | cons act later ih =>
      obtain ⟨calls, same⟩ := ih (handling.step provider tickets act).2
      rw [workers_step] at same
      cases act with
      | works call => exact ⟨call :: calls, same⟩
      | _ => exact ⟨calls, same⟩

/-- A connection whose reader has stopped ends when the pool has told what came of every request. -/
theorem Kept.ends {messages left : List Message} (kept : handling.Kept provider tickets messages left)
    (deaf : handling.connection.isReading = false)
    (told : ∀ request ∈ requests messages,
      ∃ told, (tickets request.2, told) ∈ handling.workers.answers) :
    (handling.run provider tickets (remaining handling.connection)).2.connection.isOpen = false := by
  have known (job : Job) (mem : job ∈ handling.connection.jobs) :
      ∃ told, (tickets job.number, told) ∈ handling.workers.answers := by
    obtain ⟨done, requests, -, -⟩ := kept.answered
    exact told job.origin
      (requests.mem_iff.mpr (List.mem_append_right _ (List.mem_map_of_mem mem)))
  obtain ⟨gone, counted⟩ := answers_run provider rfl kept.nodup_numbers known
  rw [remaining, run_append, ← counted]
  refine closes_run ?_
  rw [Connection.hasSenders, deaf_run (.inl deaf), gone]
  rfl

/-- What has left a closed connection is delivered as the pongs and, for each request, what its outcome
gives. -/
theorem Kept.exists_deliveries {messages left : List Message}
    (kept : handling.Kept provider tickets messages left)
    (closed : handling.connection.isOpen = false) {name : String} {size : Nat}
    (promises : handling.workers.Promises name size) {codec : Codec} (clean : codec.buffers.Clean) :
    ∃ deliveries : List (Option (Message × Bytes)),
      List.Forall₂ (fun request delivery =>
          Handled provider handling.workers name codec (tickets request.2) request.1 delivery)
        (requests messages) deliveries
      ∧ (left.filterMap codec.delivery).Perm
        ((messages.filterMap pongTo?).filterMap codec.delivery ++ deliveries.reduceOption) := by
  obtain ⟨silent, outbox⟩ := kept.silent (kept.closed closed).2
  rw [Connection.hasSenders, Bool.or_eq_false_iff, Bool.not_eq_false', List.isEmpty_iff] at silent
  obtain ⟨done, requests, answers, replies⟩ := kept.answered
  rw [silent.2, List.map_nil, List.append_nil] at requests
  rw [outbox, List.append_nil] at answers
  -- each request that came in is among those that have answers
  have handled : List.Forall₂ (fun request delivery =>
        Handled provider handling.workers name codec (tickets request.2) request.1 delivery)
      (done.map (·.1)) (done.map fun one => codec.delivery one.2) := by
    rw [List.forall₂_map_left_iff, List.forall₂_map_right_iff, List.forall₂_same]
    intro one mem
    obtain ⟨told, known, replied⟩ := replies one mem
    exact handled_of_replies promises clean known replied
  obtain ⟨deliveries, handled, same⟩ := List.perm_comp_forall₂ requests handled
  refine ⟨deliveries, handled, (answers.filterMap codec.delivery).trans ?_⟩
  rw [List.filterMap_append]
  refine List.Perm.append_left _ ?_
  have delivered := same.symm.filterMap id
  rw [List.filterMap_map] at delivered ⊢
  exact delivered

/-- What a connection has written after some acts, in which its requests had the tickets that belong
to their numbers. -/
structure Answered (provider : Provider) (tickets : JobNumber ↪ Workers.Ticket) (name : String)
    (codec : Codec) (acts : List Act) (frames : List (Message × Bytes)) (handling : Handling) :
    Prop where
  /-- When the connection is closed, one pong was written for each ping, and for each request what
  its outcome gives; the frames are these, in some order. -/
  whole : handling.connection.isOpen = false →
    ∃ deliveries : List (Option (Message × Bytes)),
      List.Forall₂ (fun request delivery =>
          Handled provider handling.workers name codec (tickets request.2) request.1 delivery)
        (requests (inbound acts)) deliveries
      ∧ frames.Perm (((inbound acts).filterMap pongTo?).map (fun pong =>
          (pong, header headerLength pong)) ++ deliveries.reduceOption)
  /-- The pongs are in the order of their pings. -/
  ordered : handling.connection.isOpen = false →
    frames.filter (isPong ·.1)
      = ((inbound acts).filterMap pongTo?).map fun pong => (pong, header headerLength pong)
  /-- When the reader was stopped and the pool has told what came of every request, nothing is between
  the connection and its end but what the tasks and the writer have left to do. -/
  ends : (∃ fault, .stops fault ∈ acts) →
    (∀ request ∈ requests (inbound acts),
      ∃ told, (tickets request.2, told) ∈ handling.workers.answers) →
    (handling.run provider tickets (remaining handling.connection)).2.connection.isOpen = false

/-- **Every ping and every request on a connection is answered once**, in every run of a connection
and of the pool that handles its requests. -/
theorem run_answers (provider : Provider) (catalogue : Extension.Catalogue) (limit : Nat)
    (name : String) (size : Nat) (tickets : JobNumber ↪ Workers.Ticket) (acts : List Act) :
    let codec := Codec.ofLimit catalogue limit
    let outcome := (start codec name size).run provider tickets acts
    Answered provider tickets name codec acts (written outcome.1) outcome.2 := by
  intro codec outcome
  have clean : codec.buffers.Clean := Codec.clean_ofLimit catalogue limit
  have wrote : written outcome.1
      = ((start codec name size).departed provider tickets acts).filterMap codec.delivery :=
    written_run clean (show codec = codec.withPool codec.buffers from rfl) acts
  have promises : outcome.2.workers.Promises name size := by
    obtain ⟨calls, same⟩ := workers_run provider tickets (start codec name size) acts
    rw [show outcome.2.workers = _ from same]
    exact SharedPool.promises_run name size calls
  have kept : outcome.2.Kept provider tickets (inbound acts)
      ((start codec name size).departed provider tickets acts) :=
    (kept_start provider tickets codec name size).run acts
  generalize (start codec name size).departed provider tickets acts = left at wrote kept
  refine { whole := fun closed => ?whole, ordered := fun closed => ?ordered, ends := ?ends }
  case whole =>
    obtain ⟨deliveries, handled, delivered⟩ := kept.exists_deliveries closed promises clean
    rw [← wrote, filterMap_delivery_pongs catalogue limit] at delivered
    exact ⟨deliveries, handled, delivered⟩
  case ordered =>
    obtain ⟨-, outbox⟩ := kept.silent (kept.closed closed).2
    have pongs := kept.pongs
    rw [outbox, List.append_nil] at pongs
    rw [wrote, ← pongs, List.filter_filterMap, ← List.filterMap_eq_map, List.filterMap_filter]
    refine List.filterMap_congr fun answer _ => ?_
    exact filter_delivery catalogue limit answer
  case ends =>
    intro stopped told
    exact kept.ends (deaf_run (.inr stopped)) told

/-- A request for a service that nobody has published comes back after the reader has stopped, when
the pong to a later ping has left already. -/
theorem run_answers_late :
    let codec := Codec.ofLimit Extension.Catalogue.codecs 1024
    let request : Message := ⟨1, 0, 3, .request ⟨"1", "Echo", "say", ["text"], [7], "", ""⟩⟩
    let acts : List Act := [.reads request, .reads ⟨1, 0, 4, .ping⟩, .works (.submit 1),
      .works (.ask 1), .works .serve, .writes, .stops none, .works (.finish 1 .finished),
      .answers 1, .writes, .writes, .closes]
    let outcome := (start codec poolName 1).run .empty (.refl Nat) acts
    outcome.2.connection.isOpen = false
      ∧ ∃ deliveries,
        List.Forall₂ (fun request delivery =>
            Handled .empty outcome.2.workers poolName codec request.2 request.1 delivery)
          [(request, 1)] deliveries
        ∧ (written outcome.1).Perm
          ((⟨1, 0, 4, .pong⟩, header headerLength ⟨1, 0, 4, .pong⟩) :: deliveries.reduceOption) := by
  intro codec request acts outcome
  have closed : outcome.2.connection.isOpen = false := by decide +kernel
  have answered : Answered .empty (.refl Nat) poolName codec acts (written outcome.1) outcome.2 :=
    run_answers .empty Extension.Catalogue.codecs 1024 poolName 1 (.refl Nat) acts
  obtain ⟨deliveries, handled, frames⟩ := answered.whole closed
  have read : requests (inbound acts) = [(request, 1)] := rfl
  have pongs : (inbound acts).filterMap pongTo? = [⟨1, 0, 4, .pong⟩] := rfl
  rw [read] at handled
  rw [pongs] at frames
  exact ⟨closed, deliveries, handled, frames⟩

end Handling

end Server

end RemoteCall

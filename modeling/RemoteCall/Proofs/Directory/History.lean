import RemoteCall.Proofs.Directory.Operations

/-! # What happens in a store

    The log of a store tells what happens there: which operations change the
    tree, which watchers come, and which watcher is called with which change
    (`Occurrence`).  Beside each function of the store stands the log of it, so
    that what watchers report is what their part of the log tells
    (`events_reactLog`, `Delivers.deliver_eq`, `Runs.run_eq`).

    Delivery ends where watchers stop answering changes with changes.  It is
    told by the finite deliveries (`Delivers`): they determine what the loop
    comes to.

    A history is a log with the store that it leads to, taken step by step
    (`History`).  Everything that can be met while the store is used, by those
    outside or by watchers, is met in a history (`History.runs`), so what every
    step keeps holds at every moment. -/

namespace RemoteCall.Directory

/-- What can happen in a store. -/
inductive Occurrence (ε : Type) where
  /-- A creation or deletion turns a tree into another one. -/
  | changed (before after : Tree)
  /-- A path gets a watcher. -/
  | watched (path : String) (watcher : Watcher ε)
  /-- A watcher is called with a change; the watchers of a path are numbered. -/
  | called (number : Nat) (watcher : Watcher ε) (change : Change)
  /-- A watcher reports an event. -/
  | reported (event : ε)

namespace Occurrence

variable {ε : Type}

/-- The event that is reported. -/
def event? : Occurrence ε → Option ε
  | .reported event => some event
  | _ => none

/-- The change of the children of a path. -/
def changeOf? (path : String) : Occurrence ε → Option Change
  | .changed before after =>
    if before.children path = after.children path then none else some (after.changeAt path)
  | _ => none

/-- The change with which a watcher of a path is called. -/
def callOf? (path : String) (number : Nat) : Occurrence ε → Option Change
  | .called other _ change => if other = number ∧ change.path = path then some change else none
  | _ => none

/-- The watcher that a path gets. -/
def watcherAt? (path : String) : Occurrence ε → Option (Watcher ε)
  | .watched other watcher => if other = path then some watcher else none
  | _ => none

/-- What has become of a tree. -/
def treeAfter (tree : Tree) : Occurrence ε → Tree
  | .changed _ after => after
  | _ => tree

end Occurrence

variable {ε : Type}

/-- The events that are reported. -/
def eventsOf (log : List (Occurrence ε)) : List ε :=
  log.filterMap Occurrence.event?

/-- The changes of the children of a path. -/
def changesOf (path : String) (log : List (Occurrence ε)) : List Change :=
  log.filterMap (Occurrence.changeOf? path)

/-- The changes with which a watcher of a path is called. -/
def callsOf (path : String) (number : Nat) (log : List (Occurrence ε)) : List Change :=
  log.filterMap (Occurrence.callOf? path number)

/-- The watchers that a path gets. -/
def watchersAt (path : String) (log : List (Occurrence ε)) : List (Watcher ε) :=
  log.filterMap (Occurrence.watcherAt? path)

/-- What has become of the empty tree. -/
def treeAfter (log : List (Occurrence ε)) : Tree :=
  log.foldl Occurrence.treeAfter .empty

namespace Store

/-! ## The log of a reaction and of a delivery -/

/-- What happens if an operation on the tree comes to an outcome. -/
def changeLog (store : Store ε) : Except Fault Unit × Store ε → List (Occurrence ε)
  | (.ok (), after) => [.changed store.tree after.tree]
  | (.error _, _) => []

/-- What happens if a path is to be watched. -/
def watchLog (store : Store ε) (path : String) (watcher : Watcher ε) : List (Occurrence ε) :=
  match (store.watch path watcher).1 with
  | .ok () => [.watched path watcher]
  | .error _ => []

/-- What happens while a watcher reacts. -/
def reactLog : Reaction ε → Store ε → List (Occurrence ε)
  | .done, _ => []
  | .report event next, store => .reported event :: reactLog next store
  | .look next, store => reactLog (next store.tree) store
  | .create path data next, store =>
    let outcome := store.queueCreate path data
    store.changeLog outcome ++ reactLog (next outcome.1) outcome.2
  | .delete path next, store =>
    let outcome := store.queueDelete path
    store.changeLog outcome ++ reactLog (next outcome.1) outcome.2
  | .watch path watcher next, store =>
    let outcome := store.watch path watcher
    store.watchLog path watcher ++ reactLog (next outcome.1) outcome.2

/-- What happens while watchers are called with a change, from a number on. -/
def callLog (change : Change) : Nat → List (Watcher ε) → Store ε → List (Occurrence ε)
  | _, [], _ => []
  | number, watcher :: rest, store =>
    .called number watcher change :: reactLog (watcher change) store
      ++ callLog change (number + 1) rest (react (watcher change) store).2

/-- What happens while the oldest change is delivered. -/
def callOldestLog (store : Store ε) (change : Change) (others : List Change) :
    List (Occurrence ε) :=
  callLog change 0 (store.watchersOf change.path) { store with queue := others, isDelivering := true }

/-- Delivery comes to an end, with what happens until then and the store that it leaves. -/
inductive Delivers : Store ε → List (Occurrence ε) → Store ε → Prop where
  | done {store : Store ε} (empty : store.queue = []) :
      Delivers store [] { store with isDelivering := false }
  | next {store final : Store ε} {log : List (Occurrence ε)} (change : Change)
      (others : List Change) (oldest : store.queue = change :: others)
      (later : Delivers (store.callOldest change others).2 log final) :
      Delivers store (store.callOldestLog change others ++ log) final

theorem events_changeLog (store : Store ε) (outcome : Except Fault Unit × Store ε) :
    eventsOf (store.changeLog outcome) = [] := by
  rw [changeLog.eq_def]
  split <;> rfl

theorem events_watchLog (store : Store ε) (path : String) (watcher : Watcher ε) :
    eventsOf (store.watchLog path watcher) = [] := by
  rw [watchLog]
  split <;> rfl

theorem eventsOf_append (log more : List (Occurrence ε)) :
    eventsOf (log ++ more) = eventsOf log ++ eventsOf more :=
  List.filterMap_append

/-- A watcher reports what the log tells. -/
theorem events_reactLog (reaction : Reaction ε) (store : Store ε) :
    eventsOf (reactLog reaction store) = (react reaction store).1 := by
  induction reaction generalizing store with
  | done => rfl
  | report event next ih => exact congrArg (event :: ·) (ih store)
  | look next ih => exact ih store.tree store
  | create path data next ih =>
      rw [reactLog, eventsOf_append, events_changeLog]
      exact ih _ _
  | delete path next ih =>
      rw [reactLog, eventsOf_append, events_changeLog]
      exact ih _ _
  | watch path watcher next _ ih =>
      rw [reactLog, eventsOf_append, events_watchLog]
      exact ih _ _

theorem events_callLog (change : Change) (number : Nat) (watchers : List (Watcher ε))
    (store : Store ε) :
    eventsOf (callLog change number watchers store) = (call change watchers store).1 := by
  induction watchers generalizing number store with
  | nil => rfl
  | cons watcher rest ih =>
      rw [callLog, List.cons_append, call]
      show eventsOf (reactLog (watcher change) store ++ _) = _
      rw [eventsOf_append, events_reactLog, ih]

/-- One turn of the loop. -/
theorem loop_eq (state : List ε × Store ε) :
    Id.run (repeatM (fun state => pure (deliverNext state)) state)
      = match deliverNext state with
        | .inl state => Id.run (repeatM (fun state => pure (deliverNext state)) state)
        | .inr state => state := by
  rw [repeatM_eq_of_monadTail, repeatM.body, Id.run_bind]
  cases deliverNext state <;> rfl

/-- A finite delivery is what the loop comes to. -/
theorem Delivers.deliver_eq {store final : Store ε} {log : List (Occurrence ε)}
    (delivers : Delivers store log final) : store.deliver = (eventsOf log, final) := by
  -- the loop carries along what has been reported already
  suffices ∀ events : List ε,
      Id.run (repeatM (fun state => pure (deliverNext state)) (events, store))
        = (events ++ eventsOf log, final) from this []
  induction delivers with
  | done empty =>
      intro events
      rw [loop_eq, deliverNext, empty]
      exact congrArg (·, _) (List.append_nil events).symm
  | next change others oldest _ ih =>
      intro events
      rw [loop_eq, deliverNext, oldest]
      dsimp only
      rw [ih, eventsOf_append, callOldestLog, events_callLog, List.append_assoc]
      rfl

end Store

/-! ## Runs -/

/-- What those outside can do with a store. -/
inductive Act (ε : Type) where
  /-- They create a node. -/
  | create (path : String) (data : Bytes)
  /-- They delete a node. -/
  | delete (path : String)
  /-- They have a watcher called with the changes of a path. -/
  | watch (path : String) (watcher : Watcher ε)
  /-- The store comes within reach or gets out of reach. -/
  | become (isAvailable : Bool)

namespace Store

/-- What an act comes to: its result, what watchers report, and the store. -/
def perform (store : Store ε) : Act ε → Except Fault Unit × List ε × Store ε
  | .create path data => store.create path data
  | .delete path => store.delete path
  | .watch path watcher =>
    let (result, store) := store.watch path watcher
    (result, [], store)
  | .become isAvailable => (.ok (), [], { store with isAvailable })

/-- What watchers report during some acts, and the store that these leave. -/
def run (store : Store ε) : List (Act ε) → List ε × Store ε
  | [] => ([], store)
  | act :: acts =>
    let outcome := (store.perform act).2
    let others := outcome.2.run acts
    (outcome.1 ++ others.1, others.2)

/-- An operation on the tree comes to an end: it fails, or what it queues is delivered. -/
inductive Settles (store : Store ε) :
    Except Fault Unit × Store ε → List (Occurrence ε) → Store ε → Prop where
  | failed (fault : Fault) (same : Store ε) : Settles store (.error fault, same) [] same
  | delivered {changed final : Store ε} {log : List (Occurrence ε)}
      (delivers : Delivers changed log final) :
      Settles store (.ok (), changed) (store.changeLog (.ok (), changed) ++ log) final

/-- An act comes to an end, with what happens until then and the store that it leaves. -/
inductive Performs (store : Store ε) : Act ε → List (Occurrence ε) → Store ε → Prop where
  | create {path : String} {data : Bytes} {log : List (Occurrence ε)} {final : Store ε}
      (settles : Settles store (store.queueCreate path data) log final) :
      Performs store (.create path data) log final
  | delete {path : String} {log : List (Occurrence ε)} {final : Store ε}
      (settles : Settles store (store.queueDelete path) log final) :
      Performs store (.delete path) log final
  | watch (path : String) (watcher : Watcher ε) :
      Performs store (.watch path watcher) (store.watchLog path watcher)
        (store.watch path watcher).2
  | become (isAvailable : Bool) :
      Performs store (.become isAvailable) [] { store with isAvailable }

/-- All of some acts come to an end, one after the other. -/
inductive Runs : Store ε → List (Act ε) → List (Occurrence ε) → Store ε → Prop where
  | nil (store : Store ε) : Runs store [] [] store
  | cons {store next final : Store ε} {act : Act ε} {acts : List (Act ε)}
      {log more : List (Occurrence ε)} (performs : Performs store act log next)
      (runs : Runs next acts more final) : Runs store (act :: acts) (log ++ more) final

/-- Nothing is queued and nothing is being delivered. -/
def Rests (store : Store ε) : Prop :=
  store.queue = [] ∧ store.isDelivering = false

variable {store final : Store ε} {log : List (Occurrence ε)}

theorem Delivers.rests (delivers : Delivers store log final) : final.Rests := by
  induction delivers with
  | done empty => exact ⟨empty, rfl⟩
  | next _ _ _ _ ih => exact ih

/-- What an operation on the tree comes to is what its end tells. -/
theorem Settles.settle_eq {outcome : Except Fault Unit × Store ε} (advances : store.Advances outcome)
    (rests : store.Rests) (settles : Settles store outcome log final) :
    (settle outcome).2 = (eventsOf log, final) ∧ final.Rests := by
  rcases advances with ⟨fault, rfl⟩ | ⟨tree, changes, rfl, -⟩
  · cases settles
    exact ⟨rfl, rests⟩
  · obtain _ | ⟨delivers⟩ := settles
    rw [settle, notify, if_neg (by simp [rests.2]), delivers.deliver_eq]
    exact ⟨rfl, delivers.rests⟩

/-- What an act comes to is what its end tells. -/
theorem Performs.perform_eq {act : Act ε} (rests : store.Rests)
    (performs : Performs store act log final) :
    (store.perform act).2 = (eventsOf log, final) ∧ final.Rests := by
  cases performs with
  | create settles => exact settles.settle_eq (store.advances_queueCreate _ _) rests
  | delete settles => exact settles.settle_eq (store.advances_queueDelete _) rests
  | watch path watcher =>
      rw [events_watchLog]
      refine ⟨rfl, ?_⟩
      rcases store.watch_cases path watcher with ⟨-, fault, outcome⟩ | ⟨-, outcome⟩ <;>
        rw [outcome] <;> exact rests
  | become isAvailable => exact ⟨rfl, rests⟩

/-- What acts come to is what their ends tell. -/
theorem Runs.run_eq {acts : List (Act ε)} (runs : Runs store acts log final)
    (rests : store.Rests) : store.run acts = (eventsOf log, final) ∧ final.Rests := by
  induction runs with
  | nil store => exact ⟨rfl, rests⟩
  | cons performs _ ih =>
      obtain ⟨outcome, rests⟩ := performs.perform_eq rests
      obtain ⟨others, rests⟩ := ih rests
      rw [run, outcome, others, eventsOf_append]
      exact ⟨rfl, rests⟩

/-- Tells each change, but first puts a second node beside a lone one. -/
def writesBack : Watcher Change := fun change =>
  if change.children = ["x"] then .create "/a/y" [] fun _ => .report change .done
  else .report change .done

/-- A watcher that writes back is called again, after the changes that waited already. -/
theorem runs_writesBack : ∃ log final,
    Runs .empty [.watch "/a" writesBack, .create "/a/x" []] log final
      ∧ eventsOf log = [⟨"/a", ["x"]⟩, ⟨"/a", ["x", "y"]⟩]
      ∧ final.tree.children "/a" = ["x", "y"] := by
  refine ⟨_, _, .cons (.watch "/a" writesBack) (.cons (.create (.delivered
    (.next ⟨"/a", ["x"]⟩ [⟨"/", ["a"]⟩] ?_ (.next ⟨"/", ["a"]⟩ [⟨"/a", ["x", "y"]⟩] ?_
      (.next ⟨"/a", ["x", "y"]⟩ [] ?_ (.done ?_)))))) (.nil _)), ?_, ?_⟩
  all_goals decide +kernel

end Store

/-! ## Histories -/

/-- A change that is being delivered. -/
structure Due (ε : Type) where
  change : Change
  /-- The number of the watcher that is called next. -/
  number : Nat
  /-- The watchers that are still to be called. -/
  watchers : List (Watcher ε)

open Store

/-- A log, the change that is being delivered if there is one, and the store that this leads to. -/
inductive History : List (Occurrence ε) → Option (Due ε) → Store ε → Prop where
  | empty : History [] none .empty
  | create {log : List (Occurrence ε)} {due : Option (Due ε)} {store : Store ε} (path : String)
      (data : Bytes) (history : History log due store) :
      History (log ++ store.changeLog (store.queueCreate path data)) due
        (store.queueCreate path data).2
  | delete {log : List (Occurrence ε)} {due : Option (Due ε)} {store : Store ε} (path : String)
      (history : History log due store) :
      History (log ++ store.changeLog (store.queueDelete path)) due (store.queueDelete path).2
  | watch {log : List (Occurrence ε)} {due : Option (Due ε)} {store : Store ε} (path : String)
      (watcher : Watcher ε) (history : History log due store) :
      History (log ++ store.watchLog path watcher) due (store.watch path watcher).2
  | become {log : List (Occurrence ε)} {due : Option (Due ε)} {store : Store ε}
      (isAvailable : Bool) (history : History log due store) :
      History log due { store with isAvailable }
  | report {log : List (Occurrence ε)} {due : Option (Due ε)} {store : Store ε} (event : ε)
      (history : History log due store) : History (log ++ [.reported event]) due store
  /-- The oldest change is taken, and its watchers are to be called. -/
  | take {log : List (Occurrence ε)} {store : Store ε} {change : Change} {others : List Change}
      (oldest : store.queue = change :: others) (history : History log none store) :
      History log (some ⟨change, 0, store.watchersOf change.path⟩)
        { store with queue := others, isDelivering := true }
  /-- The next watcher is called. -/
  | call {log : List (Occurrence ε)} {store : Store ε} {change : Change} {number : Nat}
      {watcher : Watcher ε} {rest : List (Watcher ε)}
      (history : History log (some ⟨change, number, watcher :: rest⟩) store) :
      History (log ++ [.called number watcher change]) (some ⟨change, number + 1, rest⟩) store
  /-- All watchers of a change have been called. -/
  | finish {log : List (Occurrence ε)} {store : Store ε} {change : Change} {number : Nat}
      (history : History log (some ⟨change, number, []⟩) store) : History log none store
  /-- No change is left. -/
  | rest {log : List (Occurrence ε)} {store : Store ε} (empty : store.queue = [])
      (history : History log none store) : History log none { store with isDelivering := false }

namespace History

variable {log more : List (Occurrence ε)} {due : Option (Due ε)} {store final : Store ε}

/-- Whatever a watcher does is part of a history. -/
theorem react (reaction : Reaction ε) (history : History log due store) :
    History (log ++ reactLog reaction store) due (Store.react reaction store).2 := by
  induction reaction generalizing log store with
  | done => exact (List.append_nil log).symm ▸ history
  | report event next ih =>
      have := ih (history.report event)
      rwa [List.append_assoc] at this
  | look next ih => exact ih store.tree history
  | create path data next ih =>
      rw [reactLog, ← List.append_assoc]
      exact ih _ (history.create path data)
  | delete path next ih =>
      rw [reactLog, ← List.append_assoc]
      exact ih _ (history.delete path)
  | watch path watcher next _ ih =>
      rw [reactLog, ← List.append_assoc]
      exact ih _ (history.watch path watcher)

theorem calls {change : Change} {number : Nat} {watchers : List (Watcher ε)}
    (history : History log (some ⟨change, number, watchers⟩) store) :
    History (log ++ callLog change number watchers store) none
      (Store.call change watchers store).2 := by
  induction watchers generalizing log number store with
  | nil => exact (List.append_nil log).symm ▸ history.finish
  | cons watcher rest ih =>
      have := ih (history.call.react (watcher change))
      rwa [List.append_assoc, List.append_assoc] at this

theorem delivers (delivers : Delivers store more final) (history : History log none store) :
    History (log ++ more) none final := by
  induction delivers generalizing log with
  | done empty => exact (List.append_nil log).symm ▸ history.rest empty
  | next change others oldest _ ih =>
      rw [← List.append_assoc]
      exact ih (history.take oldest).calls

theorem settles {outcome : Except Fault Unit × Store ε}
    (settles : Settles store outcome more final)
    (history : History (log ++ store.changeLog outcome) none outcome.2) :
    History (log ++ more) none final := by
  cases settles with
  | failed => exact history
  | delivered delivers =>
      rw [← List.append_assoc]
      exact history.delivers delivers

/-- Whatever those outside do is part of a history. -/
theorem performs {act : Act ε} (performs : Performs store act more final)
    (history : History log none store) : History (log ++ more) none final := by
  cases performs with
  | create settles => exact (history.create _ _).settles settles
  | delete settles => exact (history.delete _).settles settles
  | watch path watcher => exact history.watch path watcher
  | become isAvailable => exact (List.append_nil log).symm ▸ history.become isAvailable

theorem runs {acts : List (Act ε)} (runs : Runs store acts more final)
    (history : History log none store) : History (log ++ more) none final := by
  induction runs generalizing log with
  | nil => exact (List.append_nil log).symm ▸ history
  | cons performs _ ih =>
      rw [← List.append_assoc]
      exact ih (history.performs performs)

end History

end RemoteCall.Directory

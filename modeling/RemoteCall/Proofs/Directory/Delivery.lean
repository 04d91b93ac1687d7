import RemoteCall.Proofs.Directory.Soundness

/-! # Every watcher is told every change, once and in order

    What is still to be told to a watcher of a path is the change that is being
    delivered, if its turn has not come, and what the queue has for the path
    (`pendingFor`).  The invariant of a history (`Told`) is that the calls of a
    watcher so far and what is pending for it make up an end of the list of all
    changes of its path, and that this end begins no later than the watcher
    came.  A change adds to what is pending, a call takes the first of it, and
    the two ends stay where they are.

    At rest nothing is pending.  So each watcher has been told every change
    since it came, and what it was told last is how things are (`Delivered`).
    Nothing is asked of what watchers do when they are called: one that decides
    by what it has seen before takes steps of a history like any other
    (`History.delivered`). -/

namespace RemoteCall.Directory

open RemoteCall.Directory.Path Store

variable {ε : Type}

/-! ## Logs that grow at their end -/

section Logs

variable (log : List (Occurrence ε)) (occurrence : Occurrence ε) (path : String) (number : Nat)

theorem treeAfter_concat : treeAfter (log ++ [occurrence]) = occurrence.treeAfter (treeAfter log) :=
  List.foldl_concat ..

theorem changesOf_concat :
    changesOf path (log ++ [occurrence])
      = changesOf path log ++ (occurrence.changeOf? path).toList := by
  rw [changesOf, List.filterMap_append, List.filterMap_cons, List.filterMap_nil]
  cases occurrence.changeOf? path <;> rfl

theorem callsOf_concat :
    callsOf path number (log ++ [occurrence])
      = callsOf path number log ++ (occurrence.callOf? path number).toList := by
  rw [callsOf, List.filterMap_append, List.filterMap_cons, List.filterMap_nil]
  cases occurrence.callOf? path number <;> rfl

theorem watchersAt_concat :
    watchersAt path (log ++ [occurrence])
      = watchersAt path log ++ (occurrence.watcherAt? path).toList := by
  rw [watchersAt, List.filterMap_append, List.filterMap_cons, List.filterMap_nil]
  cases occurrence.watcherAt? path <;> rfl

variable {log occurrence path number}

/-- What is part of a longer log was part of the log before, or it is the last. -/
theorem concat_eq_append_cons {last : Occurrence ε} {earlier later : List (Occurrence ε)}
    (split : log ++ [last] = earlier ++ occurrence :: later) :
    (∃ rest, later = rest ++ [last] ∧ log = earlier ++ occurrence :: rest)
      ∨ later = [] ∧ occurrence = last ∧ earlier = log := by
  rcases List.eq_nil_or_concat later with rfl | ⟨rest, other, rfl⟩
  · obtain ⟨same, last⟩ := List.append_inj' split rfl
    exact .inr ⟨rfl, (List.singleton_inj.mp last).symm, same.symm⟩
  · rw [List.concat_eq_append, ← List.cons_append, ← List.append_assoc] at split
    obtain ⟨same, last⟩ := List.append_inj' split rfl
    rw [List.concat_eq_append, List.singleton_inj.mp last]
    exact .inl ⟨rest, rfl, same⟩

theorem watcherAt?_eq_some_iff {watcher : Watcher ε} :
    occurrence.watcherAt? path = some watcher ↔ occurrence = .watched path watcher := by
  cases occurrence with
  | watched other watcher' =>
      rw [Occurrence.watcherAt?, Option.ite_none_right_eq_some, Option.some_inj,
        Occurrence.watched.injEq]
  | changed => exact iff_of_false nofun nofun
  | called => exact iff_of_false nofun nofun
  | reported => exact iff_of_false nofun nofun

/-- A watcher came at some point of the log. -/
theorem exists_watched (known : number < (watchersAt path log).length) :
    ∃ earlier watcher later, log = earlier ++ .watched path watcher :: later
      ∧ (watchersAt path earlier).length = number := by
  induction log generalizing number with
  | nil => exact absurd known (Nat.not_lt_zero number)
  | cons first log ih =>
      cases came : first.watcherAt? path with
      | none =>
          rw [watchersAt, List.filterMap_cons_none came] at known
          obtain ⟨earlier, watcher, later, rfl, counted⟩ := ih known
          refine ⟨first :: earlier, watcher, later, rfl, ?_⟩
          rw [watchersAt, List.filterMap_cons_none came]
          exact counted
      | some watcher =>
          cases number with
          | zero =>
              obtain rfl := watcherAt?_eq_some_iff.mp came
              exact ⟨[], watcher, log, rfl, rfl⟩
          | succ number =>
              rw [watchersAt, List.filterMap_cons_some came, List.length_cons] at known
              obtain ⟨earlier, other, later, rfl, counted⟩ := ih (Nat.lt_of_succ_lt_succ known)
              refine ⟨first :: earlier, other, later, rfl, ?_⟩
              rw [watchersAt, List.filterMap_cons_some came, List.length_cons]
              exact congrArg (· + 1) counted

theorem length_watchersAt_lt (path : String) (earlier : List (Occurrence ε)) (watcher : Watcher ε)
    (later : List (Occurrence ε)) :
    (watchersAt path earlier).length
      < (watchersAt path (earlier ++ .watched path watcher :: later)).length := by
  rw [watchersAt, watchersAt, List.filterMap_append, List.length_append,
    List.filterMap_cons_some (watcherAt?_eq_some_iff.mpr rfl), List.length_cons]
  omega

end Logs

/-- What an occurrence can be after a log. -/
def Fits (log : List (Occurrence ε)) : Occurrence ε → Prop
  | .changed before _ => before = treeAfter log
  | .watched path _ => isValid path = true
  | .called number watcher change =>
    (watchersAt change.path log)[number]? = some watcher
      ∧ callsOf change.path number log ++ [change] <:+: changesOf change.path log
  | .reported _ => True

/-- Whether everything in a log fits what was before. -/
def Fitting (log : List (Occurrence ε)) : Prop :=
  ∀ earlier occurrence later, log = earlier ++ occurrence :: later → Fits earlier occurrence

theorem Fitting.concat {log : List (Occurrence ε)} {occurrence : Occurrence ε}
    (fitting : Fitting log) (fits : Fits log occurrence) : Fitting (log ++ [occurrence]) := by
  intro earlier other later split
  rcases concat_eq_append_cons split with ⟨rest, rfl, same⟩ | ⟨rfl, rfl, rfl⟩
  · exact fitting earlier other rest same
  · exact fits

theorem callOf?_eq_some_iff {occurrence : Occurrence ε} {path : String} {number : Nat}
    {change : Change} : occurrence.callOf? path number = some change
      ↔ ∃ watcher, occurrence = .called number watcher change ∧ change.path = path := by
  cases occurrence with
  | called other watcher change' =>
      rw [Occurrence.callOf?, Option.ite_none_right_eq_some, Option.some_inj]
      simp only [Occurrence.called.injEq]
      constructor
      · rintro ⟨⟨rfl, same⟩, rfl⟩
        exact ⟨watcher, ⟨rfl, rfl, rfl⟩, same⟩
      · rintro ⟨_, ⟨rfl, -, rfl⟩, same⟩
        exact ⟨⟨rfl, same⟩, rfl⟩
  | changed => exact iff_of_false nofun nofun
  | watched => exact iff_of_false nofun nofun
  | reported => exact iff_of_false nofun nofun

/-- A watcher is not called before it comes. -/
theorem Fitting.callsOf_eq_nil {log : List (Occurrence ε)} {path : String} {number : Nat}
    (fitting : Fitting log) (unknown : (watchersAt path log).length ≤ number) :
    callsOf path number log = [] := by
  rw [callsOf, List.filterMap_eq_nil_iff]
  intro occurrence mem
  refine Option.eq_none_iff_forall_ne_some.mpr fun change called => ?_
  obtain ⟨watcher, rfl, rfl⟩ := callOf?_eq_some_iff.mp called
  obtain ⟨earlier, later, rfl⟩ := List.append_of_mem mem
  obtain ⟨known, -⟩ := (List.getElem?_eq_some_iff.mp (fitting earlier _ later rfl).1)
  rw [watchersAt, List.filterMap_append, List.length_append] at unknown
  exact absurd known (Nat.not_lt.mpr (Nat.le_trans (Nat.le_add_right ..) unknown))

/-! ## What is pending -/

/-- What a watcher of a path is still to be told of the change that is being delivered. -/
def dueFor (path : String) (number : Nat) : Option (Due ε) → List Change
  | none => []
  | some due =>
    if due.change.path = path ∧ due.number ≤ number ∧ number < due.number + due.watchers.length
    then [due.change] else []

theorem dueFor_nil (path : String) (number : Nat) (change : Change) (next : Nat) :
    dueFor path number (some (⟨change, next, []⟩ : Due ε)) = [] :=
  if_neg fun due => Nat.not_lt.mpr due.2.1 due.2.2

/-- A change is due for the next watcher and for those after it. -/
theorem dueFor_cons (path : String) (number : Nat) (change : Change) (next : Nat)
    (watcher : Watcher ε) (rest : List (Watcher ε)) :
    dueFor path number (some ⟨change, next, watcher :: rest⟩)
      = ((Occurrence.called next watcher change).callOf? path number).toList
        ++ dueFor path number (some ⟨change, next + 1, rest⟩) := by
  rw [dueFor, dueFor, Occurrence.callOf?]
  by_cases same : change.path = path
  · simp only [same, true_and, and_true, List.length_cons]
    rcases Nat.lt_trichotomy next number with before | rfl | behind
    · rw [if_neg (Nat.ne_of_lt before)]
      refine if_congr ⟨fun due => ?_, fun due => ?_⟩ rfl rfl <;> omega
    · rw [if_pos rfl, if_pos ⟨Nat.le_refl _, by omega⟩, if_neg fun due => by omega]
      rfl
    · rw [if_neg (Nat.ne_of_gt behind), if_neg fun due => by omega, if_neg fun due => by omega]
      rfl
  · rw [if_neg fun due => same due.1, if_neg fun call => same call.2, if_neg fun due => same due.1]
    rfl

/-- The changes of a path. -/
def changesAt (path : String) (queue : List Change) : List Change :=
  queue.filter fun change => change.path = path

/-- What a watcher of a path is still to be told. -/
def pendingFor (due : Option (Due ε)) (queue : List Change) (path : String) (number : Nat) :
    List Change :=
  dueFor path number due ++ changesAt path queue

/-- Whether what watchers were told and what is pending make up an end of all changes of their path,
from when they came or before. -/
def Serves (log : List (Occurrence ε)) (pending : String → Nat → List Change) : Prop :=
  ∀ path earlier watcher later, log = earlier ++ .watched path watcher :: later →
    let number := (watchersAt path earlier).length
    changesOf path later <:+ callsOf path number log ++ pending path number
      ∧ callsOf path number log ++ pending path number <:+ changesOf path log

section Pending

variable {log : List (Occurrence ε)} {pending pending' : String → Nat → List Change}

/-- An occurrence adds as much to the changes as it moves from what is pending to the calls. -/
theorem Serves.concat {occurrence : Occurrence ε} (serves : Serves log pending)
    (fitting : Fitting log)
    (moves : ∀ path number, isValid path = true → number < (watchersAt path log).length →
      (occurrence.callOf? path number).toList ++ pending' path number
        = pending path number ++ (occurrence.changeOf? path).toList)
    (joins : ∀ path watcher, occurrence = .watched path watcher →
      let number := (watchersAt path log).length
      callsOf path number log ++ pending' path number <:+ changesOf path log) :
    Serves (log ++ [occurrence]) pending' := by
  intro path earlier watcher later split
  dsimp only
  rw [changesOf_concat, callsOf_concat, List.append_assoc]
  rcases concat_eq_append_cons split with ⟨rest, rfl, rfl⟩ | ⟨rfl, rfl, rfl⟩
  · have valid : isValid path = true := fitting earlier _ rest rfl
    have known := length_watchersAt_lt path earlier watcher rest
    obtain ⟨owed, made⟩ := serves path earlier watcher rest rfl
    rw [moves path _ valid known, ← List.append_assoc, changesOf_concat]
    exact ⟨List.suffix_append_self_iff.mpr owed, List.suffix_append_self_iff.mpr made⟩
  · rw [show changesOf path [] = ([] : List Change) from rfl]
    exact ⟨List.nil_suffix, by simpa [Occurrence.callOf?, Occurrence.changeOf?] using joins path _ rfl⟩

theorem Serves.congr (serves : Serves log pending)
    (same : ∀ path number, number < (watchersAt path log).length →
      pending' path number = pending path number) : Serves log pending' := by
  intro path earlier watcher later split
  dsimp only
  rw [same]
  · exact serves path earlier watcher later split
  · rw [split]
    exact length_watchersAt_lt path earlier watcher later

end Pending

/-! ## The invariant -/

/-- A log tells how a store came about and what is pending in it. -/
structure Told (log : List (Occurrence ε)) (due : Option (Due ε)) (store : Store ε) : Prop where
  closed : store.tree.Closed
  fitting : Fitting log
  tree : treeAfter log = store.tree
  watchers : ∀ path, watchersAt path log = store.watchersOf path
  /-- The watchers that are still to be called are those with the next numbers. -/
  numbered : ∀ d, due = some d → ∃ front back,
    watchersAt d.change.path log = front ++ d.watchers ++ back ∧ front.length = d.number
  /-- What is queued are the latest changes. -/
  queued : ∀ path, isValid path = true → changesAt path store.queue <:+ changesOf path log
  /-- The last change tells how things are. -/
  latest : ∀ path, isValid path = true →
    ∀ change ∈ (changesOf path log).getLast?, change = store.tree.changeAt path
  serves : Serves log (pendingFor due store.queue)

section Steps

variable {log : List (Occurrence ε)} {due : Option (Due ε)} {store : Store ε}

/-- The change that is being delivered is not due for a watcher that comes now. -/
theorem Told.dueFor_eq_nil (told : Told log due store) (path : String) :
    dueFor path (watchersAt path log).length due = [] := by
  cases due with
  | none => rfl
  | some d =>
      refine if_neg fun ⟨same, _, before⟩ => ?_
      obtain ⟨front, back, all, counted⟩ := told.numbered d rfl
      subst same
      rw [all, List.length_append, List.length_append] at before
      omega

theorem told_empty : Told ([] : List (Occurrence ε)) none .empty where
  closed := Tree.closed_empty
  fitting := by simp [Fitting]
  tree := rfl
  watchers _ := rfl
  numbered := nofun
  queued _ _ := List.nil_suffix
  latest := nofun
  serves := by simp [Serves]

/-- A change is queued for the watchers of its path. -/
theorem Told.changed {tree : Tree} {changes : List Change} (told : Told log due store)
    (closed : tree.Closed) (tells : Tree.Tells store.tree tree changes) :
    Told (log ++ [.changed store.tree tree]) due
      { store with tree := tree, queue := store.queue ++ changes } := by
  have made (path : String) (valid : isValid path = true) : changesAt path (store.queue ++ changes)
      = changesAt path store.queue
        ++ ((.changed store.tree tree : Occurrence ε).changeOf? path).toList := by
    rw [changesAt, List.filter_append, tells path valid, Occurrence.changeOf?, changesAt]
    split <;> rfl
  constructor
  case closed => exact closed
  case fitting => exact told.fitting.concat told.tree.symm
  case tree => rw [treeAfter_concat]; rfl
  case watchers =>
    intro path
    rw [watchersAt_concat]
    exact (List.append_nil _).trans (told.watchers path)
  case numbered =>
    intro d mem
    rw [watchersAt_concat]
    exact (List.append_nil (watchersAt d.change.path log)).symm ▸ told.numbered d mem
  case queued =>
    intro path valid
    rw [made path valid, changesOf_concat]
    exact List.suffix_append_self_iff.mpr (told.queued path valid)
  case latest =>
    intro path valid change last
    rw [changesOf_concat, Occurrence.changeOf?] at last
    split at last
    · next same =>
        rw [Option.toList_none, List.append_nil] at last
        rw [told.latest path valid change last, Tree.changeAt, Tree.changeAt, same]
    · rw [Option.toList_some, List.getLast?_concat] at last
      exact (Option.some.inj last).symm
  case serves =>
    refine told.serves.concat told.fitting (fun path number valid _ => ?_) nofun
    rw [pendingFor, made path valid, ← List.append_assoc (dueFor path number due)]
    rfl

theorem Told.advance {outcome : Except Fault Unit × Store ε} (told : Told log due store)
    (advances : store.Advances outcome) :
    Told (log ++ store.changeLog outcome) due outcome.2 := by
  rcases advances with ⟨fault, rfl⟩ | ⟨tree, changes, rfl, keeps⟩
  · exact (List.append_nil log).symm ▸ told
  · exact told.changed (keeps told.closed).1 (keeps told.closed).2

/-- A watcher that comes is told what is queued from now on. -/
theorem Told.watched {path : String} (told : Told log due store) (valid : isValid path = true)
    (watcher : Watcher ε) : Told (log ++ [.watched path watcher]) due
      { store with
        watchers := store.watchers.insert path (store.watchersOf path ++ [watcher]) } := by
  have unchanged (other : String) : changesOf other (log ++ [.watched path watcher])
      = changesOf other log := by
    rw [changesOf_concat]
    exact List.append_nil _
  constructor
  case closed => exact told.closed
  case fitting => exact told.fitting.concat valid
  case tree => rw [treeAfter_concat]; exact told.tree
  case watchers =>
    intro other
    have watches := watches_insert store path watcher
    rw [watchersAt_concat, Occurrence.watcherAt?, told.watchers]
    by_cases same : path = other
    · rw [if_pos same, ← same, watches.own]
      rfl
    · rw [if_neg same, watches.others other (Ne.symm same)]
      exact List.append_nil _
  case numbered =>
    intro d mem
    obtain ⟨front, back, same, counted⟩ := told.numbered d mem
    exact ⟨front, _, by rw [watchersAt_concat, same, List.append_assoc], counted⟩
  case queued =>
    intro other validOther
    rw [unchanged]
    exact told.queued other validOther
  case latest =>
    intro other validOther
    rw [unchanged]
    exact told.latest other validOther
  case serves =>
    refine told.serves.concat told.fitting (fun other number _ _ => ?_) fun other _ same => ?_
    · exact (List.append_nil _).symm
    · obtain ⟨rfl, -⟩ := Occurrence.watched.inj same
      dsimp only
      rw [told.fitting.callsOf_eq_nil (Nat.le_refl _), pendingFor, told.dueFor_eq_nil]
      exact told.queued path valid

theorem Told.reported (told : Told log due store) (event : ε) :
    Told (log ++ [.reported event]) due store := by
  constructor
  case closed => exact told.closed
  case fitting => exact told.fitting.concat trivial
  case tree => rw [treeAfter_concat]; exact told.tree
  case watchers =>
    intro path
    rw [watchersAt_concat]
    exact (List.append_nil _).trans (told.watchers path)
  case numbered =>
    intro d mem
    rw [watchersAt_concat]
    exact (List.append_nil (watchersAt d.change.path log)).symm ▸ told.numbered d mem
  case queued =>
    intro path valid
    rw [changesOf_concat]
    exact (List.append_nil (changesOf path log)).symm ▸ told.queued path valid
  case latest =>
    intro path valid
    rw [changesOf_concat]
    exact (List.append_nil (changesOf path log)).symm ▸ told.latest path valid
  case serves =>
    exact told.serves.concat told.fitting (fun _ _ _ _ => (List.append_nil _).symm) nofun

theorem Told.become (told : Told log due store) (isAvailable : Bool) :
    Told log due { store with isAvailable } :=
  { told with }

/-- The oldest change is due for those who watch its path now. -/
theorem Told.take {change : Change} {others : List Change} (told : Told log none store)
    (oldest : store.queue = change :: others) :
    Told log (some ⟨change, 0, store.watchersOf change.path⟩)
      { store with queue := others, isDelivering := true } := by
  refine { told with numbered := ?_, queued := ?_, serves := ?_ }
  · intro d same
    obtain rfl := Option.some.inj same
    exact ⟨[], [], by simpa using told.watchers change.path, rfl⟩
  · intro path valid
    refine List.IsSuffix.trans ?_ (told.queued path valid)
    rw [oldest]
    exact (List.suffix_cons change others).filter _
  · refine told.serves.congr fun path number known => ?_
    rw [pendingFor, pendingFor, oldest, changesAt, changesAt, List.filter_cons, dueFor, dueFor]
    by_cases same : change.path = path
    · have due : number < 0 + (store.watchersOf change.path).length := by
        rw [Nat.zero_add, ← told.watchers, same]
        exact known
      rw [if_pos ⟨same, Nat.zero_le number, due⟩, if_pos (decide_eq_true same)]
      rfl
    · rw [if_neg fun all => same all.1, if_neg (by simpa using same)]

/-- The call of a watcher takes the first of what is pending for it. -/
theorem Told.call {change : Change} {number : Nat} {watcher : Watcher ε}
    {rest : List (Watcher ε)}
    (told : Told log (some ⟨change, number, watcher :: rest⟩) store) :
    Told (log ++ [.called number watcher change]) (some ⟨change, number + 1, rest⟩) store := by
  obtain ⟨front, back, all, rfl⟩ := told.numbered _ rfl
  have called : (watchersAt change.path log)[front.length]? = some watcher := by
    rw [all, List.append_assoc, List.getElem?_append_right (Nat.le_refl _), Nat.sub_self]
    rfl
  have stretch : callsOf change.path front.length log ++ [change]
      <:+: changesOf change.path log := by
    obtain ⟨earlier, _, later, split, counted⟩ :=
      exists_watched (List.getElem?_eq_some_iff.mp called).1
    have made := (told.serves change.path earlier _ later split).2
    rw [counted, pendingFor, dueFor, if_pos ⟨rfl, Nat.le_refl _, by simp⟩, ← List.append_assoc]
      at made
    exact (List.prefix_append ..).isInfix.trans made.isInfix
  constructor
  case closed => exact told.closed
  case fitting => exact told.fitting.concat ⟨called, stretch⟩
  case tree => rw [treeAfter_concat]; exact told.tree
  case watchers =>
    intro path
    rw [watchersAt_concat]
    exact (List.append_nil _).trans (told.watchers path)
  case numbered =>
    intro d same
    obtain rfl := Option.some.inj same
    refine ⟨front ++ [watcher], back, ?_, List.length_append⟩
    rw [watchersAt_concat, all]
    simp [Occurrence.watcherAt?]
  case queued =>
    intro path valid
    rw [changesOf_concat]
    exact (List.append_nil (changesOf path log)).symm ▸ told.queued path valid
  case latest =>
    intro path valid
    rw [changesOf_concat]
    exact (List.append_nil (changesOf path log)).symm ▸ told.latest path valid
  case serves =>
    refine told.serves.concat told.fitting (fun path other _ _ => ?_) nofun
    rw [pendingFor, pendingFor, dueFor_cons]
    simp [Occurrence.changeOf?]

theorem Told.finish {change : Change} {number : Nat}
    (told : Told log (some ⟨change, number, []⟩) store) : Told log none store := by
  refine { told with numbered := nofun, serves := ?_ }
  refine told.serves.congr fun path other _ => ?_
  rw [pendingFor, pendingFor, dueFor_nil, dueFor]

theorem Told.rest (told : Told log none store) :
    Told log none { store with isDelivering := false } :=
  { told with }

end Steps

/-- The log of a history tells how its store came about. -/
theorem History.told {log : List (Occurrence ε)} {due : Option (Due ε)} {store : Store ε}
    (history : History log due store) : Told log due store := by
  induction history with
  | empty => exact told_empty
  | create path data _ ih => exact ih.advance (advances_queueCreate _ path data)
  | delete path _ ih => exact ih.advance (advances_queueDelete _ path)
  | watch path watcher _ ih =>
      rcases watch_cases _ path watcher with ⟨-, fault, outcome⟩ | ⟨⟨valid, -⟩, outcome⟩
      · rw [watchLog, outcome]
        exact (List.append_nil _).symm ▸ ih
      · rw [watchLog, outcome]
        exact ih.watched valid watcher
  | become isAvailable _ ih => exact ih.become isAvailable
  | report event _ ih => exact ih.reported event
  | take oldest _ ih => exact ih.take oldest
  | call _ ih => exact ih.call
  | finish _ ih => exact ih.finish
  | rest _ _ ih => exact ih.rest

/-! ## At rest -/

/-- Everything that a log owes to watchers has been told them, in a store at rest. -/
structure Delivered (log : List (Occurrence ε)) (store : Store ε) : Prop where
  /-- The trees of the log follow on one another and lead to that of the store. -/
  chained : ∀ earlier before after later, log = earlier ++ .changed before after :: later →
    before = treeAfter earlier
  tree : treeAfter log = store.tree
  watchers : ∀ path, watchersAt path log = store.watchersOf path
  /-- Only a watcher of the path that changed is called, and with the change after those that it was
  called with before. -/
  called : ∀ earlier number watcher change later,
    log = earlier ++ .called number watcher change :: later →
      (watchersAt change.path earlier)[number]? = some watcher
        ∧ callsOf change.path number earlier ++ [change] <:+: changesOf change.path earlier
  /-- A watcher is called with every change since it came. -/
  complete : ∀ path earlier watcher later, log = earlier ++ .watched path watcher :: later →
    let number := (watchersAt path earlier).length
    callsOf path number earlier = [] ∧ changesOf path later <:+ callsOf path number log
  /-- A watcher is called with nothing but changes of its path, once each and in their order. -/
  ordered : ∀ path number, callsOf path number log <:+ changesOf path log
  /-- The last call tells how things are. -/
  fresh : ∀ path number change, (callsOf path number log).getLast? = some change →
    change = store.tree.changeAt path
      ∧ (store.isAvailable = true → store.children path = .ok change.children)
  rests : store.Rests

theorem Told.delivered {log : List (Occurrence ε)} {store : Store ε} (told : Told log none store)
    (rests : store.Rests) : Delivered log store := by
  -- at rest nothing is pending
  have pending (path : String) (number : Nat) :
      pendingFor (none : Option (Due ε)) store.queue path number = [] := by
    rw [pendingFor, rests.1]
    rfl
  have ordered (path : String) (number : Nat) :
      callsOf path number log <:+ changesOf path log := by
    by_cases known : number < (watchersAt path log).length
    · obtain ⟨earlier, watcher, later, split, rfl⟩ := exists_watched known
      have made := (told.serves path earlier watcher later split).2
      rwa [pending, List.append_nil] at made
    · rw [told.fitting.callsOf_eq_nil (Nat.not_lt.mp known)]
      exact List.nil_suffix
  constructor
  case chained =>
    exact fun earlier _ after later split => told.fitting earlier _ later split
  case tree => exact told.tree
  case watchers => exact told.watchers
  case called =>
    exact fun earlier number watcher change later split => told.fitting earlier _ later split
  case complete =>
    intro path earlier watcher later split
    have before : Fitting earlier := fun first occurrence rest same =>
      told.fitting first occurrence (rest ++ .watched path watcher :: later) (by simp [split, same])
    have owed := (told.serves path earlier watcher later split).1
    rw [pending, List.append_nil] at owed
    exact ⟨before.callsOf_eq_nil (Nat.le_refl _), owed⟩
  case ordered => exact ordered
  case fresh =>
    intro path number change last
    have known : number < (watchersAt path log).length := by
      by_contra unknown
      rw [told.fitting.callsOf_eq_nil (Nat.not_lt.mp unknown)] at last
      exact nomatch last
    obtain ⟨earlier, watcher, later, split, -⟩ := exists_watched known
    have valid : isValid path = true := told.fitting earlier _ later split
    obtain ⟨front, same⟩ := ordered path number
    have latest : change = store.tree.changeAt path := by
      refine told.latest path valid change ?_
      rw [← same, List.getLast?_append, last]
      rfl
    refine ⟨latest, fun within => ?_⟩
    rw [latest, Store.children, reach, if_pos within]
    rfl
  case rests => exact rests

/-- Whatever those outside and the watchers do, and whatever they decide it by: in a store at rest,
every watcher has been called with every change of its path since it came, once and in order, and with
nothing else, and the last calls tell how things are. -/
theorem History.delivered {log : List (Occurrence ε)} {store : Store ε}
    (history : History log none store) (rests : store.Rests) : Delivered log store :=
  history.told.delivered rests

/-- Whatever those outside and the watchers do, as long as delivery comes to an end: every watcher is
called with every change of its path since it came, once and in order, and with nothing else, and then
nothing is left to deliver and the last calls tell how things are. -/
theorem delivered_of_runs {acts : List (Act ε)} {log : List (Occurrence ε)} {store : Store ε}
    (runs : Runs .empty acts log store) :
    Store.run .empty acts = (eventsOf log, store) ∧ Delivered log store := by
  obtain ⟨outcome, rests⟩ := runs.run_eq ⟨rfl, rfl⟩
  have history : History log none store := by simpa using History.empty.runs runs
  exact ⟨outcome, history.delivered rests⟩

/-- A watcher that writes back is told both children in the end. -/
theorem delivered_writesBack : ∃ log store,
    Runs .empty [.watch "/a" writesBack, .create "/a/x" []] log store
      ∧ Store.run .empty [.watch "/a" writesBack, .create "/a/x" []]
          = ([⟨"/a", ["x"]⟩, ⟨"/a", ["x", "y"]⟩], store)
      ∧ Delivered log store := by
  obtain ⟨log, store, runs, events, -⟩ := runs_writesBack
  obtain ⟨outcome, delivered⟩ := delivered_of_runs runs
  exact ⟨log, store, runs, events ▸ outcome, delivered⟩

end RemoteCall.Directory

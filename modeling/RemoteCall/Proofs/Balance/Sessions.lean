import RemoteCall.Proofs.Balance.Flawless

/-! # Selections one after another

    In a session, lists are made, each with a generation of its own, and
    addresses are selected from them by any strategies, while the source of
    weights and the numbers for the draws are what they are.  Selections leave
    rings with the balancer, and each is the ring of a list that was made
    (`madeRings_run`).  So a ring that has the generation of a list is the
    ring of that list, and whatever was selected before, a selection gives an
    address of its list and takes no step that cannot be taken
    (`selects_of_run`). -/

namespace RemoteCall.Balance

/-- A balancer and the lists that were made. -/
structure Session where
  balancer : Balancer
  made : List (List String)

namespace Session

/-- What can be done in a session. -/
inductive Act (σ : Type) where
  /-- Somebody makes a list, which takes a generation. -/
  | wrap (addresses : List String)
  /-- Somebody selects from one of the lists; the source is in some state, and draws come from some
  numbers. -/
  | select (strategy : Strategy) (key : String) (number : Nat) (state : σ) (numbers : List Nat)

/-- No list was made and nothing was selected. -/
def start : Session := ⟨.empty, []⟩

/-- One of the lists that were made. -/
def list? (session : Session) (number : Nat) : Option AddressList :=
  session.made[number]?.map fun addresses => ⟨number + 1, addresses⟩

variable {σ : Type} (source : Source σ)

/-- What an act comes to. -/
def perform (session : Session) : Act σ → Session
  | .wrap addresses => { session with made := session.made ++ [addresses] }
  | .select strategy key number state numbers =>
    match session.list? number with
    | none => session
    | some list =>
      let world := ⟨session.balancer, state, numbers⟩
      { session with
        balancer := (Checked.outcome (Checked.select source strategy key list) world).2.balancer }

/-- What acts come to, one after another. -/
def run (session : Session) (acts : List (Act σ)) : Session :=
  acts.foldl (perform source) session

/-! ## Rings -/

/-- Whether every ring that is kept is that of a list that was made. -/
def MadeRings (session : Session) : Prop :=
  ∀ key ring, session.balancer.rings.get? key = some ring →
    ∃ number list, session.list? number = some list
      ∧ ring = Ring.ofList Md5.window Ring.replicas list

variable {session : Session}

/-- Lists stay what they are. -/
theorem list?_wrap {number : Nat} {list : AddressList} (found : session.list? number = some list)
    (addresses : List String) :
    (session.perform source (.wrap addresses)).list? number = some list := by
  obtain ⟨own, made, rfl⟩ := Option.map_eq_some_iff.mp found
  have less := (List.getElem?_eq_some_iff.mp made).1
  rw [list?, perform, List.getElem?_append_left less, made]
  rfl

/-- A selection leaves the rings as they were, or keeps one for its list. -/
theorem rings_select (strategy : Strategy) (key : String) (list : AddressList) (world : World σ)
    {other : String} {ring : Ring}
    (found : (Checked.outcome (Checked.select source strategy key list) world).2.balancer.rings.get?
      other = some ring) :
    world.balancer.rings.get? other = some ring
      ∨ ring = Ring.ofList Md5.window Ring.replicas list := by
  obtain ⟨after, same, gives⟩ := Checked.gives_select source key world strategy list
  rcases gives with given | ⟨-, left, overflowed, kept⟩
  · rw [given] at found
    dsimp only at found
    rw [same] at found
    exact Balancer.rings_choose strategy list _ found
  · rw [overflowed] at found
    dsimp only at found
    rw [kept] at found
    exact .inl found

theorem MadeRings.perform (rings : session.MadeRings) (act : Act σ) :
    (session.perform source act).MadeRings := by
  intro key ring found
  cases act with
  | wrap addresses =>
      obtain ⟨number, list, made, rfl⟩ := rings key ring found
      exact ⟨number, list, list?_wrap source made addresses, rfl⟩
  | select strategy own number state numbers =>
      cases made : session.list? number with
      | none =>
          rw [Session.perform, made] at found ⊢
          exact rings key ring found
      | some list =>
          rw [Session.perform, made] at found ⊢
          rcases rings_select source strategy own list _ found with old | rfl
          · exact rings key ring old
          · exact ⟨number, list, made, rfl⟩

/-- Every ring that is kept is that of a list that was made. -/
theorem madeRings_run (acts : List (Act σ)) : (start.run source acts).MadeRings := by
  have rings : start.MadeRings := nofun
  generalize start = session at rings
  induction acts generalizing session with
  | nil => exact rings
  | cons act acts ih => exact ih (session.perform source act) (rings.perform source act)

/-- A ring that has the generation of a list is the ring of that list. -/
theorem MadeRings.fits (rings : session.MadeRings) {number : Nat} {list : AddressList}
    (made : session.list? number = some list) (key : String) :
    RingFits Md5.window session.balancer.rings key list := by
  intro ring found same
  obtain ⟨number', list', made', rfl⟩ := rings key ring found
  obtain ⟨addresses, own, rfl⟩ := Option.map_eq_some_iff.mp made
  obtain ⟨addresses', own', rfl⟩ := Option.map_eq_some_iff.mp made'
  obtain rfl : number' = number := Nat.succ.inj same
  rw [Option.some.inj (own'.symm.trans own)]

/-! ## Selections -/

/-- Whatever was selected before: from an empty list nothing is selected, a single address is selected
without a step, and else an address of the list; no step is taken that cannot be, save that numbers
may overflow on a list of `2 ^ 31` addresses or more; and what is selected is what the balancer
gives for the members as the source tells of them. -/
theorem selects_of_run (acts : List (Act σ)) {number : Nat} {list : AddressList}
    (made : (start.run source acts).list? number = some list) (strategy : Strategy) (key : String)
    (state : σ) (numbers : List Nat) :
    let balancer := (start.run source acts).balancer
    let steps := Checked.select source strategy key list
    let outcome := Checked.outcome steps ⟨balancer, state, numbers⟩
    let chosen := balancer.choose Md5.window strategy key list
      (source.members strategy key state list.addresses).1
    (outcome.1 = .ok none ↔ list.addresses = [])
      ∧ (∀ only, list.addresses = [only] → steps = pure (some only))
      ∧ (∀ address, outcome.1 = .ok (some address) → address ∈ list.addresses)
      ∧ (∀ flaw, outcome.1 = .error flaw → flaw = .overflow ∧ 2 ^ 31 ≤ list.addresses.length)
      ∧ ∀ selected, outcome.1 = .ok selected →
        selected = chosen.1.resolve numbers ∧ outcome.2.balancer = chosen.2 := by
  intro balancer steps outcome chosen
  have ring := (madeRings_run source acts).fits made key
  obtain ⟨after, same, gives⟩ := Checked.gives_select source key ⟨balancer, state, numbers⟩
    strategy list
  -- what is selected is what the balancer gives
  have given (selected : Option String) (ended : outcome.1 = .ok selected) :
      selected = chosen.1.resolve numbers ∧ outcome.2.balancer = chosen.2 := by
    obtain ⟨selectedIs, left⟩ := gives.eq_of_ok ended
    exact ⟨selectedIs, (congrArg World.balancer left).trans same⟩
  -- and that is an address of the list, if there is one
  have selects (some : list.addresses ≠ []) :
      ∃ address ∈ list.addresses, chosen.1.resolve numbers = .some address := by
    refine Balancer.choose_selects strategy some (source.map_address_members ..) ?_ ring _
      (Choice.possible_resolve _ numbers)
    exact fun member mem => source.active_of_mem_members strategy key mem
  have nothing (none : list.addresses = []) : outcome.1 = .ok .none := by
    show (Checked.outcome (Checked.select source strategy key list) _).1 = _
    rw [Checked.select, none]
    rfl
  refine ⟨⟨fun ended => ?_, nothing⟩, ?_, ?_, ?_, given⟩
  · by_cases none : list.addresses = []
    · exact none
    · obtain ⟨address, -, selected⟩ := selects none
      exact nomatch (given _ ended).1.trans selected
  · intro only single
    show Checked.select source strategy key list = _
    rw [Checked.select, single]
  · intro address ended
    have some : list.addresses ≠ [] := by
      intro none
      exact nomatch ended.symm.trans (nothing none)
    obtain ⟨address', mem, selected⟩ := selects some
    obtain rfl := Option.some.inj ((given _ ended).1.trans selected)
    exact mem
  · intro flaw failed
    obtain ⟨overflowed, long⟩ := gives.eq_of_error failed
    exact ⟨overflowed, Nat.not_lt.mp long⟩

/-- Weights at both ends of the range, and a ring from before, lead to an address of the list. -/
theorem selects_of_run_extremes :
    let source : Source Nat :=
      ⟨fun n _ _ => (if n % 2 = 0 then Int32.minValue else Int32.maxValue, n + 1), fun n _ => (0, n)⟩
    let session := start.run source [.wrap ["A", "B", "A"], .select .consistentHash "k" 0 0 []]
    session.list? 0 = some ⟨1, ["A", "B", "A"]⟩ ∧ ∀ strategy state numbers,
      ∃ address ∈ ["A", "B", "A"], (Checked.outcome
        (Checked.select source strategy "k" ⟨1, ["A", "B", "A"]⟩)
        ⟨session.balancer, state, numbers⟩).1 = .ok (some address) := by
  intro source session
  have made : session.list? 0 = some ⟨1, ["A", "B", "A"]⟩ := rfl
  refine ⟨made, fun strategy state numbers => ?_⟩
  obtain ⟨nothing, -, members, flaws, -⟩ :=
    selects_of_run source _ made strategy "k" state numbers
  generalize (Checked.outcome (Checked.select source strategy "k" ⟨1, ["A", "B", "A"]⟩)
    ⟨session.balancer, state, numbers⟩).1 = ended at nothing members flaws ⊢
  match ended with
  | .ok (some address) => exact ⟨address, members address rfl, rfl⟩
  | .ok none => exact nomatch nothing.mp rfl
  | .error flaw => exact absurd (flaws flaw rfl).2 (by decide)

end Session

end RemoteCall.Balance

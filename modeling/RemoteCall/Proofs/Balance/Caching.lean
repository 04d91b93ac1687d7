import RemoteCall.Proofs.Balance.Selection

/-! # Cached rings cannot be told from new ones

    Lists are made one after another, each with the next generation, and
    addresses are selected from them by hashing, in any order and for any keys;
    generations start over after `2 ^ 64`.  The balancer keeps a ring for each
    key, and every ring that it keeps is that of a list that was made
    (`CachesMade`).  As long as generations have not started over, no two lists
    have the same one (`Numbered.unique`), so a ring that has the generation of
    a list is the ring of that list.  Hence the selections are the same as if a
    ring were built for each of them (`results_eq_answers`), which knows
    nothing of generations. -/

namespace RemoteCall.Balance

/-- Lists that were made, and a balancer that selects from them by hashing. -/
structure Hashing where
  /-- The generation of the next list. -/
  next : UInt64
  made : List AddressList
  balancer : Balancer

namespace Hashing

/-- What can be done. -/
inductive Act where
  /-- A list is made, which takes the next generation. -/
  | wrap (addresses : List String)
  /-- An address is selected for a key from one of the lists that were made, whatever is known of its
  addresses. -/
  | select (number : Nat) (key : String) (members : List Member)

/-- Whether a list is made. -/
def Act.isWrap : Act → Bool
  | .wrap _ => true
  | .select .. => false

/-- No list was made and nothing was selected. -/
def start : Hashing := ⟨1, [], .empty⟩

variable (digest : Digest)

/-- What an act comes to, with what is selected. -/
def perform (state : Hashing) : Act → List (Option String) × Hashing
  | .wrap addresses =>
    ([], { state with
      next := state.next + 1, made := state.made ++ [⟨state.next.toNat, addresses⟩] })
  | .select number key members =>
    match state.made[number]? with
    | none => ([], state)
    | some list =>
      let (choice, balancer) := state.balancer.choose digest .consistentHash key list members
      ([choice.resolve []], { state with balancer := balancer })

/-- What acts come to, one after another, with what is selected. -/
def run (state : Hashing) : List Act → List (Option String) × Hashing
  | [] => ([], state)
  | act :: rest =>
    let (selected, state) := state.perform digest act
    let (more, state) := run state rest
    (selected ++ more, state)

/-- What is selected if a ring is built for each selection, where some lists were made. -/
def answers (lists : List (List String)) : List Act → List (Option String)
  | [] => []
  | .wrap addresses :: rest => answers (lists ++ [addresses]) rest
  | .select number key _ :: rest =>
    match lists[number]? with
    | none => answers lists rest
    | some addresses =>
      (Ring.ofList digest Ring.replicas ⟨0, addresses⟩).select digest key :: answers lists rest

variable {digest} {state : Hashing}

/-! ## Generations -/

/-- Lists have the generations from one on, and the next list has the next one. -/
structure Numbered (state : Hashing) : Prop where
  next : state.next.toNat = (state.made.length + 1) % 2 ^ 64
  made : ∀ number list, state.made[number]? = some list → list.generation = (number + 1) % 2 ^ 64

theorem numbered_start : start.Numbered :=
  ⟨rfl, fun _ _ found => nomatch found⟩

/-- A list that is made takes the next generation. -/
theorem Numbered.wrap (numbered : state.Numbered) (addresses : List String) :
    (state.perform digest (.wrap addresses)).2.Numbered := by
  constructor
  · show (state.next + 1).toNat = ((state.made ++ [_]).length + 1) % 2 ^ 64
    rw [UInt64.toNat_add, numbered.next, List.length_append]
    exact Nat.mod_add_mod ..
  · intro number list found
    have found : (state.made ++ [⟨state.next.toNat, addresses⟩])[number]? = some list := found
    by_cases less : number < state.made.length
    · rw [List.getElem?_append_left less] at found
      exact numbered.made number list found
    · have within := (List.getElem?_eq_some_iff.mp found).1
      rw [List.length_append, List.length_singleton] at within
      obtain rfl : number = state.made.length := by omega
      rw [List.getElem?_concat_length] at found
      rw [← Option.some.inj found]
      exact numbered.next

/-- No two lists have the same generation as long as generations have not started over. -/
theorem Numbered.unique (numbered : state.Numbered) (few : state.made.length < 2 ^ 64)
    {list other : AddressList} (mem : list ∈ state.made) (mem' : other ∈ state.made)
    (same : list.generation = other.generation) : list = other := by
  obtain ⟨i, less, rfl⟩ := List.mem_iff_getElem.mp mem
  obtain ⟨j, less', rfl⟩ := List.mem_iff_getElem.mp mem'
  rw [numbered.made i _ (List.getElem?_eq_getElem less),
    numbered.made j _ (List.getElem?_eq_getElem less')] at same
  obtain rfl : i = j := by omega
  rfl

/-! ## Rings -/

/-- Every ring that is kept is that of a list that was made. -/
def CachesMade (digest : Digest) (state : Hashing) : Prop :=
  ∀ key ring, state.balancer.rings.get? key = some ring →
    ∃ list ∈ state.made, ring = Ring.ofList digest Ring.replicas list

theorem cachesMade_start : start.CachesMade digest :=
  fun _ _ found => nomatch found

theorem CachesMade.perform (caches : state.CachesMade digest) (act : Act) :
    (state.perform digest act).2.CachesMade digest := by
  intro key ring found
  cases act with
  | wrap addresses =>
      obtain ⟨list, mem, rfl⟩ := caches key ring found
      exact ⟨list, List.mem_append_left _ mem, rfl⟩
  | select number own members =>
      rw [Hashing.perform] at found ⊢
      cases made : state.made[number]? with
      | none =>
          rw [made] at found
          exact caches key ring found
      | some list =>
          rw [made] at found
          rcases Balancer.rings_choose _ list members found with old | rfl
          · exact caches key ring old
          · exact ⟨list, List.mem_of_getElem? made, rfl⟩

/-- A ring that has the generation of a list is the ring of that list. -/
theorem CachesMade.fits (caches : state.CachesMade digest) (numbered : state.Numbered)
    (few : state.made.length < 2 ^ 64) {list : AddressList} (mem : list ∈ state.made)
    (key : String) : RingFits digest state.balancer.rings key list := by
  intro ring found same
  obtain ⟨other, mem', rfl⟩ := caches key ring found
  rw [numbered.unique few mem' mem same]

/-! ## Selections -/

/-- Where the ring kept for a key fits a list, what is selected is what a new ring selects. -/
theorem resolve_choose {balancer : Balancer} {key : String} {list : AddressList}
    (fits : RingFits digest balancer.rings key list) (members : List Member) :
    (balancer.choose digest .consistentHash key list members).1.resolve []
      = (Ring.ofList digest Ring.replicas list).select digest key := by
  obtain ⟨generation, addresses⟩ := list
  rw [Balancer.choose]
  split
  · next none =>
      obtain rfl : addresses = [] := none
      simp [Choice.resolve, Ring.select, Ring.ofList, Ring.placeAt, Ring.settle]
  · next only single =>
      obtain ⟨address, mem, selected⟩ :=
        Ring.exists_select digest (single ▸ List.cons_ne_nil only []) key
      rw [selected]
      rw [single] at mem
      exact congrArg some (List.mem_singleton.mp mem).symm
  · show (Ring.select digest (balancer.rings.ringFor digest _ key).1 key) = _
    rw [Balancer.ringFor_eq fits]

theorem numbered_perform (digest : Digest) (numbered : state.Numbered) (act : Act) :
    (state.perform digest act).2.Numbered := by
  cases act with
  | wrap addresses => exact numbered.wrap addresses
  | select number key members =>
      rw [perform]
      cases state.made[number]? with
      | none => exact numbered
      | some list => exact ⟨numbered.next, numbered.made⟩

/-- What is selected after some acts is what new rings select, and the rings that are kept are those
of the lists that were made. -/
theorem run_eq (acts : List Act) (numbered : state.Numbered) (caches : state.CachesMade digest)
    (few : state.made.length + acts.countP Act.isWrap < 2 ^ 64) :
    (state.run digest acts).1 = answers digest (state.made.map (·.addresses)) acts
      ∧ (state.run digest acts).2.Numbered ∧ (state.run digest acts).2.CachesMade digest
      ∧ (state.run digest acts).2.made.length < 2 ^ 64 := by
  induction acts generalizing state with
  | nil => exact ⟨rfl, numbered, caches, few⟩
  | cons act rest ih =>
      have step := ih (numbered_perform digest numbered act) (caches.perform act)
      cases act with
      | wrap addresses =>
          rw [List.countP_cons_of_pos rfl] at few
          have made : (state.perform digest (.wrap addresses)).2.made
              = state.made ++ [⟨state.next.toNat, addresses⟩] := rfl
          rw [made, List.length_append, List.length_singleton, List.map_append] at step
          exact step (by omega)
      | select number key members =>
          rw [List.countP_cons_of_neg Bool.false_ne_true] at few
          rw [run, answers, List.getElem?_map]
          rw [perform] at step ⊢
          cases made : state.made[number]? with
          | none =>
              rw [made] at step
              exact step few
          | some list =>
              rw [made] at step
              obtain ⟨results, after⟩ := step few
              refine ⟨?_, after⟩
              have fits := caches.fits numbered (by omega) (List.mem_of_getElem? made) key
              exact (congrArg (· :: _) (resolve_choose fits members)).trans
                (congrArg (_ :: ·) results)

/-- As long as generations do not start over, addresses are selected as if a ring were built for each
selection; and a ring that is kept is that of the one list that has its generation. -/
theorem answers_of_run (digest : Digest) (acts : List Act)
    (few : acts.countP Act.isWrap < 2 ^ 64) :
    (start.run digest acts).1 = answers digest [] acts
      ∧ ∀ key ring, (start.run digest acts).2.balancer.rings.get? key = some ring →
        ∃ list ∈ (start.run digest acts).2.made,
          ring = Ring.ofList digest Ring.replicas list
            ∧ ∀ other ∈ (start.run digest acts).2.made, other.generation = ring.generation →
              other = list := by
  obtain ⟨results, numbered, caches, few'⟩ :=
    run_eq acts numbered_start cachesMade_start (by simpa [start] using few)
  refine ⟨results, fun key ring found => ?_⟩
  obtain ⟨list, mem, rfl⟩ := caches key ring found
  exact ⟨list, mem, rfl, fun other mem' same => numbered.unique few' mem' mem same⟩

/-- Two lists that take turns under one key replace each other's ring. -/
theorem answers_of_run_turns :
    let acts : List Act := [.wrap ["A", "A"], .wrap ["B", "B"], .select 0 "k" [], .select 1 "k" [],
      .select 0 "k" []]
    acts.countP Act.isWrap < 2 ^ 64
      ∧ ∀ digest, (start.run digest acts).1 = [some "A", some "B", some "A"] := by
  intro acts
  have few : acts.countP Act.isWrap < 2 ^ 64 := by decide
  refine ⟨few, fun digest => ?_⟩
  have alone (address : String) :
      (Ring.ofList digest Ring.replicas ⟨0, [address, address]⟩).select digest "k"
        = some address := by
    have some : (⟨0, [address, address]⟩ : AddressList).addresses ≠ [] := List.cons_ne_nil _ _
    obtain ⟨other, mem, selected⟩ := Ring.exists_select digest some "k"
    rw [selected]
    simpa using mem
  rw [(answers_of_run digest acts few).1]
  simp [acts, answers, alone]

end Hashing

end RemoteCall.Balance

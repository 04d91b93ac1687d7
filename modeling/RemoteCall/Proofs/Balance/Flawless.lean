import RemoteCall.Proofs.Balance.Checked
import RemoteCall.Proofs.Balance.Selection

/-! # Selections without a flaw

    Each strategy in checked steps gives what the balancer gives for the
    members as the source tells of them (`gives_select`).  The loops are
    followed by induction, each with a bound on what it may add or take off:
    a weight has 32 bits, so fewer than `2 ^ 31` weights stay far from the
    bounds of 64 bits.  The walk in rounds keeps addresses whose weight is
    spent, and the balancer drops them (`outcome_round`). -/

namespace RemoteCall.Balance

variable {σ : Type}

/-- The members of a list as a source tells of them, in the order of the list, and what becomes of the
source. -/
def Source.members (source : Source σ) (strategy : Strategy) (key : String) :
    σ → List String → List Member × σ
  | state, [] => ([], state)
  | state, address :: rest =>
    let (active, state) :=
      if strategy = .leastActive then source.count state address else (0, state)
    let (weight, state) := if strategy.weighs then source.weight state key address else (0, state)
    let (members, state) := source.members strategy key state rest
    (⟨address, weight, active.toNat⟩ :: members, state)

theorem Source.map_address_members (source : Source σ) (strategy : Strategy) (key : String)
    (state : σ) (addresses : List String) :
    (source.members strategy key state addresses).1.map (·.address) = addresses := by
  induction addresses generalizing state with
  | nil => rfl
  | cons address rest ih => exact congrArg (address :: ·) (ih _)

/-- The members with their weights have the addresses of the list. -/
theorem Source.map_fst_members (source : Source σ) (strategy : Strategy) (key : String) (state : σ)
    (addresses : List String) :
    ((source.members strategy key state addresses).1.map fun member =>
      (member.address, member.weight)).map (·.1) = addresses := by
  rw [List.map_map]
  exact source.map_address_members strategy key state addresses

theorem Source.active_of_mem_members (source : Source σ) (strategy : Strategy) (key : String)
    {state : σ} {addresses : List String} {member : Member}
    (mem : member ∈ (source.members strategy key state addresses).1) : member.active < 2 ^ 64 := by
  induction addresses generalizing state with
  | nil => exact nomatch mem
  | cons address rest ih =>
      rcases List.mem_cons.mp mem with rfl | mem
      · exact UInt64.toNat_lt _
      · exact ih mem

namespace Checked

variable {small : Prop} (source : Source σ) (key : String) (world : World σ)

/-! ## Weighted random selection -/

theorem outcome_weighAll (addresses : List String) :
    let read := source.members .random key world.source addresses
    outcome (weighAll source key addresses) world
      = (.ok (read.1.map (·.weight)), { world with source := read.2 }) := by
  induction addresses generalizing world with
  | nil => rfl
  | cons address rest ih =>
      have first : outcome (weigh source key address) world
          = (.ok (source.weight world.source key address).1,
            { world with source := (source.weight world.source key address).2 }) := rfl
      rw [weighAll, outcome_bind first, outcome_bind (ih _)]
      rfl

/-- To add some weights goes far enough only if they are many. -/
theorem gives_sumFrom (weights : List Int32) (sum : Int)
    (fits : small → -2 ^ 63 ≤ sum - 2 ^ 31 * weights.length
      ∧ sum + 2 ^ 31 * weights.length < 2 ^ 63) :
    Gives small (sumFrom sum weights) world (sum + (weights.map (·.toInt)).sum) world := by
  induction weights generalizing sum with
  | nil =>
      rw [List.map_nil, List.sum_nil, Int.add_zero]
      exact .of_eq rfl
  | cons weight rest ih =>
      have low := weight.le_toInt
      have high := weight.toInt_lt
      rw [List.length_cons] at fits
      rw [sumFrom, List.map_cons, List.sum_cons, ← Int.add_assoc]
      refine (gives_fit fun isSmall => ?_).bind rfl (ih _ fun isSmall => ?_)
      all_goals
        have := fits isSmall
        omega

/-- To take some weights off goes far enough only if they are many. -/
theorem gives_walk (members : List (String × Int32)) (offset : Int)
    (fits : small → -2 ^ 63 ≤ offset - 2 ^ 31 * members.length
      ∧ offset + 2 ^ 31 * members.length < 2 ^ 63) :
    Gives small (walk offset members) world (Random.walk offset members) world := by
  induction members generalizing offset with
  | nil => exact .of_eq rfl
  | cons member rest ih =>
      have low := member.2.le_toInt
      have high := member.2.toInt_lt
      rw [List.length_cons] at fits
      rw [walk, Random.walk]
      refine (gives_fit fun isSmall => ?_).bind rfl ?_
      · have := fits isSmall
        omega
      · split
        · exact .of_eq rfl
        · refine ih _ fun isSmall => ?_
          have := fits isSmall
          omega

theorem all_zip_tail (members : List (String × Int32)) :
    (((members.map (·.2)).zip (members.map (·.2)).tail).all fun pair => pair.1 = pair.2)
      = Random.sameWeight members := by
  induction members with
  | nil => rfl
  | cons member rest ih =>
      cases rest with
      | nil => rfl
      | cons next rest =>
          rw [Random.sameWeight, ← ih]
          rfl

theorem outcome_uniform {addresses : List String} (some : addresses ≠ []) :
    outcome (uniform addresses) world
      = (.ok ((Choice.member addresses).resolve world.numbers),
        { world with numbers := world.numbers.tail }) := by
  have positive := List.length_pos_iff.mpr some
  rw [uniform, outcome_bind (outcome_draw (Int.natCast_pos.mpr positive)), Choice.member,
    dif_pos positive, Int.toNat_natCast, List.getElem?_eq_getElem (Nat.mod_lt _ positive)]
  rfl

theorem total_le (members : List (String × Int32)) :
    Random.total members ≤ 2 ^ 31 * members.length := by
  induction members with
  | nil => exact Int.le_refl 0
  | cons member rest ih =>
      have high := member.2.toInt_lt
      rw [Random.total] at ih ⊢
      rw [List.map_cons, List.sum_cons, List.length_cons]
      omega

section

variable {members : List (String × Int32)}

/-- Members of different weights that have a positive sum come by weight. -/
theorem resolve_choose_of_weighs (positive : 0 < Random.total members)
    (differ : Random.sameWeight members = false) (numbers : List Nat) :
    (Random.choose members).resolve numbers
      = (Random.walk (numbers.headD 0 % (Random.total members).toNat : Nat) members).or
        ((Choice.member (members.map (·.1))).resolve numbers.tail) := by
  have positive' : 0 < (Random.total members).toNat := by omega
  rw [Random.choose, if_neg (by simp [differ]), dif_pos positive', Choice.resolve]
  dsimp only
  cases Random.walk (numbers.headD 0 % (Random.total members).toNat : Nat) members with
  | some address => rfl
  | none => rfl

/-- Other members are equally likely. -/
theorem resolve_choose_of_not
    (even : ¬ (0 < Random.total members ∧ Random.sameWeight members = false)) :
    Random.choose members = Choice.member (members.map (·.1)) := by
  rw [Random.choose]
  cases same : Random.sameWeight members with
  | true => rfl
  | false =>
      have none : ¬ 0 < (Random.total members).toNat := by
        intro positive
        exact even ⟨by omega, same⟩
      rw [if_neg Bool.false_ne_true, dif_neg none]

theorem gives_drawBy (some : members ≠ []) (positive : 0 < Random.total members)
    (differ : Random.sameWeight members = false) :
    ∃ after, after.balancer = world.balancer
      ∧ Gives (members.length < 2 ^ 31)
        (drawBy (Random.total members) (members.map (·.2)) (members.map (·.1))) world
        ((Random.choose members).resolve world.numbers) after := by
  have some' : members.map (·.1) ≠ [] := mt List.map_eq_nil_iff.mp some
  have zipped : (members.map (·.1)).zip (members.map (·.2)) = members :=
    (List.zip_of_prod rfl rfl).symm
  let drawing : World σ := { world with numbers := world.numbers.tail }
  rw [drawBy, zipped, resolve_choose_of_weighs positive differ]
  -- the number that is drawn is below the sum, and the sum is small
  generalize drawn : world.numbers.headD 0 % (Random.total members).toNat = offset
  have below : offset < (Random.total members).toNat := drawn ▸ Nat.mod_lt _ (by omega)
  have atMost := total_le members
  have draws : outcome (draw (Random.total members)) world = (.ok offset, drawing) := by
    rw [outcome_draw positive, drawn]
  have walked : Gives (members.length < 2 ^ 31) (walk offset members) drawing
      (Random.walk offset members) drawing :=
    gives_walk drawing members offset fun isSmall => by omega
  cases found : Random.walk offset members with
  | some address =>
      rw [found] at walked
      exact ⟨drawing, rfl, (Gives.of_eq draws).bind rfl (walked.bind_eq rfl)⟩
  | none =>
      rw [found] at walked
      exact ⟨{ drawing with numbers := drawing.numbers.tail }, rfl,
        (Gives.of_eq draws).bind rfl (walked.bind_eq (outcome_uniform drawing some'))⟩

/-- By weights that were read, a selection gives what the draws lead to. -/
theorem gives_randomBy (some : members ≠ []) :
    ∃ after, after.balancer = world.balancer
      ∧ Gives (members.length < 2 ^ 31) (randomBy (members.map (·.2)) (members.map (·.1))) world
        ((Random.choose members).resolve world.numbers) after := by
  have some' : members.map (·.1) ≠ [] := mt List.map_eq_nil_iff.mp some
  have total : Random.total members = 0 + ((members.map (·.2)).map (·.toInt)).sum := by
    rw [Int.zero_add, List.map_map]
    rfl
  have summed : Gives (members.length < 2 ^ 31) (sumFrom 0 (members.map (·.2))) world
      (Random.total members) world := by
    rw [total]
    refine gives_sumFrom world _ 0 fun isSmall => ?_
    rw [List.length_map]
    omega
  rw [randomBy]
  by_cases weighs : 0 < Random.total members ∧ Random.sameWeight members = false
  · obtain ⟨positive, differ⟩ := weighs
    obtain ⟨after, same, gives⟩ := gives_drawBy world some positive differ
    refine ⟨after, same, summed.bind rfl ?_⟩
    rw [all_zip_tail, if_pos (by simp [positive, differ])]
    exact gives
  · rw [resolve_choose_of_not weighs]
    refine ⟨{ world with numbers := world.numbers.tail }, rfl, summed.bind_eq ?_⟩
    rw [all_zip_tail, if_neg (by simpa using weighs)]
    exact outcome_uniform world some'

end

/-- Weighted random selection gives what the draws lead to. -/
theorem gives_random {addresses : List String} (some : addresses ≠ []) :
    let members := (source.members .random key world.source addresses).1
    ∃ after, after.balancer = world.balancer
      ∧ Gives (addresses.length < 2 ^ 31) (random source key addresses) world
        ((Random.choose (members.map fun member => (member.address, member.weight))).resolve
          world.numbers) after := by
  intro members
  have read := outcome_weighAll source key world addresses
  have addressesIs := source.map_fst_members .random key world.source addresses
  have weightsIs : (members.map fun member => (member.address, member.weight)).map (·.2)
      = members.map (·.weight) := by
    rw [List.map_map]
    rfl
  generalize members.map (fun member => (member.address, member.weight)) = weighted
    at addressesIs weightsIs ⊢
  have some' : weighted ≠ [] := by
    rintro rfl
    exact some addressesIs.symm
  obtain ⟨after, kept, gives⟩ := gives_randomBy
    { world with source := (source.members .random key world.source addresses).2 } some'
  rw [addressesIs, weightsIs, ← List.length_map, addressesIs] at gives
  exact ⟨after, kept, (Gives.of_eq read).bind rfl gives⟩

/-! ## Weighted round robin -/

/-- The weights as signed numbers. -/
def signed (held : List (String × Nat)) : List (String × Int) :=
  held.map fun member => (member.1, (member.2 : Int))

/-- The addresses that have weight left. -/
def alive (held : List (String × Nat)) : List (String × Nat) :=
  held.filter (0 < ·.2)

/-- The weights after a round. -/
def spent (held : List (String × Nat)) : List (String × Nat) :=
  held.map fun member => (member.1, member.2 - 1)

theorem alive_cons_succ (address : String) (left : Nat) (rest : List (String × Nat)) :
    alive ((address, left + 1) :: rest) = (address, left + 1) :: alive rest :=
  rfl

theorem alive_spent (held : List (String × Nat)) :
    alive (spent held) = RoundRobin.spend (alive held) := by
  induction held with
  | nil => rfl
  | cons member rest ih =>
      obtain ⟨address, left⟩ := member
      rw [spent, List.map_cons, ← spent]
      match left with
      | 0 => exact ih
      | 1 => exact ih
      | left + 2 => exact congrArg ((address, left + 1) :: ·) ih

theorem spent_lt {held : List (String × Nat)} {bound : Nat}
    (fits : ∀ member ∈ held, member.2 < bound) : ∀ member ∈ spent held, member.2 < bound := by
  intro member mem
  obtain ⟨before, known, rfl⟩ := List.mem_map.mp mem
  exact Nat.lt_of_le_of_lt (Nat.sub_le _ _) (fits before known)

/-- A round ends at the address behind a number of others that have weight left, or it takes all of
them off the number. -/
theorem outcome_round {held : List (String × Nat)} {offset : Nat} (fits : offset < 2 ^ 63)
    (fits' : ∀ member ∈ held, member.2 < 2 ^ 31) :
    (∀ member, (alive held)[offset]? = some member →
        outcome (round offset (signed held)) world = (.ok (.inl member.1), world))
      ∧ ((alive held).length ≤ offset → outcome (round offset (signed held)) world
        = (.ok (.inr (((offset - (alive held).length : Nat) : Int), signed (spent held))), world)) := by
  induction held generalizing offset with
  | nil => exact ⟨nofun, fun _ => rfl⟩
  | cons member rest ih =>
      obtain ⟨address, left⟩ := member
      have rest' : ∀ member ∈ rest, member.2 < 2 ^ 31 := fun member mem => fits' member (.tail _ mem)
      have less : left < 2 ^ 31 := fits' (address, left) (.head _)
      rw [signed, List.map_cons, ← signed, round]
      match left, offset with
      | 0, offset =>
          obtain ⟨found, past⟩ := ih fits rest'
          rw [if_neg (by simp), if_neg (by simp)]
          constructor
          · intro member at'
            rw [outcome_bind (found member at')]
            rfl
          · intro atMost
            rw [outcome_bind (past atMost)]
            rfl
      | left + 1, 0 =>
          rw [if_pos ⟨rfl, by omega⟩]
          constructor
          · intro member at'
            obtain rfl : (address, left + 1) = member := Option.some.inj at'
            rfl
          · exact fun atMost => absurd atMost (Nat.not_succ_le_zero _)
      | left + 1, offset + 1 =>
          obtain ⟨found, past⟩ := ih (Nat.lt_of_succ_lt fits) rest'
          have unit (n : Nat) : ((n + 1 : Nat) : Int) - 1 = n := Int.add_sub_cancel n 1
          rw [if_neg (by omega), if_pos (by omega), unit, unit,
            outcome_bind (outcome_fit (by omega)), outcome_bind (outcome_fit (by omega))]
          constructor
          · intro member at'
            rw [outcome_bind (found member at')]
            rfl
          · intro atMost
            rw [outcome_bind (past (Nat.le_of_succ_le_succ atMost)), alive_cons_succ,
              List.length_cons, Nat.add_sub_add_right]
            rfl

/-- The walk in rounds that keeps addresses without weight is the one that drops them. -/
theorem outcome_rounds (n : Nat) {held : List (String × Nat)} {offset : Nat}
    (fits : offset < 2 ^ 63) (fits' : ∀ member ∈ held, member.2 < 2 ^ 31) :
    outcome (rounds n offset (signed held)) world
      = (.ok (RoundRobin.walk n offset (alive held)), world) := by
  induction n generalizing held offset with
  | zero => rfl
  | succ n ih =>
      obtain ⟨found, past⟩ := outcome_round world fits fits'
      rw [rounds, RoundRobin.walk]
      by_cases less : offset < (alive held).length
      · have at' := List.getElem?_eq_getElem less
        rw [outcome_bind (found _ at'), if_pos less, at']
        rfl
      · have atMost := Nat.not_lt.mp less
        rw [outcome_bind (past atMost), if_neg less, ← alive_spent]
        exact ih (Nat.lt_of_le_of_lt (Nat.sub_le _ _) fits) (spent_lt fits')

/-- A tally with one more address. -/
def Tally.add (tally : Tally) (member : String × Int32) : Tally :=
  let tally := { tally with most := max tally.most member.2, least := min tally.least member.2 }
  if 0 < member.2 then
    { tally with
      sum := tally.sum + member.2.toInt
      left := tally.left ++ [(member.1, member.2.toInt)] }
  else tally

theorem Tally.add_of_pos (tally : Tally) {member : String × Int32} (heavy : 0 < member.2) :
    tally.add member = ⟨max tally.most member.2, min tally.least member.2,
      tally.sum + member.2.toInt, tally.left ++ [(member.1, member.2.toInt)]⟩ := by
  rw [add, if_pos heavy]

theorem Tally.add_of_not (tally : Tally) {member : String × Int32} (light : ¬ 0 < member.2) :
    tally.add member
      = ⟨max tally.most member.2, min tally.least member.2, tally.sum, tally.left⟩ := by
  rw [add, if_neg light]

/-- To tally some addresses goes far enough only if they are many. -/
theorem gives_tallyFrom (addresses : List String) (tally : Tally) (positive : 0 ≤ tally.sum)
    (fits : small → tally.sum + 2 ^ 31 * addresses.length < 2 ^ 63) :
    let read := source.members .roundRobin key world.source addresses
    Gives small (tallyFrom source key tally addresses) world
      ((read.1.map fun member => (member.address, member.weight)).foldl Tally.add tally)
      { world with source := read.2 } := by
  induction addresses generalizing tally world with
  | nil => exact .of_eq rfl
  | cons address rest ih =>
      let weight := (source.weight world.source key address).1
      let between := { world with source := (source.weight world.source key address).2 }
      have first : outcome (weigh source key address) world = (.ok weight, between) := rfl
      have high := weight.toInt_lt
      rw [List.length_cons] at fits
      rw [tallyFrom]
      refine (Gives.of_eq first).bind rfl ?_
      show Gives small _ between (List.foldl Tally.add (tally.add (address, weight)) _) _
      by_cases heavy : 0 < weight
      · have heavy' : 0 < weight.toInt := Int32.lt_iff_toInt_lt.mp heavy
        have positive' : 0 ≤ tally.sum + weight.toInt := by omega
        rw [tally.add_of_pos heavy, if_pos heavy]
        refine (gives_fit fun isSmall => ?_).bind rfl
          (ih between _ positive' fun isSmall => ?_)
        · have := fits isSmall
          dsimp only
          omega
        · have := fits isSmall
          dsimp only
          omega
      · rw [tally.add_of_not heavy, if_neg heavy]
        refine ih between _ positive fun isSmall => ?_
        have := fits isSmall
        dsimp only
        omega

/-- What one pass finds is what the balancer takes from the members. -/
theorem foldl_add (weighted : List (String × Int32)) (tally : Tally) :
    weighted.foldl Tally.add tally
      = ⟨weighted.foldl (fun most member => max most member.2) tally.most,
        weighted.foldl (fun least member => min least member.2) tally.least,
        tally.sum + (((RoundRobin.live weighted).map (·.2)).sum : Nat),
        tally.left ++ signed (RoundRobin.live weighted)⟩ := by
  induction weighted generalizing tally with
  | nil => simp [RoundRobin.live, signed]
  | cons member rest ih =>
      rw [List.foldl_cons, ih]
      by_cases heavy : 0 < member.2
      · have live : RoundRobin.live (member :: rest)
            = (member.1, member.2.toInt.toNat) :: RoundRobin.live rest := by
          rw [RoundRobin.live, List.filterMap_cons, if_pos heavy]
          rfl
        have whole : ((member.2.toInt.toNat : Nat) : Int) = member.2.toInt :=
          Int.toNat_of_nonneg (Int.le_of_lt (Int32.lt_iff_toInt_lt.mp heavy))
        rw [tally.add_of_pos heavy, live, Tally.mk.injEq]
        refine ⟨rfl, rfl, ?_, ?_⟩
        · rw [List.map_cons, List.sum_cons, Int.natCast_add, whole, Int.add_assoc]
        · rw [List.append_assoc, signed, signed, List.map_cons, whole]
          rfl
      · have live : RoundRobin.live (member :: rest) = RoundRobin.live rest := by
          rw [RoundRobin.live, List.filterMap_cons, if_neg heavy]
          rfl
        rw [tally.add_of_not heavy, live]
        rfl

theorem outcome_inTurn {weighted : List (String × Int32)} (some : weighted ≠ []) (turn : UInt32) :
    outcome (inTurn turn (weighted.map (·.1))) world
      = (.ok (RoundRobin.plain weighted turn.toNat), world) := by
  have positive : 0 < (weighted.map (·.1)).length := by
    rw [List.length_map]
    exact List.length_pos_iff.mpr some
  rw [inTurn, outcome_bind (outcome_remainder positive), RoundRobin.plain, List.length_map,
    Int.toNat_natCast, List.getElem?_map]
  rfl

/-- The largest weight is the one at the start or that of a member. -/
theorem foldl_max_cases (weighted : List (String × Int32)) (start : Int32) :
    weighted.foldl (fun most member => max most member.2) start = start
      ∨ ∃ member ∈ weighted,
        member.2 = weighted.foldl (fun most member => max most member.2) start := by
  induction weighted generalizing start with
  | nil => exact .inl rfl
  | cons member rest ih =>
      rw [List.foldl_cons]
      rcases ih (max start member.2) with same | ⟨other, mem, same⟩
      · rw [same]
        by_cases more : start ≤ member.2
        · exact .inr ⟨member, .head _, (if_pos more).symm⟩
        · exact .inl (if_neg more)
      · exact .inr ⟨other, .tail _ mem, same⟩

/-- Where members come by weight, the positive weights have a positive sum. -/
theorem sum_live_pos {weighted : List (String × Int32)}
    (byWeight : RoundRobin.isWeighted weighted = true) :
    0 < ((RoundRobin.live weighted).map (·.2)).sum := by
  rw [RoundRobin.isWeighted, Bool.and_eq_true, decide_eq_true_eq] at byWeight
  obtain ⟨positive, -⟩ := byWeight
  rw [RoundRobin.largest] at positive
  rw [List.sum_pos_iff_exists_pos_nat]
  rcases foldl_max_cases weighted 0 with zero | ⟨member, mem, same⟩
  · rw [zero] at positive
    exact absurd positive Int32.lt_irrefl
  · rw [← same] at positive
    have live : (member.1, member.2.toInt.toNat) ∈ RoundRobin.live weighted :=
      List.mem_filterMap.mpr ⟨member, mem, if_pos positive⟩
    refine ⟨_, List.mem_map_of_mem live, ?_⟩
    have positive' : 0 < member.2.toInt := Int32.lt_iff_toInt_lt.mp positive
    show 0 < member.2.toInt.toNat
    omega

theorem mem_live {weighted : List (String × Int32)} {held : String × Nat}
    (mem : held ∈ RoundRobin.live weighted) : 0 < held.2 ∧ held.2 < 2 ^ 31 := by
  obtain ⟨member, -, found⟩ := List.mem_filterMap.mp mem
  split at found
  · next heavy =>
      have low : 0 < member.2.toInt := Int32.lt_iff_toInt_lt.mp heavy
      have high := member.2.toInt_lt
      obtain rfl := Option.some.inj found
      show 0 < member.2.toInt.toNat ∧ member.2.toInt.toNat < 2 ^ 31
      omega
  · exact nomatch found

theorem alive_live (weighted : List (String × Int32)) :
    alive (RoundRobin.live weighted) = RoundRobin.live weighted :=
  List.filter_eq_self.mpr fun _ mem => decide_eq_true (mem_live mem).1

/-- By weights that were read, the pick is the one at the count of the key. -/
theorem outcome_takeTurn {weighted : List (String × Int32)} (some : weighted ≠ []) :
    let turn := world.balancer.nextTurn key
    outcome (takeTurn ⟨RoundRobin.largest weighted, RoundRobin.smallest weighted,
        (((RoundRobin.live weighted).map (·.2)).sum : Nat), signed (RoundRobin.live weighted)⟩
        key (weighted.map (·.1))) world
      = (.ok (RoundRobin.pick weighted turn.1.toNat), { world with balancer := turn.2 }) := by
  intro turn
  let between : World σ := { world with balancer := turn.2 }
  have first : outcome (nextTurn key) world = (.ok turn.1, between) := rfl
  have plain := outcome_inTurn between some turn.1
  have weighs : (decide (0 < RoundRobin.largest weighted)
      && decide (RoundRobin.smallest weighted < RoundRobin.largest weighted))
      = RoundRobin.isWeighted weighted := rfl
  rw [takeTurn, outcome_bind first, RoundRobin.pick]
  dsimp only
  rw [weighs]
  cases byWeight : RoundRobin.isWeighted weighted with
  | false => exact plain
  | true =>
      have divides := sum_live_pos byWeight
      have fits : turn.1.toNat % ((RoundRobin.live weighted).map (·.2)).sum < 2 ^ 63 :=
        Nat.lt_of_le_of_lt (Nat.mod_le _ _) (Nat.lt_of_lt_of_le turn.1.toNat_lt (by decide))
      have small : ∀ held ∈ RoundRobin.live weighted, held.2 < 2 ^ 31 :=
        fun _ mem => (mem_live mem).2
      have walked := outcome_rounds between (RoundRobin.largest weighted).toInt.toNat fits small
      rw [alive_live] at walked
      rw [if_pos rfl, if_pos rfl, outcome_bind (outcome_remainder divides), outcome_bind walked]
      cases RoundRobin.walk (RoundRobin.largest weighted).toInt.toNat
        (turn.1.toNat % ((RoundRobin.live weighted).map (·.2)).sum) (RoundRobin.live weighted) with
      | some address => rfl
      | none => exact plain

/-- Weighted round robin gives the pick at the count of the key. -/
theorem gives_roundRobin {addresses : List String} (some : addresses ≠ []) :
    let members := (source.members .roundRobin key world.source addresses).1
    let turn := world.balancer.nextTurn key
    ∃ after, after.balancer = turn.2
      ∧ Gives (addresses.length < 2 ^ 31) (roundRobin source key addresses) world
        (RoundRobin.pick (members.map fun member => (member.address, member.weight))
          turn.1.toNat) after := by
  intro members turn
  have fits : addresses.length < 2 ^ 31 → (0 : Int) + 2 ^ 31 * addresses.length < 2 ^ 63 := by
    omega
  have tallied := gives_tallyFrom source key world addresses ⟨0, Int32.maxValue, 0, []⟩
    (Int.le_refl 0) fits
  dsimp only at tallied
  rw [foldl_add, Int.zero_add, List.nil_append] at tallied
  have addressesIs := source.map_fst_members .roundRobin key world.source addresses
  generalize members.map (fun member => (member.address, member.weight)) = weighted
    at tallied addressesIs ⊢
  have some' : weighted ≠ [] := by
    rintro rfl
    exact some addressesIs.symm
  have taken := outcome_takeTurn key
    { world with source := (source.members .roundRobin key world.source addresses).2 } some'
  rw [addressesIs] at taken
  exact ⟨_, rfl, tallied.bind_eq taken⟩

/-! ## Selection by calls in progress -/

theorem outcome_bestFrom (best : LeastActive.Best String) (addresses : List String) :
    let read := source.members .leastActive key world.source addresses
    outcome (bestFrom source key best addresses) world
      = (.ok ((read.1.map fun member => (member.address, member.active, member.weight)).foldl
          (fun best member => best.add member.1 member.2.1 member.2.2) best),
        { world with source := read.2 }) := by
  induction addresses generalizing best world with
  | nil => rfl
  | cons address rest ih =>
      let counted := source.count world.source address
      let weighed := source.weight counted.2 key address
      have first : outcome (count source address) world
          = (.ok counted.1, { world with source := counted.2 }) := rfl
      have second : outcome (weigh source key address) { world with source := counted.2 }
          = (.ok weighed.1, { world with source := weighed.2 }) := rfl
      rw [bestFrom, outcome_bind first, outcome_bind second, ih]
      rfl

theorem outcome_oneOf (addresses : List String) : ∃ numbers,
    outcome (oneOf addresses) world
      = (.ok ((Choice.member addresses).resolve world.numbers), { world with numbers }) := by
  match addresses with
  | [] => exact ⟨world.numbers, rfl⟩
  | [only] =>
      refine ⟨world.numbers, ?_⟩
      have positive : 0 < [only].length := Nat.one_pos
      have chosen (i : Fin [only].length) : [only].get i = only := List.getElem_singleton i.2
      rw [Choice.member, dif_pos positive, Choice.resolve, Choice.resolve, chosen]
      rfl
  | first :: second :: rest =>
      have positive : 0 < (first :: second :: rest).length := Nat.succ_pos _
      have drawn : outcome (draw (first :: second :: rest).length) world = _ :=
        outcome_draw (Int.natCast_pos.mpr positive)
      have less := Nat.mod_lt (world.numbers.headD 0) positive
      have at' := List.getElem?_eq_getElem less
      refine ⟨world.numbers.tail, ?_⟩
      rw [Choice.member, dif_pos positive]
      show outcome (draw (first :: second :: rest).length >>= _) world = _
      rw [outcome_bind drawn, Int.toNat_natCast, outcome_bind (outcome_item at')]
      rfl

/-- Selection by calls in progress gives one of the best. -/
theorem outcome_leastActive (addresses : List String) :
    let members := (source.members .leastActive key world.source addresses).1
    ∃ after, after.balancer = world.balancer
      ∧ outcome (leastActive source key addresses) world
        = (.ok ((Choice.member (LeastActive.best (members.map fun member =>
            (member.address, member.active, member.weight)))).resolve world.numbers), after) := by
  intro members
  have found := outcome_bestFrom source key world .start addresses
  let between : World σ :=
    { world with source := (source.members .leastActive key world.source addresses).2 }
  obtain ⟨numbers, last⟩ := outcome_oneOf between (LeastActive.best (members.map fun member =>
    (member.address, member.active, member.weight)))
  exact ⟨{ between with numbers }, rfl, (outcome_bind found _).trans last⟩

/-! ## Hash rings -/

theorem length_digest (bytes : Bytes) : (Md5.digest bytes).length = 16 := by
  simp [Md5.digest]

/-- Items at indices that are there. -/
theorem mapM_item {α : Type} (items : List α) {start n : Nat} (fits : start + n ≤ items.length) :
    ((List.range n).mapM fun i => item items (start + i) : Checked σ (List α))
      = pure ((items.drop start).take n) := by
  induction n with
  | zero => rfl
  | succ n ih =>
      have less : start + n < items.length := fits
      have last : (item items (start + n) : Checked σ α) = pure items[start + n] := by
        rw [item, List.getElem?_eq_getElem less]
      rw [List.range_succ, List.mapM_append, ih (Nat.le_of_succ_le fits), pure_bind,
        List.mapM_cons, last, List.mapM_nil, pure_bind, pure_bind, pure_bind]
      rw [List.take_add_one, List.getElem?_drop, List.getElem?_eq_getElem less]
      rfl

/-- A digest has four windows. -/
theorem wordAt_digest (text : String) {window : Nat} (less : window < 4) :
    (wordAt (Md5.digest (Bytes.ofText text)) window : Checked σ UInt32)
      = pure (Md5.window text window) := by
  have fits : 4 * window + 4 ≤ (Md5.digest (Bytes.ofText text)).length := by
    rw [length_digest]
    omega
  rw [wordAt, mapM_item _ fits]
  rfl

theorem mapM_eq_pure {α β : Type} {steps : α → Checked σ β} {value : α → β} {items : List α}
    (each : ∀ item ∈ items, steps item = pure (value item)) :
    items.mapM steps = pure (items.map value) := by
  induction items with
  | nil => rfl
  | cons item rest ih =>
      rw [List.mapM_cons, each item (.head _), ih fun item mem => each item (.tail _ mem), pure_bind,
        pure_bind, List.map_cons]

theorem placesOf_eq (address : String) :
    (placesOf address : Checked σ (List Place))
      = pure (Ring.placesOf Md5.window Ring.replicas address) := by
  have windows (i : Nat) : ((List.range 4).mapM fun window =>
      wordAt (Md5.digest (Bytes.ofText (Ring.anchor address i))) window >>= fun number =>
        pure (number, address) : Checked σ (List Place))
      = pure ((List.range 4).map fun window =>
          (Md5.window (Ring.anchor address i) window, address)) := by
    refine mapM_eq_pure fun window mem => ?_
    rw [wordAt_digest _ (List.mem_range.mp mem), pure_bind]
  rw [placesOf, mapM_eq_pure fun i _ => windows i, pure_bind]
  rfl

theorem ringOf_eq (list : AddressList) :
    (ringOf list : Checked σ Ring) = pure (Ring.ofList Md5.window Ring.replicas list) := by
  rw [ringOf, mapM_eq_pure fun address _ => placesOf_eq address, pure_bind]
  rfl

/-- The ring of a list is built, or taken over. -/
theorem outcome_ringFor (list : AddressList) :
    let kept := world.balancer.rings.ringFor Md5.window list key
    outcome (ringFor key list) world
      = (.ok kept.1, { world with balancer := { world.balancer with rings := kept.2 } }) := by
  intro kept
  have looked : outcome (get : Checked σ (World σ)) world = (.ok world, world) := rfl
  have same : kept = world.balancer.rings.ringFor Md5.window list key := rfl
  rw [Rings.ringFor] at same
  rw [ringFor, outcome_bind looked]
  cases found : (world.balancer.rings.get? key).filter
      fun ring => ring.generation = list.generation with
  | some ring =>
      rw [found] at same
      rw [same]
      rfl
  | none =>
      rw [found] at same
      rw [same]
      show outcome (ringOf list >>= _) world = _
      rw [ringOf_eq, pure_bind]
      rfl

/-- Selection by hashing gives the address that the key belongs to. -/
theorem outcome_consistentHash (list : AddressList) :
    let kept := world.balancer.rings.ringFor Md5.window list key
    outcome (consistentHash key list) world
      = (.ok (kept.1.select Md5.window key),
        { world with balancer := { world.balancer with rings := kept.2 } }) := by
  intro kept
  rw [consistentHash, outcome_bind (outcome_ringFor key world list),
    wordAt_digest key (by decide : 0 < 4), pure_bind]
  rfl

/-! ## Selection -/

/-- In checked steps, a selection gives what the balancer gives for the members as the source tells of
them, unless it overflows on a long list. -/
theorem gives_select (strategy : Strategy) (list : AddressList) :
    let members := (source.members strategy key world.source list.addresses).1
    let chosen := world.balancer.choose Md5.window strategy key list members
    ∃ after, after.balancer = chosen.2
      ∧ Gives (list.addresses.length < 2 ^ 31) (select source strategy key list) world
        (chosen.1.resolve world.numbers) after := by
  obtain ⟨generation, addresses⟩ := list
  match addresses with
  | [] => exact ⟨world, rfl, .of_eq rfl⟩
  | [only] => exact ⟨world, rfl, .of_eq rfl⟩
  | first :: second :: rest =>
      have some : first :: second :: rest ≠ [] := List.cons_ne_nil _ _
      cases strategy with
      | random => exact gives_random source key world some
      | roundRobin => exact gives_roundRobin source key world some
      | consistentHash =>
          exact ⟨_, rfl, .of_eq (outcome_consistentHash key world ⟨generation, _⟩)⟩
      | leastActive =>
          obtain ⟨after, same, given⟩ :=
            outcome_leastActive source key world (first :: second :: rest)
          exact ⟨after, same, .of_eq given⟩

end Checked

end RemoteCall.Balance

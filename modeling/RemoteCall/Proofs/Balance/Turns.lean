import RemoteCall.Proofs.Balance.Positions
import RemoteCall.Proofs.Balance.Rounds

/-! # Selections by turns

    Selections are asked of a balancer one after another, for any keys and by
    any strategies (`Query`).  A selection by turns among two members or more
    takes a turn of its key, and nothing else does: the counter of a key tells
    how many turns of the key were taken (`turn_run`), and the answers at a
    key are the picks at the counts of these turns (`answersTo_run`).

    So the positions that are picked for a key follow one order, whatever was
    selected in between for other keys, and in a cycle of this order every
    position has its share (`turns_of_run`). -/

namespace RemoteCall.Balance

/-- A selection that is asked for. -/
structure Query where
  strategy : Strategy
  key : String
  /-- The generation of the address list. -/
  generation : Nat
  members : List Member

namespace Query

/-- The list that is selected from. -/
def list (query : Query) : AddressList :=
  ⟨query.generation, query.members.map (·.address)⟩

/-- Whether a selection takes a turn of a key. -/
def takesTurn (key : String) (query : Query) : Bool :=
  query.strategy = .roundRobin && query.key = key && 2 ≤ query.members.length

theorem takesTurn_iff {key : String} {query : Query} :
    query.takesTurn key = true
      ↔ query.strategy = .roundRobin ∧ query.key = key ∧ 2 ≤ query.members.length := by
  simp [takesTurn, and_assoc]

end Query

namespace Balancer

/-- How many turns of a key were taken, as its counter tells. -/
def turn (balancer : Balancer) (key : String) : UInt32 :=
  (balancer.turns.get? key).getD 0

variable (digest : Digest)

/-- What comes of a selection. -/
def answer (balancer : Balancer) (query : Query) : Choice (Option String) × Balancer :=
  balancer.choose digest query.strategy query.key query.list query.members

/-- What comes of selections one after another. -/
def run (balancer : Balancer) : List Query → List (Query × Choice (Option String)) × Balancer
  | [] => ([], balancer)
  | query :: rest =>
    let (choice, next) := balancer.answer digest query
    let (answers, last) := run next rest
    ((query, choice) :: answers, last)

/-- The answers of the selections that took turns of a key. -/
def answersTo (key : String) (answers : List (Query × Choice (Option String))) :
    List (Choice (Option String)) :=
  (answers.filter fun answer => answer.1.takesTurn key).map (·.2)

variable {digest} {balancer : Balancer} {key : String} {query : Query}

/-! ## Counters -/

/-- A selection that takes a turn gives the pick at the count. -/
theorem answer_of_takesTurn (takes : query.takesTurn key = true) :
    balancer.answer digest query
      = (.done (RoundRobin.pick (weighted query.members) (balancer.turn key).toNat),
        (balancer.nextTurn key).2) := by
  obtain ⟨strategy, rfl, two⟩ := Query.takesTurn_iff.mp takes
  rw [answer, Query.list, choose_of_two two, strategy]
  rfl

theorem turns_chooseAmong {strategy : Strategy} (other : strategy ≠ .roundRobin)
    (list : AddressList) (members : List Member) :
    (balancer.chooseAmong digest strategy key list members).2.turns = balancer.turns := by
  cases strategy with
  | roundRobin => exact absurd rfl other
  | random => rfl
  | consistentHash => rfl
  | leastActive => rfl

theorem turn_nextTurn (own other : String) :
    (balancer.nextTurn own).2.turn other
      = balancer.turn other + if other = own then 1 else 0 := by
  show ((balancer.turns.insert own _).get? other).getD 0 = _
  rw [Dictionary.get?_insert]
  split
  · next same =>
      rw [same]
      rfl
  · exact (UInt32.add_zero _).symm

/-- Only the turns of a key are counted for it. -/
theorem turn_answer (balancer : Balancer) (query : Query) :
    (balancer.answer digest query).2.turn key
      = balancer.turn key + if query.takesTurn key then 1 else 0 := by
  by_cases two : 2 ≤ query.members.length
  · by_cases byTurns : query.strategy = .roundRobin
    · have own : query.takesTurn query.key = true := Query.takesTurn_iff.mpr ⟨byTurns, rfl, two⟩
      have takes : query.takesTurn key = true ↔ key = query.key := by
        rw [Query.takesTurn_iff]
        exact ⟨fun ⟨_, same, _⟩ => same.symm, fun same => ⟨byTurns, same.symm, two⟩⟩
      rw [answer_of_takesTurn own, turn_nextTurn]
      simp only [takes]
    · have idle : ¬ query.takesTurn key = true := fun takes =>
        byTurns (Query.takesTurn_iff.mp takes).1
      rw [if_neg idle, UInt32.add_zero, turn, answer, Query.list, choose_of_two two,
        turns_chooseAmong byTurns]
      rfl
  · have idle : ¬ query.takesTurn key = true := fun takes =>
      two (Query.takesTurn_iff.mp takes).2.2
    rw [if_neg idle, UInt32.add_zero, answer, Query.list]
    match members : query.members with
    | [] => rfl
    | [_] => rfl
    | _ :: _ :: _ =>
        rw [members] at two
        exact absurd (Nat.le_add_left 2 _) two

/-- The counter of a key starts again after `2 ^ 32` turns. -/
theorem turn_run (balancer : Balancer) (queries : List Query) :
    ((balancer.run digest queries).2.turn key).toNat
      = ((balancer.turn key).toNat + queries.countP (·.takesTurn key)) % 2 ^ 32 := by
  induction queries generalizing balancer with
  | nil => exact (Nat.mod_eq_of_lt (balancer.turn key).toNat_lt).symm
  | cons query rest ih =>
      show (((balancer.answer digest query).2.run digest rest).2.turn key).toNat = _
      rw [ih, turn_answer, List.countP_cons]
      split
      · rw [UInt32.toNat_add]
        show ((_ + 1) % 2 ^ 32 + _) % 2 ^ 32 = _
        omega
      · rw [UInt32.add_zero, Nat.add_zero]

theorem answersTo_cons (choice : Choice (Option String))
    (answers : List (Query × Choice (Option String))) :
    answersTo key ((query, choice) :: answers)
      = if query.takesTurn key then choice :: answersTo key answers
        else answersTo key answers := by
  rw [answersTo, List.filter_cons]
  split <;> rfl

/-- Selections from one list that take turns of a key get the picks at the counts that follow, as long
as the counter does not start again. -/
theorem answersTo_run (balancer : Balancer) {queries : List Query} {members : List (String × Int32)}
    (alike : ∀ query ∈ queries, query.takesTurn key = true → weighted query.members = members)
    (fits : (balancer.turn key).toNat + queries.countP (·.takesTurn key) ≤ 2 ^ 32) :
    answersTo key (balancer.run digest queries).1
      = (List.range' (balancer.turn key).toNat (queries.countP (·.takesTurn key))).map
        fun count => .done (RoundRobin.pick members count) := by
  induction queries generalizing balancer with
  | nil => rfl
  | cons query rest ih =>
      let next := (balancer.answer digest query).2
      have counted : next.turn key = balancer.turn key + if query.takesTurn key then 1 else 0 :=
        turn_answer balancer query
      have later := ih next fun other mem => alike other (.tail _ mem)
      show answersTo key ((query, (balancer.answer digest query).1) :: (next.run digest rest).1) = _
      rw [answersTo_cons]
      rw [List.countP_cons] at fits ⊢
      by_cases takes : query.takesTurn key = true
      · rw [if_pos takes] at fits counted
        rw [if_pos takes, if_pos takes, answer_of_takesTurn takes, alike query (.head _) takes,
          List.range'_succ, List.map_cons]
        congr 1
        have same : (next.turn key).toNat = ((balancer.turn key).toNat + 1) % 2 ^ 32 := by
          rw [counted, UInt32.toNat_add]
          rfl
        -- after the last turn the counter may start again
        by_cases last : rest.countP (·.takesTurn key) = 0
        · rw [last] at later ⊢
          exact later (Nat.le_of_lt (next.turn key).toNat_lt)
        · rw [Nat.mod_eq_of_lt (by omega)] at same
          rw [same] at later
          exact later (by omega)
      · rw [if_neg takes, UInt32.add_zero] at counted
        rw [if_neg takes] at fits ⊢
        rw [if_neg takes, Nat.add_zero, ← counted]
        rw [← counted] at fits
        exact later fits

end Balancer

/-! ## The order of positions -/

namespace RoundRobin

variable {members : List Member}

/-- Whether some pairs of a round and a position are the ones in which the position weighs at least as
much as the number of the round, ordered by round and then position. -/
structure InOrder (members : List Member) (order : List (Nat × Fin members.length)) : Prop where
  mem_iff : ∀ round i, (round, i) ∈ order
    ↔ 1 ≤ round ∧ (round : Int) ≤ (members.get i).weight.toInt
  increasing : order.Pairwise fun a b => a.1 < b.1 ∨ a.1 = b.1 ∧ a.2 < b.2

theorem mem_inRound_iff {round : Nat} {i : Fin members.length} :
    i ∈ inRound (positions members) round ↔ (round : Int) ≤ (members.get i).weight.toInt := by
  rw [inRound, List.mem_map]
  constructor
  · rintro ⟨⟨j, weight⟩, mem, rfl⟩
    obtain ⟨mem, inside⟩ := List.mem_filter.mp mem
    rw [← mem_positions_iff.mp mem]
    exact of_decide_eq_true inside
  · intro inside
    exact ⟨(i, (members.get i).weight),
      List.mem_filter.mpr ⟨mem_positions_iff.mpr rfl, decide_eq_true inside⟩, rfl⟩

theorem increasing_inRound (members : List Member) (round : Nat) :
    (inRound (positions members) round).Pairwise (· < ·) := by
  have increasing : ((positions members).map (·.1)).Pairwise (· < ·) := by
    rw [map_fst_positions]
    exact List.pairwise_lt_finRange _
  exact increasing.sublist (List.filter_sublist.map _)

/-- The turns of a cycle are in order. -/
theorem inOrder_turns (members : List Member) :
    InOrder members (turns (positions members) (allRounds (positions members))) := by
  refine ⟨fun round i => ?_, ?_⟩
  · rw [turns, List.mem_flatMap]
    constructor
    · rintro ⟨round', mem, mem'⟩
      obtain ⟨j, inside, same⟩ := List.mem_map.mp mem'
      obtain ⟨rfl, rfl⟩ := Prod.mk.inj same
      exact ⟨(List.mem_range'_1.mp mem).1, mem_inRound_iff.mp inside⟩
    · rintro ⟨positive, inside⟩
      have most := le_largest (mem_positions_iff.mpr (rfl : (members.get i).weight = _))
      refine ⟨round, List.mem_range'_1.mpr ⟨positive, ?_⟩,
        List.mem_map_of_mem (mem_inRound_iff.mpr inside)⟩
      rw [allRounds]
      dsimp only at most
      omega
  · rw [turns, List.pairwise_flatMap]
    constructor
    · intro round _
      rw [List.pairwise_map]
      exact (increasing_inRound members round).imp fun less => .inr ⟨rfl, less⟩
    · refine (List.pairwise_lt_range' ..).imp fun less a mem b mem' => ?_
      obtain ⟨_, _, rfl⟩ := List.mem_map.mp mem
      obtain ⟨_, _, rfl⟩ := List.mem_map.mp mem'
      exact .inl less

/-- A position has its share of the turns. -/
theorem count_turns (rounds : Nat) (i : Fin members.length) :
    ((turns (positions members) rounds).map (·.2)).count i = share rounds (members.get i).weight := by
  rw [List.count_eq_countP, List.countP_map]
  have counted := countP_turns (positions members) rounds fun j => decide (j = i)
  rw [filter_positions, List.map_singleton, List.sum_singleton] at counted
  exact counted

/-- How many turns there are in some rounds. -/
def turnCount (members : List Member) (rounds : Nat) : Nat :=
  (members.map fun member => share rounds member.weight).sum

/-- How many turns a cycle has by weight. -/
def weightSum (members : List Member) : Nat :=
  (members.map fun member => member.weight.toInt.toNat).sum

theorem length_turns_positions (members : List Member) (rounds : Nat) :
    (turns (positions members) rounds).length = turnCount members rounds := by
  rw [length_turns, map_weight_positions, turnCount]

theorem length_cycle_positions (members : List Member) :
    (turns (positions members) (allRounds (positions members))).length = weightSum members := by
  rw [length_turns_allRounds, map_weight_positions members fun weight => weight.toInt.toNat, weightSum]

theorem byWeight_positions : ByWeight (positions members) ↔ ByWeight (weighted members) := by
  rw [← isWeighted_iff, ← isWeighted_iff, ← renamed_positions, isWeighted_renamed]

theorem positions_ne_nil (some : members ≠ []) : positions members ≠ [] := by
  intro none
  have length := congrArg List.length none
  rw [length_positions] at length
  exact some (List.length_eq_zero_iff.mp length)

theorem exists_position (some : members ≠ []) : ∃ position : Nat → Fin members.length,
    ∀ count, pick (positions members) count = .some (position count) := by
  let order := cycle (positions members)
  have less (count : Nat) : count % order.length < order.length :=
    Nat.mod_lt count (List.length_pos_iff.mpr (cycle_ne_nil (positions_ne_nil some)))
  refine ⟨fun count => order.get ⟨count % order.length, less count⟩, fun count => ?_⟩
  rw [pick_eq]
  exact List.getElem?_eq_getElem (less count)

/-- The positions that are picked at consecutive counts are a part of a cycle that starts at the first
of the counts. -/
theorem map_picks {position : Nat → Fin members.length}
    (picked : ∀ count, pick (positions members) count = some (position count)) (start : Nat)
    {n : Nat} (le : n ≤ (cycle (positions members)).length) :
    (List.range' start n).map position = ((cycle (positions members)).rotate start).take n := by
  refine List.map_injective_iff.mpr (Option.some_injective _) ?_
  rw [← map_cycle _ _ le, List.map_map]
  refine List.map_congr_left fun count _ => ?_
  rw [← pick_eq, picked]
  rfl

/-- In a whole cycle, a position is picked as often as it stands in the cycle. -/
theorem count_map_picks {position : Nat → Fin members.length}
    (picked : ∀ count, pick (positions members) count = some (position count)) (start : Nat)
    (i : Fin members.length) :
    ((List.range' start (cycle (positions members)).length).map position).count i
      = (cycle (positions members)).count i := by
  have whole : ((cycle (positions members)).rotate start).take (cycle (positions members)).length
      = (cycle (positions members)).rotate start :=
    List.take_of_length_le (Nat.le_of_eq (List.length_rotate ..))
  rw [map_picks picked start (Nat.le_refl _), whole]
  exact (List.rotate_perm _ _).count_eq i

section

variable (byWeight : ByWeight (positions members))
include byWeight

theorem length_cycle_of_byWeight : (cycle (positions members)).length = weightSum members := by
  rw [cycle_of_byWeight byWeight, List.length_map, length_cycle_positions]

/-- In a cycle by weight, a position stands as often as it weighs. -/
theorem count_cycle_of_byWeight (i : Fin members.length) :
    (cycle (positions members)).count i = (members.get i).weight.toInt.toNat := by
  rw [cycle_of_byWeight byWeight, count_turns]
  exact share_allRounds (mem_positions_iff.mpr rfl)

/-- In some rounds from the start of a cycle on, a position is picked once a round, but no more often
than it weighs. -/
theorem count_map_rounds {position : Nat → Fin members.length}
    (picked : ∀ count, pick (positions members) count = some (position count)) {start : Nat}
    (starts : weightSum members ∣ start) (rounds : Nat) (i : Fin members.length) :
    ((List.range' start (turnCount members rounds)).map position).count i
      = share rounds (members.get i).weight := by
  have first := turns_prefix (positions members) rounds
  have unturned : (cycle (positions members)).rotate start = cycle (positions members) := by
    rw [← List.rotate_mod, length_cycle_of_byWeight byWeight, Nat.mod_eq_zero_of_dvd starts,
      List.rotate_zero]
  have part : (cycle (positions members)).take (turnCount members rounds)
      = (turns (positions members) rounds).map (·.2) := by
    rw [cycle_of_byWeight byWeight, ← List.map_take, ← length_turns_positions,
      ← List.prefix_iff_eq_take.mp first]
  have le : turnCount members rounds ≤ (cycle (positions members)).length := by
    rw [cycle_of_byWeight byWeight, List.length_map, ← length_turns_positions]
    exact first.length_le
  rw [map_picks picked start le, unturned, part, count_turns]

end

section

variable (plainly : ¬ ByWeight (positions members))
include plainly

theorem length_cycle_of_not_byWeight : (cycle (positions members)).length = members.length := by
  rw [cycle_of_not_byWeight plainly, map_fst_positions, List.length_finRange]

/-- In a cycle in the order of the list, a position stands once. -/
theorem count_cycle_of_not_byWeight (i : Fin members.length) :
    (cycle (positions members)).count i = 1 := by
  rw [cycle_of_not_byWeight plainly, map_fst_positions]
  exact List.count_eq_one_of_mem (List.nodup_finRange _) (List.mem_finRange i)

end

/-- The positions that are picked for a key follow one order, from the count of the turns that were
taken of the key before, whatever else was selected. -/
theorem turns_of_run (digest : Digest) (key : String) (members : List Member)
    (two : 2 ≤ members.length) :
    ∃ position : Nat → Fin members.length,
      (ByWeight (weighted members) → ∃ order, InOrder members order
        ∧ order.length = weightSum members
        ∧ ∀ count, (∃ round, order[count % weightSum members]? = some (round, position count))
          ∧ walk (allRounds (weighted members)) (count % weightSum members)
            (live (weighted members)) = some (members.get (position count)).address)
      ∧ (¬ ByWeight (weighted members) → ∀ count, (position count : Nat) = count % members.length)
      ∧ ∀ before during : List Query,
        (∀ query ∈ during, query.takesTurn key = true → weighted query.members = weighted members) →
        let turn := before.countP (·.takesTurn key) % 2 ^ 32
        let taken := during.countP (·.takesTurn key)
        turn + taken ≤ 2 ^ 32 →
        ∃ picks : List (Fin members.length),
          Balancer.answersTo key ((Balancer.empty.run digest before).2.run digest during).1
            = picks.map (fun i => .done (some (members.get i).address))
          ∧ picks = (List.range' turn taken).map position
          ∧ (ByWeight (weighted members) → taken = weightSum members →
            ∀ i, picks.count i = (members.get i).weight.toInt.toNat)
          ∧ (ByWeight (weighted members) → ∀ rounds, weightSum members ∣ turn →
            taken = turnCount members rounds → ∀ i, picks.count i = share rounds (members.get i).weight)
          ∧ (¬ ByWeight (weighted members) → taken = members.length →
            ∀ i, picks.count i = 1) := by
  have some' : members ≠ [] := List.ne_nil_of_length_pos (Nat.lt_of_lt_of_le Nat.two_pos two)
  obtain ⟨position, picked⟩ := exists_position some'
  refine ⟨position, ?_, ?_, ?_⟩
  · intro byWeight
    have byWeight' := byWeight_positions.mpr byWeight
    refine ⟨_, inOrder_turns members, length_cycle_positions members, fun count => ⟨?_, ?_⟩⟩
    · have found := (pick_eq (positions members) count).symm.trans (picked count)
      rw [length_cycle_of_byWeight byWeight', cycle_of_byWeight byWeight', List.getElem?_map]
        at found
      obtain ⟨⟨round, i⟩, at', same⟩ := Option.map_eq_some_iff.mp found
      exact ⟨round, at'.trans (congrArg (fun i => some (round, i)) same)⟩
    · have walked := walk_of_byWeight byWeight count
      rw [← pick_eq, pick_positions, picked, sum_live, weighted, List.map_map] at walked
      exact walked
  · intro plainly count
    have plainly := mt byWeight_positions.mp plainly
    have found := (pick_eq (positions members) count).symm.trans (picked count)
    rw [length_cycle_of_not_byWeight plainly, cycle_of_not_byWeight plainly, map_fst_positions]
      at found
    obtain ⟨less, same⟩ := List.getElem?_eq_some_iff.mp found
    rw [← same, List.getElem_finRange]
    rfl
  · intro before during alike turn taken fits
    have counted : ((Balancer.empty.run digest before).2.turn key).toNat = turn := by
      have start : (Balancer.empty.turn key).toNat = 0 := rfl
      rw [Balancer.turn_run, start, Nat.zero_add]
    rw [← counted] at fits
    refine ⟨(List.range' turn taken).map position, ?_, rfl, ?_, ?_, ?_⟩
    · rw [Balancer.answersTo_run _ alike fits, List.map_map, counted]
      refine List.map_congr_left fun count _ => ?_
      rw [pick_positions, picked]
      rfl
    · intro byWeight all i
      have byWeight := byWeight_positions.mpr byWeight
      rw [all, ← length_cycle_of_byWeight byWeight, count_map_picks picked,
        count_cycle_of_byWeight byWeight]
    · intro byWeight rounds starts all i
      rw [all]
      exact count_map_rounds (byWeight_positions.mpr byWeight) picked starts rounds i
    · intro plainly all i
      have plainly := mt byWeight_positions.mp plainly
      have all := all.trans (length_cycle_of_not_byWeight plainly).symm
      rw [all, count_map_picks picked, count_cycle_of_not_byWeight plainly]

/-- Of six selections among weights five, one and minus one, with others in between, five go to the
first address and one to the second. -/
theorem turns_of_run_fiveToOne :
    let members : List Member := [⟨"A", 5, 0⟩, ⟨"B", 1, 0⟩, ⟨"C", -1, 0⟩]
    let own : Query := ⟨.roundRobin, "k", 1, members⟩
    let other : Query := ⟨.roundRobin, "l", 1, members⟩
    let before := [own, other]
    let during := [own, other, own, own, other, own, own, own]
    2 ≤ members.length
      ∧ (∀ query ∈ during, query.takesTurn "k" = true → weighted query.members = weighted members)
      ∧ before.countP (·.takesTurn "k") % 2 ^ 32 + during.countP (·.takesTurn "k") ≤ 2 ^ 32
      ∧ ∀ digest, ∃ picks : List (Fin 3),
        Balancer.answersTo "k" ((Balancer.empty.run digest before).2.run digest during).1
          = picks.map (fun i => .done (some (members.get i).address))
        ∧ picks.count 0 = 5 ∧ picks.count 1 = 1 ∧ picks.count 2 = 0 := by
  intro members own other before during
  have two : 2 ≤ members.length := by decide
  have alike : ∀ query ∈ during, query.takesTurn "k" = true →
      weighted query.members = weighted members := by
    intro query mem _
    have same : query.members = members := by
      simp only [during, List.mem_cons, List.not_mem_nil, or_false] at mem
      rcases mem with rfl | rfl | rfl | rfl | rfl | rfl | rfl | rfl <;> rfl
    rw [same]
  have fits : before.countP (·.takesTurn "k") % 2 ^ 32 + during.countP (·.takesTurn "k")
      ≤ 2 ^ 32 := by decide
  refine ⟨two, alike, fits, fun digest => ?_⟩
  have byWeight : ByWeight (weighted members) :=
    ⟨⟨("A", 5), .head _, by decide⟩, ("A", 5), .head _, ("B", 1), .tail _ (.head _), by decide⟩
  obtain ⟨position, -, -, run⟩ := turns_of_run digest "k" members two
  obtain ⟨picks, answers, -, counts, -, -⟩ := run before during alike fits
  have counts := counts byWeight rfl
  exact ⟨picks, answers, counts 0, counts 1, counts 2⟩

end RoundRobin

end RemoteCall.Balance

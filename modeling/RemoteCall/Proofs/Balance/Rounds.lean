import Mathlib.Data.List.Rotate
import RemoteCall.Balance.RoundRobin
import RemoteCall.Bytes

/-! # The order of weighted round robin

    Members that come by weight come in rounds: a member is in a round if it
    weighs at least as much as the number of the round, and the members of a
    round come in the order of the list (`turns`).  The walk of a selection
    takes the members of a round off a number before it goes on to the next
    round, so that it stops at the turn with this number (`walk_held`), and
    the largest weight leaves enough rounds for every number below the sum of
    the positive weights (`walk_of_byWeight`).

    In the first `k` rounds a member has as many turns as it weighs, but at
    most `k` (`countP_turns`), and these rounds are the first part of a cycle
    (`turns_prefix`). -/

namespace RemoteCall.Balance.RoundRobin

variable {α : Type}

/-- Whether members come by weight: one has a positive weight, and not all weigh the same. -/
def ByWeight (members : List (α × Int32)) : Prop :=
  (∃ member ∈ members, 0 < member.2)
    ∧ ∃ member ∈ members, ∃ other ∈ members, member.2 ≠ other.2

/-- The members in a round. -/
def inRound (members : List (α × Int32)) (round : Nat) : List α :=
  (members.filter fun member => (round : Int) ≤ member.2.toInt).map (·.1)

/-- The turns in some rounds, each with the number of its round; rounds are numbered from one. -/
def turns (members : List (α × Int32)) (rounds : Nat) : List (Nat × α) :=
  (List.range' 1 rounds).flatMap fun round => (inRound members round).map (round, ·)

/-- How many turns a member of some weight has in some rounds. -/
def share (rounds : Nat) (weight : Int32) : Nat :=
  min rounds weight.toInt.toNat

/-- How many rounds a cycle has. -/
def allRounds (members : List (α × Int32)) : Nat :=
  (largest members).toInt.toNat

variable {members : List (α × Int32)}

/-! ## Which members come by weight -/

theorem toInt_pos_iff {weight : Int32} : 0 < weight.toInt ↔ 0 < weight := by
  rw [Int32.lt_iff_toInt_lt]
  rfl

theorem lt_max_iff {x : Int} {a b : Int32} :
    x < (max a b).toInt ↔ x < a.toInt ∨ x < b.toInt := by
  show x < (if a ≤ b then b else a).toInt ↔ _
  split
  · next le =>
      have := Int32.le_iff_toInt_le.mp le
      omega
  · next lt =>
      have := mt Int32.le_iff_toInt_le.mpr lt
      omega

theorem min_lt_iff {x : Int} {a b : Int32} :
    (min a b).toInt < x ↔ a.toInt < x ∨ b.toInt < x := by
  show (if a ≤ b then a else b).toInt < x ↔ _
  split
  · next le =>
      have := Int32.le_iff_toInt_le.mp le
      omega
  · next lt =>
      have := mt Int32.le_iff_toInt_le.mpr lt
      omega

theorem lt_foldl_max_iff {x : Int} {start : Int32} :
    x < (members.foldl (fun most member => max most member.2) start).toInt
      ↔ x < start.toInt ∨ ∃ member ∈ members, x < member.2.toInt := by
  induction members generalizing start with
  | nil => simp
  | cons member rest ih =>
      rw [List.foldl_cons, ih, lt_max_iff, List.exists_mem_cons_iff, or_assoc]

theorem foldl_min_lt_iff {x : Int} {start : Int32} :
    (members.foldl (fun least member => min least member.2) start).toInt < x
      ↔ start.toInt < x ∨ ∃ member ∈ members, member.2.toInt < x := by
  induction members generalizing start with
  | nil => simp
  | cons member rest ih =>
      rw [List.foldl_cons, ih, min_lt_iff, List.exists_mem_cons_iff, or_assoc]

theorem lt_largest_iff {x : Int} :
    x < (largest members).toInt ↔ x < 0 ∨ ∃ member ∈ members, x < member.2.toInt :=
  lt_foldl_max_iff

theorem le_largest {member : α × Int32} (mem : member ∈ members) :
    member.2.toInt ≤ (largest members).toInt := by
  by_contra more
  exact Int.lt_irrefl _ (lt_largest_iff.mpr (.inr ⟨member, mem, Int.not_le.mp more⟩))

theorem smallest_lt_iff {x : Int} (low : x < 2 ^ 31) :
    (smallest members).toInt < x ↔ ∃ member ∈ members, member.2.toInt < x := by
  have most : Int32.maxValue.toInt = 2 ^ 31 - 1 := rfl
  rw [smallest, foldl_min_lt_iff, or_iff_right (by omega)]

theorem isWeighted_iff : isWeighted members = true ↔ ByWeight members := by
  rw [isWeighted, Bool.and_eq_true, decide_eq_true_eq, decide_eq_true_eq,
    Int32.lt_iff_toInt_lt, Int32.lt_iff_toInt_lt, smallest_lt_iff (largest members).toInt_lt]
  show 0 < (largest members).toInt ∧ _ ↔ _
  constructor
  · rintro ⟨positive, light, mem, less⟩
    obtain ⟨heavy, mem', positive⟩ := (lt_largest_iff.mp positive).resolve_left (Int.lt_irrefl 0)
    refine ⟨⟨heavy, mem', toInt_pos_iff.mp positive⟩, ?_⟩
    rcases lt_largest_iff.mp less with negative | ⟨heavier, mem'', less⟩
    · refine ⟨light, mem, heavy, mem', fun same => ?_⟩
      rw [same] at negative
      omega
    · refine ⟨light, mem, heavier, mem'', fun same => ?_⟩
      rw [same] at less
      exact Int.lt_irrefl _ less
  · rintro ⟨⟨heavy, mem, positive⟩, one, mem', other, mem'', differ⟩
    refine ⟨lt_largest_iff.mpr (.inr ⟨heavy, mem, toInt_pos_iff.mpr positive⟩), ?_⟩
    rcases Int.lt_or_gt_of_ne (mt Int32.toInt_inj.mp differ) with less | more
    · exact ⟨one, mem', lt_largest_iff.mpr (.inr ⟨other, mem'', less⟩)⟩
    · exact ⟨other, mem'', lt_largest_iff.mpr (.inr ⟨one, mem', more⟩)⟩

/-! ## The walk -/

/-- The members that have weight left after some rounds, each with what is left. -/
def held (members : List (α × Int32)) (rounds : Nat) : List (α × Nat) :=
  members.filterMap fun member =>
    if (rounds : Int) < member.2.toInt then some (member.1, member.2.toInt.toNat - rounds)
    else none

theorem held_zero : held members 0 = live members := by
  rw [held, live]
  congr 1
  funext member
  have positive : ((0 : Nat) : Int) < member.2.toInt ↔ 0 < member.2 := toInt_pos_iff
  simp only [positive, Nat.sub_zero]

theorem spend_held (rounds : Nat) : spend (held members rounds) = held members (rounds + 1) := by
  rw [spend, held, held, List.filterMap_filterMap]
  congr 1
  funext member
  split
  · next some =>
      rw [Option.bind_some]
      split <;> split
      · rfl
      · omega
      · omega
      · rfl
  · next none =>
      rw [Option.bind_none, if_neg (by omega)]

theorem map_held (rounds : Nat) : (held members rounds).map (·.1) = inRound members (rounds + 1) := by
  rw [held, inRound, List.map_filterMap, ← List.filterMap_eq_map, List.filterMap_filter]
  congr 1
  funext member
  by_cases inside : (rounds : Int) < member.2.toInt
  · rw [if_pos inside, if_pos (decide_eq_true (by omega))]
    rfl
  · rw [if_neg inside, if_neg (by rw [decide_eq_true_eq]; omega)]
    rfl

/-- A walk that has some rounds behind it stops at the turn with its number. -/
theorem walk_held (more rounds offset : Nat) :
    walk more offset (held members rounds)
      = ((List.range' (rounds + 1) more).flatMap (inRound members))[offset]? := by
  induction more generalizing rounds offset with
  | zero => rfl
  | succ more ih =>
      -- those that are left after some rounds are the members of the next round
      have length : (held members rounds).length = (inRound members (rounds + 1)).length := by
        rw [← map_held, List.length_map]
      rw [walk, List.range'_succ, List.flatMap_cons, spend_held, ih, length]
      split
      · next inside => rw [List.getElem?_append_left inside, ← map_held, List.getElem?_map]
      · next behind => rw [List.getElem?_append_right (Nat.not_lt.mp behind)]

theorem map_turns (members : List (α × Int32)) (rounds : Nat) :
    (turns members rounds).map (·.2) = (List.range' 1 rounds).flatMap (inRound members) := by
  rw [turns, List.map_flatMap]
  congr 1
  funext round
  rw [List.map_map]
  exact List.map_id _

/-! ## How many turns there are -/

theorem share_succ (rounds : Nat) (weight : Int32) :
    share (rounds + 1) weight
      = share rounds weight + if ((rounds + 1 : Nat) : Int) ≤ weight.toInt then 1 else 0 := by
  rw [share, share]
  split <;> omega

theorem sum_share_succ (members : List (α × Int32)) (rounds : Nat) :
    (members.map fun member => share (rounds + 1) member.2).sum
      = (members.map fun member => share rounds member.2).sum
        + members.countP fun member => ((rounds + 1 : Nat) : Int) ≤ member.2.toInt := by
  induction members with
  | nil => rfl
  | cons member rest ih =>
      rw [List.map_cons, List.sum_cons, List.map_cons, List.sum_cons, List.countP_cons, ih,
        share_succ]
      simp only [decide_eq_true_eq]
      omega

theorem turns_add (members : List (α × Int32)) (rounds more : Nat) :
    turns members (rounds + more) = turns members rounds
      ++ (List.range' (rounds + 1) more).flatMap fun round =>
        (inRound members round).map (round, ·) := by
  rw [turns, ← List.range'_append, List.flatMap_append, Nat.one_mul, Nat.add_comm 1 rounds]
  rfl

/-- Members have as many turns as they weigh, but at most one in each round. -/
theorem countP_turns (members : List (α × Int32)) (rounds : Nat) (p : α → Bool) :
    (turns members rounds).countP (fun turn => p turn.2)
      = ((members.filter fun member => p member.1).map fun member => share rounds member.2).sum := by
  induction rounds with
  | zero =>
      show 0 = _
      simp [share]
  | succ rounds ih =>
      -- one more round has one more turn of each member that weighs enough for it
      have last : ((inRound members (rounds + 1)).map (rounds + 1, ·)).countP (fun turn => p turn.2)
          = (members.filter fun member => p member.1).countP
            fun member => ((rounds + 1 : Nat) : Int) ≤ member.2.toInt := by
        rw [inRound, List.countP_map, List.countP_map, List.countP_filter, List.countP_filter]
        congr 1
        funext member
        exact Bool.and_comm ..
      rw [turns_add, List.countP_append, ih, sum_share_succ, ← last]
      simp

theorem length_turns (members : List (α × Int32)) (rounds : Nat) :
    (turns members rounds).length = (members.map fun member => share rounds member.2).sum := by
  have counted := countP_turns members rounds fun _ => true
  rw [List.countP_true, List.filter_true] at counted
  exact counted

/-- In all rounds, a member has as many turns as it weighs. -/
theorem share_allRounds {member : α × Int32} (mem : member ∈ members) :
    share (allRounds members) member.2 = member.2.toInt.toNat := by
  have := le_largest mem
  rw [share, allRounds]
  omega

theorem length_turns_allRounds :
    (turns members (allRounds members)).length
      = (members.map fun member => member.2.toInt.toNat).sum := by
  rw [length_turns]
  congr 1
  exact List.map_congr_left fun member mem => share_allRounds mem

theorem sum_live (members : List (α × Int32)) :
    ((live members).map (·.2)).sum = (members.map fun member => member.2.toInt.toNat).sum := by
  induction members with
  | nil => rfl
  | cons member rest ih =>
      rw [live] at ih ⊢
      rw [List.filterMap_cons, List.map_cons, List.sum_cons, ← ih]
      by_cases positive : 0 < member.2
      · rw [if_pos positive]
        rfl
      · have none : member.2.toInt.toNat = 0 := by
          have := mt toInt_pos_iff.mp positive
          omega
        rw [if_neg positive, none, Nat.zero_add]

/-! ## Picks -/

/-- The members in the order of a cycle of picks. -/
def cycle (members : List (α × Int32)) : List α :=
  if isWeighted members then (turns members (allRounds members)).map (·.2)
  else members.map (·.1)

theorem cycle_of_byWeight (byWeight : ByWeight members) :
    cycle members = (turns members (allRounds members)).map (·.2) :=
  if_pos (isWeighted_iff.mpr byWeight)

theorem cycle_of_not_byWeight (plainly : ¬ ByWeight members) : cycle members = members.map (·.1) :=
  if_neg (mt isWeighted_iff.mp plainly)

theorem turns_ne_nil (byWeight : ByWeight members) : turns members (allRounds members) ≠ [] := by
  obtain ⟨⟨member, mem, positive⟩, -⟩ := byWeight
  have positive : 0 < member.2.toInt := toInt_pos_iff.mpr positive
  rw [← List.length_pos_iff, length_turns_allRounds, List.sum_pos_iff_exists_pos_nat]
  exact ⟨_, List.mem_map_of_mem mem, by omega⟩

/-- The walk finds the turn of a count. -/
theorem walk_of_byWeight (byWeight : ByWeight members) (count : Nat) :
    walk (allRounds members) (count % ((live members).map (·.2)).sum) (live members)
      = (cycle members)[count % (cycle members).length]? := by
  have length : ((live members).map (·.2)).sum = (cycle members).length := by
    rw [cycle_of_byWeight byWeight, List.length_map, length_turns_allRounds, sum_live]
  rw [length, cycle_of_byWeight byWeight, map_turns, ← held_zero, walk_held]

theorem cycle_ne_nil (some : members ≠ []) : cycle members ≠ [] := by
  by_cases byWeight : ByWeight members
  · rw [cycle_of_byWeight byWeight]
    exact mt List.map_eq_nil_iff.mp (turns_ne_nil byWeight)
  · rw [cycle_of_not_byWeight byWeight]
    exact mt List.map_eq_nil_iff.mp some

/-- Members come in the order of the cycle, from its first one again after its last one. -/
theorem pick_eq (members : List (α × Int32)) (count : Nat) :
    pick members count = (cycle members)[count % (cycle members).length]? := by
  by_cases byWeight : ByWeight members
  · have some : 0 < (cycle members).length := by
      rw [cycle_of_byWeight byWeight, List.length_map]
      exact List.length_pos_iff.mpr (turns_ne_nil byWeight)
    have walked := walk_of_byWeight byWeight count
    rw [allRounds] at walked
    rw [pick, if_pos (isWeighted_iff.mpr byWeight)]
    dsimp only
    rw [walked, List.getElem?_eq_getElem (Nat.mod_lt count some)]
    rfl
  · rw [pick, if_neg (mt isWeighted_iff.mp byWeight), plain, cycle_of_not_byWeight byWeight,
      List.getElem?_map, List.length_map]

/-- How many picks there are in a cycle. -/
def period (members : List (α × Int32)) : Nat :=
  if isWeighted members then ((live members).map (·.2)).sum else members.length

theorem length_cycle (members : List (α × Int32)) : (cycle members).length = period members := by
  rw [period]
  by_cases byWeight : ByWeight members
  · rw [if_pos (isWeighted_iff.mpr byWeight), cycle_of_byWeight byWeight, List.length_map,
      length_turns_allRounds, sum_live]
  · rw [if_neg (mt isWeighted_iff.mp byWeight), cycle_of_not_byWeight byWeight, List.length_map]

/-! ## Cycles -/

/-- Rounds behind the largest weight are empty. -/
theorem inRound_eq_nil {round : Nat} (behind : allRounds members < round) :
    inRound members round = [] := by
  rw [inRound, List.map_eq_nil_iff, List.filter_eq_nil_iff]
  intro member mem inside
  have := le_largest mem
  have := of_decide_eq_true inside
  rw [allRounds] at behind
  omega

/-- Any number of rounds is the first part of a cycle. -/
theorem turns_prefix (members : List (α × Int32)) (rounds : Nat) :
    turns members rounds <+: turns members (allRounds members) := by
  rcases Nat.le_total rounds (allRounds members) with within | behind
  · obtain ⟨more, all⟩ := Nat.exists_eq_add_of_le within
    rw [all, turns_add]
    exact List.prefix_append ..
  · obtain ⟨more, rfl⟩ := Nat.exists_eq_add_of_le behind
    have empty : ((List.range' (allRounds members + 1) more).flatMap fun round =>
        (inRound members round).map (round, ·)) = [] := by
      rw [List.flatMap_eq_nil_iff]
      intro round mem
      rw [inRound_eq_nil (by have := List.mem_range'_1.mp mem; omega)]
      rfl
    rw [turns_add, empty, List.append_nil]

/-- What comes from some count on is a cycle that starts there, as far as it goes. -/
theorem map_cycle {β : Type} (order : List β) (start : Nat) {n : Nat} (le : n ≤ order.length) :
    (List.range' start n).map (fun count => order[count % order.length]?)
      = ((order.rotate start).take n).map some := by
  refine List.ext_getElem? fun i => ?_
  rw [List.getElem?_map, List.getElem?_map, List.getElem?_take]
  by_cases inside : i < n
  · have some : 0 < order.length := by omega
    rw [List.getElem?_range' inside, if_pos inside, List.getElem?_rotate (by omega), Option.map_some,
      Nat.one_mul, Nat.add_comm i start, List.getElem?_eq_getElem (Nat.mod_lt _ some), Option.map_some]
  · rw [List.getElem?_eq_none (by rw [List.length_range']; omega), if_neg inside]
    rfl

/-- The members that are picked in a cycle, wherever it starts. -/
theorem exists_pick_iff (members : List (α × Int32)) (start : Nat) {item : α} :
    (∃ count, start ≤ count ∧ count < start + period members ∧ pick members count = some item)
      ↔ item ∈ cycle members := by
  have picks : (List.range' start (period members)).map (pick members)
      = ((cycle members).rotate start).map some := by
    rw [← length_cycle, ← List.take_of_length_le (l := (cycle members).rotate start)
      (Nat.le_of_eq (List.length_rotate ..)), ← map_cycle _ _ (Nat.le_refl _)]
    exact List.map_congr_left fun count _ => pick_eq members count
  have mem : some item ∈ (List.range' start (period members)).map (pick members)
      ↔ item ∈ cycle members := by
    simp only [picks, List.mem_map, Option.some.injEq, exists_eq_right, List.mem_rotate]
  rw [← mem, List.mem_map]
  exact exists_congr fun count => by rw [List.mem_range'_1, and_assoc]

/-- By weight, the members of positive weight are picked. -/
theorem mem_cycle_of_byWeight (byWeight : ByWeight members) {item : α} :
    item ∈ cycle members ↔ ∃ weight, (item, weight) ∈ members ∧ 0 < weight := by
  rw [cycle_of_byWeight byWeight, map_turns, List.mem_flatMap]
  constructor
  · rintro ⟨round, mem, inside⟩
    obtain ⟨⟨_, weight⟩, mem', rfl⟩ := List.mem_map.mp inside
    obtain ⟨known, inside⟩ := List.mem_filter.mp mem'
    have := (List.mem_range'_1.mp mem).1
    have := of_decide_eq_true inside
    dsimp only at this
    exact ⟨weight, known, toInt_pos_iff.mp (by omega)⟩
  · rintro ⟨weight, known, positive⟩
    have positive := toInt_pos_iff.mpr positive
    have most := le_largest known
    dsimp only at most
    refine ⟨1, List.mem_range'_1.mpr ⟨Nat.le_refl 1, ?_⟩,
      List.mem_map.mpr ⟨(item, weight), List.mem_filter.mpr ⟨known, ?_⟩, rfl⟩⟩
    · rw [allRounds]
      omega
    · exact decide_eq_true (by dsimp only; omega)

end RemoteCall.Balance.RoundRobin

import RemoteCall.Bytes
import RemoteCall.Proofs.Balance.Flawless
import RemoteCall.Proofs.Balance.Positions

/-! # What a weighted draw gives

    A number below the sum of the weights is passed by the running sums of the
    weights: the walk of a selection stops at the first member with which the
    sum is larger (`walk_eq_some_iff`).  A sum gets larger only by a positive
    weight, and the whole sum is larger than the number, so that every draw
    leads to a member of positive weight, also where other weights are
    negative.

    Where no weight is negative, the numbers are lots, and each member holds
    as many of them as it weighs (`walk_eq_lots`).  So weighted draws are
    exactly proportional (`draws_of_weights`).

    The candidates are found without any draw, from the running sums, and
    they are what the draws can lead to (`mem_candidates_iff`). -/

namespace RemoteCall.Balance

namespace Random

variable {α : Type} {members : List (α × Int32)}

/-- Whether members are drawn by weight: the weights have a positive sum, and not all are the same. -/
def ByWeight (members : List (α × Int32)) : Prop :=
  0 < total members ∧ ∃ member ∈ members, ∃ other ∈ members, member.2 ≠ other.2

theorem sameWeight_iff :
    sameWeight members = true ↔ ∀ member ∈ members, ∀ other ∈ members, member.2 = other.2 := by
  induction members with
  | nil => simp [sameWeight]
  | cons a rest ih =>
      cases rest with
      | nil => simp [sameWeight]
      | cons b rest =>
          rw [sameWeight, Bool.and_eq_true, decide_eq_true_eq, ih]
          constructor
          · rintro ⟨first, others⟩ member mem other mem'
            have each (c : α × Int32) (mem : c ∈ a :: b :: rest) : c.2 = b.2 := by
              rcases List.mem_cons.mp mem with rfl | mem
              · exact first
              · exact others c mem b (.head _)
            rw [each member mem, each other mem']
          · intro same
            exact ⟨same a (.head _) b (.tail _ (.head _)),
              fun member mem other mem' => same member (.tail _ mem) other (.tail _ mem')⟩

theorem byWeight_iff : ByWeight members ↔ 0 < total members ∧ sameWeight members = false := by
  rw [ByWeight, ← Bool.not_eq_true, sameWeight_iff]
  push Not
  rfl

/-! ## The walk -/

theorem total_cons (member : α × Int32) (rest : List (α × Int32)) :
    total (member :: rest) = member.2.toInt + total rest := by
  rw [total, List.map_cons, List.sum_cons, total]

/-- Whether the running sums of some weights first pass a number with one more weight. -/
def Passes (offset : Int) (front : List (α × Int32)) (weight : Int32) : Prop :=
  (∀ first, first <+: front → total first ≤ offset) ∧ offset < total front + weight.toInt

theorem Passes.pos {offset : Int} {front : List (α × Int32)} {weight : Int32}
    (passes : Passes offset front weight) : 0 < weight := by
  have := passes.1 front (List.prefix_refl front)
  have := passes.2
  rw [Int32.lt_iff_toInt_lt]
  show 0 < weight.toInt
  omega

theorem Passes.nonneg {offset : Int} {front : List (α × Int32)} {weight : Int32}
    (passes : Passes offset front weight) : 0 ≤ offset :=
  passes.1 [] List.nil_prefix

theorem passes_nil_iff {offset : Int} {weight : Int32} (low : 0 ≤ offset) :
    Passes (α := α) offset [] weight ↔ offset < weight.toInt := by
  have none : total ([] : List (α × Int32)) = 0 := rfl
  rw [Passes, none, Int.zero_add]
  refine and_iff_right fun first begins => ?_
  rw [List.prefix_nil.mp begins]
  exact low

theorem passes_cons_iff {offset : Int} {member : α × Int32} {front : List (α × Int32)}
    {weight : Int32} (low : 0 ≤ offset) :
    Passes offset (member :: front) weight ↔ Passes (offset - member.2.toInt) front weight := by
  rw [Passes, Passes, total_cons]
  constructor
  · rintro ⟨below, above⟩
    refine ⟨fun first begins => ?_, by omega⟩
    have := below (member :: first) (List.cons_prefix_cons.mpr ⟨rfl, begins⟩)
    rw [total_cons] at this
    omega
  · rintro ⟨below, above⟩
    refine ⟨fun first begins => ?_, by omega⟩
    rcases List.prefix_cons_iff.mp begins with rfl | ⟨first, rfl, within⟩
    · exact low
    · have := below first within
      rw [total_cons]
      omega

/-- A walk stops where the running sums pass its number. -/
theorem walk_eq_some_iff {offset : Int} {item : α} (low : 0 ≤ offset) :
    walk offset members = some item
      ↔ ∃ front weight back, members = front ++ (item, weight) :: back
        ∧ Passes offset front weight := by
  induction members generalizing offset with
  | nil => simp [walk]
  | cons member rest ih =>
      rw [walk]
      constructor
      · intro found
        split at found
        · next passed =>
            refine ⟨[], member.2, rest, ?_, (passes_nil_iff low).mpr (by omega)⟩
            rw [← Option.some.inj found]
            rfl
        · next left =>
            obtain ⟨front, weight, back, rfl, passes⟩ := (ih (Int.not_lt.mp left)).mp found
            exact ⟨member :: front, weight, back, rfl, (passes_cons_iff low).mpr passes⟩
      · rintro ⟨front, weight, back, parts, passes⟩
        cases front with
        | nil =>
            obtain ⟨rfl, rfl⟩ := List.cons.inj parts
            have above := (passes_nil_iff low).mp passes
            exact if_pos (Int.sub_neg_of_lt above)
        | cons first front =>
            obtain ⟨rfl, rfl⟩ := List.cons.inj parts
            have passes := (passes_cons_iff low).mp passes
            rw [if_neg (Int.not_lt.mpr passes.nonneg)]
            exact (ih passes.nonneg).mpr ⟨front, weight, back, rfl, passes⟩

/-- A number below the sum of the weights is passed. -/
theorem exists_walk {offset : Int} (low : 0 ≤ offset) (less : offset < total members) :
    ∃ item, walk offset members = some item := by
  induction members generalizing offset with
  | nil => exact absurd less (Int.not_lt.mpr low)
  | cons member rest ih =>
      rw [walk]
      split
      · exact ⟨member.1, rfl⟩
      · next left =>
          rw [total_cons] at less
          exact ih (Int.not_lt.mp left) (by omega)

/-! ## Draws -/

/-- By weight, each number below the sum of the weights gives the member at which it is passed. -/
theorem choose_of_byWeight (byWeight : ByWeight members) :
    ∃ positive : 0 < (total members).toNat, choose members
      = .draw (total members).toNat positive fun offset => .done (walk offset.val members) := by
  obtain ⟨positive, differ⟩ := byWeight_iff.mp byWeight
  have positive : 0 < (total members).toNat := by omega
  refine ⟨positive, ?_⟩
  rw [choose, if_neg (by simp [differ]), dif_pos positive]
  congr 1
  funext offset
  have less : (offset.val : Int) < total members := by
    have := offset.isLt
    omega
  obtain ⟨item, found⟩ := exists_walk (Int.natCast_nonneg offset.val) less
  rw [found]

/-- Other members are equally likely. -/
theorem choose_of_not_byWeight {members : List (String × Int32)} (plainly : ¬ ByWeight members) :
    choose members = Choice.member (members.map (·.1)) :=
  Checked.resolve_choose_of_not (mt byWeight_iff.mpr plainly)

/-- By weight, those members can be selected at which some number below the sum is passed. -/
theorem possible_of_byWeight (byWeight : ByWeight members) {item : α} :
    (choose members).Possible (some item)
      ↔ ∃ offset, 0 ≤ offset ∧ offset < total members ∧ walk offset members = some item := by
  obtain ⟨positive, drawn⟩ := choose_of_byWeight byWeight
  rw [drawn]
  simp only [Choice.possible_draw_iff, Choice.possible_done_iff]
  constructor
  · rintro ⟨offset, found⟩
    exact ⟨offset.val, Int.natCast_nonneg _, by have := offset.isLt; omega, found.symm⟩
  · rintro ⟨offset, low, less, found⟩
    have same : ((offset.toNat : Nat) : Int) = offset := Int.toNat_of_nonneg low
    refine ⟨⟨offset.toNat, by omega⟩, ?_⟩
    dsimp only
    rw [same, found]

/-! ## Candidates -/

/-- The running sums reach the members at which some number is passed. -/
theorem mem_reached_iff {low high before : Int} {item : α} :
    item ∈ reached low high before members
      ↔ ∃ offset, low ≤ offset ∧ offset < high ∧ walk (offset - before) members = some item := by
  induction members generalizing low before with
  | nil => simp [reached, walk]
  | cons member rest ih =>
      let sum := before + member.2.toInt
      -- a number is passed at the first member if it is below the sum, and else later
      have step (offset : Int) : walk (offset - before) (member :: rest) = some item
          ↔ offset < sum ∧ member.1 = item
            ∨ sum ≤ offset ∧ walk (offset - sum) rest = some item := by
        have left : offset - before - member.2.toInt = offset - sum := Int.sub_sub ..
        rw [walk, left]
        split
        · next passed =>
            have : offset < sum := by omega
            simp [this, Int.not_le.mpr this]
        · next kept =>
            have : sum ≤ offset := Int.sub_nonneg.mp (Int.not_lt.mp kept)
            simp [this, Int.not_lt.mpr this]
      simp only [step]
      rw [reached]
      split
      · next within =>
          rw [Bool.and_eq_true, decide_eq_true_eq, decide_eq_true_eq] at within
          rw [List.mem_cons, ih]
          constructor
          · rintro (rfl | ⟨offset, behind, less, found⟩)
            · exact ⟨low, Int.le_refl low, within.2, .inl ⟨within.1, rfl⟩⟩
            · exact ⟨offset, by omega, less, .inr ⟨behind, found⟩⟩
          · rintro ⟨offset, least, less, ⟨-, same⟩ | ⟨behind, found⟩⟩
            · exact .inl same.symm
            · exact .inr ⟨offset, behind, less, found⟩
      · next outside =>
          rw [Bool.and_eq_true, decide_eq_true_eq, decide_eq_true_eq] at outside
          rw [ih]
          constructor
          · rintro ⟨offset, least, less, found⟩
            exact ⟨offset, least, less, .inr ⟨by omega, found⟩⟩
          · rintro ⟨offset, least, less, ⟨passed, -⟩ | ⟨-, found⟩⟩
            · omega
            · exact ⟨offset, least, less, found⟩

/-- The candidates are the members that can be selected. -/
theorem mem_candidates_iff {members : List (String × Int32)} {item : String} :
    item ∈ candidates members ↔ (choose members).Possible (some item) := by
  rw [candidates]
  by_cases byWeight : ByWeight members
  · obtain ⟨positive, differ⟩ := byWeight_iff.mp byWeight
    rw [if_neg (by simp [differ, positive]), possible_of_byWeight byWeight, mem_reached_iff]
    simp only [Int.sub_zero]
  · have plain : sameWeight members = true ∨ total members ≤ 0 := by
      by_contra neither
      push Not at neither
      exact byWeight (byWeight_iff.mpr ⟨neither.2, Bool.eq_false_iff.mpr neither.1⟩)
    rw [if_pos (by simpa using plain), choose_of_not_byWeight byWeight, Choice.possible_member_iff]

/-! ## Lots -/

/-- Each member as often as it weighs. -/
def lots (members : List (α × Int32)) : List α :=
  members.flatMap fun member => List.replicate member.2.toInt.toNat member.1

/-- Where no weight is negative, a number gives the lot with this number. -/
theorem walk_eq_lots (light : ∀ member ∈ members, 0 ≤ member.2.toInt) (offset : Nat) :
    walk offset members = (lots members)[offset]? := by
  induction members generalizing offset with
  | nil => rfl
  | cons member rest ih =>
      have low := light member (.head _)
      have ih := ih fun other mem => light other (.tail _ mem)
      have first : (List.replicate member.2.toInt.toNat member.1).length = member.2.toInt.toNat :=
        List.length_replicate
      rw [lots, List.flatMap_cons, ← lots, walk]
      by_cases passed : offset < member.2.toInt.toNat
      · rw [if_pos (by omega), List.getElem?_append_left (by omega),
          List.getElem?_replicate_of_lt passed]
      · have left : (offset : Int) - member.2.toInt = (offset - member.2.toInt.toNat : Nat) := by
          omega
        rw [if_neg (by omega), List.getElem?_append_right (by omega), first, left, ih]

theorem length_lots (light : ∀ member ∈ members, 0 ≤ member.2.toInt) :
    ((lots members).length : Int) = total members := by
  induction members with
  | nil => rfl
  | cons member rest ih =>
      have low := light member (.head _)
      have ih := ih fun other mem => light other (.tail _ mem)
      rw [lots, List.flatMap_cons, List.length_append, List.length_replicate, ← lots, total_cons]
      omega

theorem count_lots [DecidableEq α] (members : List (α × Int32)) (item : α) :
    (lots members).count item
      = ((members.filter (·.1 = item)).map fun member => member.2.toInt.toNat).sum := by
  induction members with
  | nil => rfl
  | cons member rest ih =>
      rw [lots, List.flatMap_cons, List.count_append, List.count_replicate, ← lots, ih,
        List.filter_cons]
      by_cases own : member.1 = item
      · simp [own]
      · simp [own]

/-- A position holds as many lots as it weighs. -/
theorem count_lots_positions {members : List Member} (i : Fin members.length) :
    (lots (positions members)).count i = (members.get i).weight.toInt.toNat := by
  rw [count_lots, filter_positions, List.map_singleton, List.sum_singleton]

/-! ## Positions -/

theorem total_positions (members : List Member) :
    total (positions members) = total (weighted members) := by
  rw [total, map_weight_positions members fun weight => weight.toInt, total, weighted, List.map_map]
  rfl

/-- A number below the sum of the weights is passed at a position of positive weight. -/
theorem exists_position {members : List Member} {offset : Int} (low : 0 ≤ offset)
    (less : offset < total (weighted members)) :
    ∃ i, walk offset (positions members) = some i ∧ 0 < (members.get i).weight := by
  rw [← total_positions] at less
  obtain ⟨i, found⟩ := exists_walk low less
  obtain ⟨front, weight, back, parts, passes⟩ := (walk_eq_some_iff low).mp found
  have mem : (i, weight) ∈ positions members := parts ▸ List.mem_append_cons_self
  exact ⟨i, found, mem_positions_iff.mp mem ▸ passes.pos⟩

/-- Where no weight is negative, the positions of the numbers are the lots. -/
theorem map_position {members : List Member} (light : ∀ member ∈ members, 0 ≤ member.weight) {n : Nat}
    (all : (n : Int) = total (weighted members)) {position : Fin n → Fin members.length}
    (found : ∀ offset, walk offset.val (positions members) = some (position offset)) :
    (List.finRange n).map position = lots (positions members) := by
  have light : ∀ place ∈ positions members, 0 ≤ place.2.toInt := by
    rintro ⟨i, weight⟩ mem
    rw [mem_positions_iff.mp mem]
    exact Int32.le_iff_toInt_le.mp (light (members.get i) (List.get_mem members i))
  have length := length_lots light
  rw [total_positions, ← all] at length
  refine List.ext_getElem? fun offset => ?_
  by_cases inside : offset < n
  · rw [← walk_eq_lots light, found ⟨offset, inside⟩, List.getElem?_map,
      List.getElem?_eq_getElem (by rw [List.length_finRange]; exact inside), List.getElem_finRange]
    rfl
  · rw [List.getElem?_eq_none (by rw [List.length_map, List.length_finRange]; omega),
      List.getElem?_eq_none (by omega)]

/-- Members that have different weights of a positive sum are drawn by weight: each number below the
sum leads to a member of positive weight, and if no weight is negative, as many numbers lead to a
position as it weighs.  Else all positions are equally likely. -/
theorem draws_of_weights (digest : Digest) (balancer : Balancer) (key : String) (generation : Nat)
    {members : List Member} (two : 2 ≤ members.length) :
    let list := ⟨generation, members.map (·.address)⟩
    let choice := (balancer.choose digest .random key list members).1
    let sum := total (weighted members)
    (ByWeight (weighted members) →
      ∃ (positive : 0 < sum.toNat) (position : Fin sum.toNat → Fin members.length),
        choice = .draw sum.toNat positive (fun offset => .done (some (members.get (position offset)).address))
        ∧ (∀ offset, walk offset.val (weighted members) = some (members.get (position offset)).address
          ∧ 0 < (members.get (position offset)).weight)
        ∧ ((∀ member ∈ members, 0 ≤ member.weight) → ∀ i,
          (List.finRange sum.toNat).countP (position · = i) = (members.get i).weight.toInt.toNat))
      ∧ (¬ ByWeight (weighted members) → ∃ positive, choice
        = .draw members.length positive fun i => .done (some (members.get i).address)) := by
  intro list choice sum
  have chosen : choice = choose (weighted members) :=
    congrArg Prod.fst (Balancer.choose_of_two two digest balancer .random key generation)
  constructor
  · intro byWeight
    have each (offset : Fin sum.toNat) :
        ∃ i, walk offset.val (positions members) = some i ∧ 0 < (members.get i).weight :=
      exists_position (Int.natCast_nonneg _) (by have := offset.isLt; omega)
    choose position found heavy using each
    have walked (offset : Fin sum.toNat) :
        walk offset.val (weighted members) = some (members.get (position offset)).address := by
      rw [walk_positions, found]
      rfl
    obtain ⟨positive, drawn⟩ := choose_of_byWeight byWeight
    refine ⟨positive, position, ?_, fun offset => ⟨walked offset, heavy offset⟩, ?_⟩
    · rw [chosen, drawn]
      congr 1
      funext offset
      rw [walked]
    · intro light i
      have all : (sum.toNat : Int) = sum := Int.toNat_of_nonneg (Int.le_of_lt byWeight.1)
      rw [← count_lots_positions, ← map_position light all found, List.count_eq_countP,
        List.countP_map]
      rfl
  · intro plainly
    have positive : 0 < members.length := Nat.lt_of_lt_of_le Nat.two_pos two
    refine ⟨positive, ?_⟩
    rw [chosen, choose_of_not_byWeight plainly, weighted, List.map_map]
    exact Choice.member_map _ positive

/-- Of ten numbers among weights nine, zero and one, nine lead to the first address, none to the second
and one to the last. -/
theorem draws_of_weights_nineToOne :
    let members : List Member := [⟨"A", 9, 0⟩, ⟨"B", 0, 0⟩, ⟨"C", 1, 0⟩]
    2 ≤ members.length ∧ ByWeight (weighted members) ∧ (∀ member ∈ members, 0 ≤ member.weight)
      ∧ ∀ digest (balancer : Balancer),
        ∃ (positive : 0 < 10) (position : Fin 10 → Fin 3),
          (balancer.choose digest .random "k" ⟨1, ["A", "B", "C"]⟩ members).1
            = .draw 10 positive (fun offset => .done (some (members.get (position offset)).address))
          ∧ (List.finRange 10).countP (position · = 0) = 9
          ∧ (List.finRange 10).countP (position · = 1) = 0
          ∧ (List.finRange 10).countP (position · = 2) = 1 := by
  intro members
  have two : 2 ≤ members.length := by decide
  have byWeight : ByWeight (weighted members) :=
    ⟨by decide, ("A", 9), .head _, ("B", 0), .tail _ (.head _), by decide⟩
  have light : ∀ member ∈ members, 0 ≤ member.weight := by decide
  refine ⟨two, byWeight, light, fun digest balancer => ?_⟩
  obtain ⟨positive, position, drawn, -, counts⟩ :=
    (draws_of_weights digest balancer "k" 1 two).1 byWeight
  exact ⟨positive, position, drawn, counts light 0, counts light 1, counts light 2⟩

end Random

/-- The candidates of a balancer are the addresses that can be selected. -/
theorem Balancer.mem_candidates_iff {digest : Digest} {balancer : Balancer} {strategy : Strategy}
    {key : String} {list : AddressList} {members : List Member} {address : String} :
    address ∈ balancer.candidates digest strategy key list members
      ↔ (balancer.choose digest strategy key list members).1.Possible (some address) := by
  have single (result : Option String) :
      address ∈ result.toList ↔ (Choice.done result).Possible (some address) := by
    rw [Option.mem_toList, Choice.possible_done_iff, eq_comm]
  obtain ⟨generation, addresses⟩ := list
  match addresses with
  | [] => exact single none
  | [only] => exact single (some only)
  | _ :: _ :: _ =>
      cases strategy with
      | random => exact Random.mem_candidates_iff
      | roundRobin => exact single _
      | consistentHash => exact single _
      | leastActive => exact Choice.possible_member_iff.symm

end RemoteCall.Balance

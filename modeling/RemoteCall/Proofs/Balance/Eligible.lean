import RemoteCall.Proofs.Balance.Draws
import RemoteCall.Proofs.Balance.Rounds

/-! # Which addresses the weighted strategies can select

    Weighted round robin leaves out the addresses that have no positive
    weight.  A weighted draw takes negative weights off the running sums and
    off the whole sum: it reaches an address only where the running sum gets
    larger than it was before, and below the whole sum (`Rises`), and if the
    whole sum is not positive it takes all addresses.

    So the two agree where no weight is negative, and else exactly under the
    conditions of `eligible_of_weights`.  A negative weight can keep an address
    of positive weight from ever being drawn, and it can make an address be
    drawn that has no positive weight (`misses_positive_weight`). -/

namespace RemoteCall.Balance

/-- Some addresses, each with its weight. -/
def weigh (weight : String → Int32) (addresses : List String) : List (String × Int32) :=
  addresses.map fun address => (address, weight address)

namespace Random

variable {α : Type} {members : List (α × Int32)}

/-- Whether an item stands where the running sum of the weights gets larger than all before, and these
are below the whole sum. -/
def Rises (members : List (α × Int32)) (item : α) : Prop :=
  ∃ front weight back, members = front ++ (item, weight) :: back
    ∧ ∀ first, first <+: front → total first < total front + weight.toInt
      ∧ total first < total members

/-- One of the running sums is the largest. -/
theorem exists_peak (members : List (α × Int32)) :
    ∃ peak, peak <+: members ∧ ∀ first, first <+: members → total first ≤ total peak := by
  induction members with
  | nil => exact ⟨[], List.prefix_refl [], fun first begins => by rw [List.prefix_nil.mp begins]⟩
  | cons member rest ih =>
      -- the largest sum of the rest carries over with the first weight, unless it is below zero then
      obtain ⟨peak, begins, most⟩ := ih
      have none : total ([] : List (α × Int32)) = 0 := rfl
      by_cases positive : 0 ≤ total (member :: peak)
      · refine ⟨member :: peak, List.cons_prefix_cons.mpr ⟨rfl, begins⟩, fun first begins => ?_⟩
        rcases List.prefix_cons_iff.mp begins with rfl | ⟨first, rfl, within⟩
        · exact positive
        · have := most first within
          rw [total_cons, total_cons]
          omega
      · refine ⟨[], List.nil_prefix, fun first begins => ?_⟩
        rcases List.prefix_cons_iff.mp begins with rfl | ⟨first, rfl, within⟩
        · exact Int.le_refl _
        · have := most first within
          rw [total_cons] at positive ⊢
          omega

/-- A draw by weight reaches an item where the running sums rise. -/
theorem possible_iff_rises (byWeight : ByWeight members) {item : α} :
    (choose members).Possible (some item) ↔ Rises members item := by
  rw [possible_of_byWeight byWeight]
  constructor
  · rintro ⟨offset, low, less, found⟩
    obtain ⟨front, weight, back, parts, below, above⟩ := (walk_eq_some_iff low).mp found
    refine ⟨front, weight, back, parts, fun first begins => ?_⟩
    have := below first begins
    omega
  · rintro ⟨front, weight, back, parts, rises⟩
    -- the largest sum before is the least number that is passed here
    obtain ⟨peak, begins, most⟩ := exists_peak front
    have low := most [] List.nil_prefix
    obtain ⟨above, less⟩ := rises peak begins
    refine ⟨total peak, low, less, (walk_eq_some_iff low).mpr ?_⟩
    exact ⟨front, weight, back, parts, most, above⟩

theorem Rises.exists_pos {item : α} (rises : Rises members item) :
    ∃ weight, (item, weight) ∈ members ∧ 0 < weight := by
  obtain ⟨front, weight, back, rfl, rises⟩ := rises
  have := (rises front (List.prefix_refl front)).1
  refine ⟨weight, List.mem_append_cons_self, ?_⟩
  rw [Int32.lt_iff_toInt_lt]
  show 0 < weight.toInt
  omega

/-! ## Weights that are not negative -/

theorem total_append (front back : List (α × Int32)) :
    total (front ++ back) = total front + total back := by
  rw [total, List.map_append, List.sum_append, total, total]

theorem total_nonneg (light : ∀ member ∈ members, 0 ≤ member.2.toInt) : 0 ≤ total members := by
  rw [← length_lots light]
  exact Int.natCast_nonneg _

/-- Where no weight is negative, the running sums rise at each positive weight. -/
theorem rises_of_pos (light : ∀ member ∈ members, 0 ≤ member.2.toInt) {item : α} {weight : Int32}
    (mem : (item, weight) ∈ members) (positive : 0 < weight.toInt) : Rises members item := by
  obtain ⟨front, back, rfl⟩ := List.append_of_mem mem
  refine ⟨front, weight, back, rfl, ?_⟩
  rintro first ⟨between, rfl⟩
  have behind : 0 ≤ total back := total_nonneg fun member mem =>
    light member (List.mem_append_right _ (.tail _ mem))
  have within : 0 ≤ total between := total_nonneg fun member mem =>
    light member (List.mem_append_left _ (List.mem_append_right _ mem))
  rw [total_append, total_append, total_append, total_cons]
  dsimp only
  omega

theorem total_nonpos (none : ∀ member ∈ members, member.2.toInt ≤ 0) : total members ≤ 0 := by
  induction members with
  | nil => exact Int.le_refl 0
  | cons member rest ih =>
      have first := none member (.head _)
      have later := ih fun other mem => none other (.tail _ mem)
      rw [total_cons]
      omega

/-- A sum of weights is positive only if one of them is. -/
theorem exists_pos (positive : 0 < total members) : ∃ member ∈ members, 0 < member.2.toInt := by
  by_contra none
  push Not at none
  exact Int.not_lt.mpr (total_nonpos none) positive

/-- Weights with a positive one among them have a positive sum unless one is negative. -/
theorem exists_neg {member : α × Int32} (mem : member ∈ members) (positive : 0 < member.2.toInt)
    (none : total members ≤ 0) : ∃ other ∈ members, other.2.toInt < 0 := by
  by_contra light
  push Not at light
  obtain ⟨front, weight, back, parts, rises⟩ := rises_of_pos light mem positive
  have below := rises [] List.nil_prefix
  have empty : total ([] : List (α × Int32)) = 0 := rfl
  omega

/-- Members that are drawn by weight come by weight. -/
theorem ByWeight.comes (byWeight : ByWeight members) : RoundRobin.ByWeight members := by
  obtain ⟨positive, differ⟩ := byWeight
  obtain ⟨member, mem, heavy⟩ := exists_pos positive
  exact ⟨⟨member, mem, RoundRobin.toInt_pos_iff.mp heavy⟩, differ⟩

end Random

/-! ## Agreement -/

section

variable {weight : String → Int32} {addresses : List String}

theorem mem_weigh_iff {address : String} {own : Int32} :
    (address, own) ∈ weigh weight addresses ↔ address ∈ addresses ∧ own = weight address := by
  rw [weigh, List.mem_map]
  constructor
  · rintro ⟨other, known, same⟩
    obtain ⟨rfl, rfl⟩ := Prod.mk.inj same
    exact ⟨known, rfl⟩
  · rintro ⟨known, rfl⟩
    exact ⟨address, known, rfl⟩

theorem map_fst_weigh : (weigh weight addresses).map (·.1) = addresses := by
  rw [weigh, List.map_map]
  exact List.map_id _

/-- In a cycle of weighted round robin, all addresses are selected that have a positive weight, or all
addresses if they do not come by weight. -/
theorem picked_iff (start : Nat) {address : String} :
    (∃ count, start ≤ count
        ∧ count < start + RoundRobin.period (weigh weight addresses)
        ∧ RoundRobin.pick (weigh weight addresses) count = some address)
      ↔ address ∈ addresses
        ∧ (RoundRobin.ByWeight (weigh weight addresses) → 0 < weight address) := by
  rw [RoundRobin.exists_pick_iff]
  by_cases byWeight : RoundRobin.ByWeight (weigh weight addresses)
  · rw [RoundRobin.mem_cycle_of_byWeight byWeight, imp_iff_right byWeight]
    constructor
    · rintro ⟨own, mem, positive⟩
      obtain ⟨known, rfl⟩ := mem_weigh_iff.mp mem
      exact ⟨known, positive⟩
    · rintro ⟨known, positive⟩
      exact ⟨weight address, mem_weigh_iff.mpr ⟨known, rfl⟩, positive⟩
  · rw [RoundRobin.cycle_of_not_byWeight byWeight, map_fst_weigh]
    exact (and_iff_left fun byWeight' => absurd byWeight' byWeight).symm

theorem Random.Rises.known {address : String} (rises : Rises (weigh weight addresses) address) :
    address ∈ addresses ∧ 0 < weight address := by
  obtain ⟨own, mem, positive⟩ := rises.exists_pos
  obtain ⟨known, rfl⟩ := mem_weigh_iff.mp mem
  exact ⟨known, positive⟩

/-- By weighted draws, all addresses are selected at which the running sums rise, or all addresses if
they are not drawn by weight. -/
theorem drawn_iff {address : String} :
    (Random.choose (weigh weight addresses)).Possible (some address)
      ↔ address ∈ addresses
        ∧ (Random.ByWeight (weigh weight addresses)
          → Random.Rises (weigh weight addresses) address) := by
  by_cases byWeight : Random.ByWeight (weigh weight addresses)
  · rw [Random.possible_iff_rises byWeight, imp_iff_right byWeight]
    exact ⟨fun rises => ⟨rises.known.1, rises⟩, And.right⟩
  · rw [Random.choose_of_not_byWeight byWeight, map_fst_weigh, Choice.possible_member_iff]
    exact (and_iff_left fun byWeight' => absurd byWeight' byWeight).symm

/-- If one weight is positive and the whole sum is not, a weight is negative. -/
theorem exists_negative (byWeight : RoundRobin.ByWeight (weigh weight addresses))
    (none : Random.total (weigh weight addresses) ≤ 0) :
    ∃ address ∈ addresses, weight address < 0 := by
  obtain ⟨⟨member, mem, positive⟩, -⟩ := byWeight
  obtain ⟨⟨address, own⟩, mem, negative⟩ :=
    Random.exists_neg mem (RoundRobin.toInt_pos_iff.mpr positive) none
  obtain ⟨known, rfl⟩ := mem_weigh_iff.mp mem
  exact ⟨address, known, Int32.lt_iff_toInt_lt.mpr negative⟩

/-- The draws and the picks agree on the addresses of a list where the whole sum is positive and the sums
rise at all positive weights. -/
theorem agree_iff :
    (∀ address ∈ addresses,
        (Random.ByWeight (weigh weight addresses) → Random.Rises (weigh weight addresses) address)
          ↔ (RoundRobin.ByWeight (weigh weight addresses) → 0 < weight address))
      ↔ (RoundRobin.ByWeight (weigh weight addresses) → 0 < Random.total (weigh weight addresses)
        ∧ ∀ address ∈ addresses, 0 < weight address →
          Random.Rises (weigh weight addresses) address) := by
  constructor
  · intro agree byWeight
    have positive : 0 < Random.total (weigh weight addresses) := by
      by_contra none
      -- all addresses are drawn, also one that is not picked
      obtain ⟨address, known, negative⟩ := exists_negative byWeight (Int.not_lt.mp none)
      have picked := (agree address known).mp fun byDraw => absurd byDraw.1 none
      exact Int32.lt_asymm negative (picked byWeight)
    refine ⟨positive, fun address known heavy => ?_⟩
    exact (agree address known).mpr (fun _ => heavy) ⟨positive, byWeight.2⟩
  · intro rises address known
    constructor
    · intro drawn byWeight
      exact (drawn ⟨(rises byWeight).1, byWeight.2⟩).known.2
    · intro picked byDraw
      exact (rises byDraw.comes).2 address known (picked byDraw.comes)

/-- Weights that are not negative have a positive sum, and their sums rise at each positive one. -/
theorem rises_of_nonneg (light : ∀ address ∈ addresses, 0 ≤ weight address)
    (byWeight : RoundRobin.ByWeight (weigh weight addresses)) :
    0 < Random.total (weigh weight addresses)
      ∧ ∀ address ∈ addresses, 0 < weight address →
        Random.Rises (weigh weight addresses) address := by
  constructor
  · by_contra none
    obtain ⟨address, known, negative⟩ := exists_negative byWeight (Int.not_lt.mp none)
    exact Int32.not_le.mpr negative (light address known)
  · intro address known positive
    refine Random.rises_of_pos ?_ (mem_weigh_iff.mpr ⟨known, rfl⟩)
      (RoundRobin.toInt_pos_iff.mpr positive)
    rintro ⟨other, own⟩ mem
    obtain ⟨known, rfl⟩ := mem_weigh_iff.mp mem
    exact Int32.le_iff_toInt_le.mp (light other known)

end

/-- A cycle of weighted round robin selects the addresses of positive weight, and weighted draws select
those at which the running sums rise.  They agree if no weight is negative, and else where the whole sum
is positive and the sums rise at all positive weights. -/
theorem eligible_of_weights (weight : String → Int32) (addresses : List String) (start : Nat) :
    let entries := weigh weight addresses
    let drawn address := (Random.choose entries).Possible (some address)
    let picked address := ∃ count, start ≤ count ∧ count < start + RoundRobin.period entries
      ∧ RoundRobin.pick entries count = some address
    (∀ address, picked address
        ↔ address ∈ addresses ∧ (RoundRobin.ByWeight entries → 0 < weight address))
      ∧ (∀ address, drawn address
        ↔ address ∈ addresses ∧ (Random.ByWeight entries → Random.Rises entries address))
      ∧ ((∀ address, drawn address ↔ picked address)
        ↔ (RoundRobin.ByWeight entries → 0 < Random.total entries
          ∧ ∀ address ∈ addresses, 0 < weight address → Random.Rises entries address))
      ∧ ((∀ address ∈ addresses, 0 ≤ weight address) →
        ∀ address, drawn address ↔ picked address) := by
  intro entries drawn picked
  have agree : (∀ address, drawn address ↔ picked address)
      ↔ (RoundRobin.ByWeight entries → 0 < Random.total entries
        ∧ ∀ address ∈ addresses, 0 < weight address → Random.Rises entries address) := by
    rw [← agree_iff]
    exact forall_congr' fun address =>
      (iff_congr drawn_iff (picked_iff start)).trans and_congr_right_iff
  exact ⟨fun _ => picked_iff start, fun _ => drawn_iff, agree,
    fun light => agree.mpr (rises_of_nonneg light)⟩

/-- With an unknown address between two known ones, weighted round robin selects the last address in
each cycle, and no draw reaches it; and where the weights of a known and an unknown address add up to
zero, the unknown one is drawn. -/
theorem misses_positive_weight :
    let weight (known : List (String × Int32)) (address : String) := (known.lookup address).getD (-1)
    let missed := weigh (weight [("A", 2), ("C", 1)]) ["A", "B", "C"]
    let plain := weigh (weight [("A", 1)]) ["A", "B"]
    missed = [("A", 2), ("B", -1), ("C", 1)]
      ∧ (∃ count < RoundRobin.period missed, RoundRobin.pick missed count = some "C")
      ∧ ¬ (Random.choose missed).Possible (some "C")
      ∧ plain = [("A", 1), ("B", -1)]
      ∧ (∀ count < RoundRobin.period plain, RoundRobin.pick plain count = some "A")
      ∧ (Random.choose plain).Possible (some "B") := by
  intro weight missed plain
  refine ⟨by decide, ⟨1, by decide, by decide⟩, ?_, by decide, by decide, ?_⟩
  · rw [← Random.mem_candidates_iff]
    decide
  · rw [← Random.mem_candidates_iff]
    decide

end RemoteCall.Balance

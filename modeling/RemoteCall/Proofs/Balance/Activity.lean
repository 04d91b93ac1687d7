import RemoteCall.Proofs.Balance.Guards
import RemoteCall.Proofs.Balance.Positions
import RemoteCall.Proofs.Balance.Selection

/-! # Selection by calls in progress

    The pass over the members keeps those of its list that have the number of
    calls and the weight of the best so far (`Best.Holds`): one more member is
    better than these, as good, or worse.  In the end they are the members
    that no other member beats, each as often as it stands in the list
    (`best_eq_filter`).

    So a selection draws from the members that have the fewest calls in
    progress, and of these the greatest weight, where the calls in progress
    are those that began and whose guard was not dropped (`best_of_run`). -/

namespace RemoteCall.Balance.LeastActive

variable {α : Type}

/-- Whether no member has fewer calls than some member, and none of those with as few calls has a
greater weight. -/
def Unbeaten (members : List (α × Nat × Int32)) (active : Nat) (weight : Int32) : Prop :=
  ∀ member ∈ members, active ≤ member.2.1 ∧ (member.2.1 = active → member.2.2 ≤ weight)

instance (members : List (α × Nat × Int32)) (active : Nat) (weight : Int32) :
    Decidable (Unbeaten members active weight) :=
  inferInstanceAs (Decidable (∀ member ∈ members, _))

/-- The members with some number of calls and some weight. -/
def alike (members : List (α × Nat × Int32)) (active : Nat) (weight : Int32) : List α :=
  (members.filter fun member => member.2.1 = active && member.2.2 = weight).map (·.1)

section

variable {seen : List (α × Nat × Int32)} {item : α} {active least : Nat} {weight most : Int32}

theorem unbeaten_concat_iff :
    Unbeaten (seen ++ [(item, active, weight)]) least most
      ↔ Unbeaten seen least most ∧ least ≤ active ∧ (active = least → weight ≤ most) := by
  rw [Unbeaten, List.forall_mem_append, List.forall_mem_singleton, Unbeaten]

theorem alike_concat :
    alike (seen ++ [(item, active, weight)]) least most
      = alike seen least most ++ if active = least ∧ weight = most then [item] else [] := by
  rw [alike, List.filter_append, List.map_append, ← alike, List.filter_singleton]
  congr 1
  rw [← Bool.decide_and]
  by_cases same : active = least ∧ weight = most
  · rw [if_pos same, decide_eq_true same]
    rfl
  · rw [if_neg same, decide_eq_false same]
    rfl

end

/-- Whether the best members are those that were seen with the best number of calls and the best
weight. -/
structure Best.Holds (best : Best α) (seen : List (α × Nat × Int32)) : Prop where
  members : best.members = alike seen best.active best.weight
  unbeaten : Unbeaten seen best.active best.weight

theorem holds_start : (Best.start (α := α)).Holds [] := ⟨rfl, nofun⟩

/-- One more member is better than the best so far, as good, or worse. -/
theorem Best.Holds.add {best : Best α} {seen : List (α × Nat × Int32)} (holds : best.Holds seen)
    (item : α) (active : Nat) (weight : Int32) :
    (best.add item active weight).Holds (seen ++ [(item, active, weight)]) := by
  obtain ⟨members, unbeaten⟩ := holds
  rw [Best.add]
  split
  · next better =>
      simp only [Bool.or_eq_true, Bool.and_eq_true, decide_eq_true_eq] at better
      -- nothing that was seen is as good as the new member
      have beaten (member : α × Nat × Int32) (mem : member ∈ seen) : active ≤ member.2.1
          ∧ (member.2.1 = active → member.2.2 < weight) := by
        obtain ⟨least, most⟩ := unbeaten member mem
        rcases better with fewer | ⟨same, heavier⟩
        · exact ⟨by omega, fun same => by omega⟩
        · exact ⟨by omega, fun same' => Int32.lt_of_le_of_lt (most (same'.trans same)) heavier⟩
      have none : alike seen active weight = [] := by
        rw [alike, List.map_eq_nil_iff, List.filter_eq_nil_iff]
        intro member mem same
        simp only [Bool.and_eq_true, decide_eq_true_eq] at same
        have less := (beaten member mem).2 same.1
        rw [same.2] at less
        exact Int32.lt_irrefl less
      constructor
      · rw [alike_concat, none, if_pos ⟨rfl, rfl⟩]
        rfl
      · refine unbeaten_concat_iff.mpr ⟨fun member mem => ?_, Nat.le_refl _, fun _ => Int32.le_refl _⟩
        obtain ⟨least, most⟩ := beaten member mem
        exact ⟨least, fun same => Int32.le_of_lt (most same)⟩
  · next worse =>
      simp only [Bool.or_eq_true, Bool.and_eq_true, decide_eq_true_eq, not_or, not_and, Nat.not_lt,
        Int32.not_lt] at worse
      split
      · next same =>
          simp only [Bool.and_eq_true, decide_eq_true_eq] at same
          refine ⟨?_, unbeaten_concat_iff.mpr ⟨unbeaten, worse⟩⟩
          rw [alike_concat, if_pos same, members]
      · next other =>
          simp only [Bool.and_eq_true, decide_eq_true_eq] at other
          refine ⟨?_, unbeaten_concat_iff.mpr ⟨unbeaten, worse⟩⟩
          rw [alike_concat, if_neg other, List.append_nil, members]

/-- A pass keeps the best of all that was seen. -/
theorem Best.Holds.foldl {best : Best α} {seen : List (α × Nat × Int32)} (holds : best.Holds seen)
    (members : List (α × Nat × Int32)) :
    (members.foldl (fun best member => best.add member.1 member.2.1 member.2.2) best).Holds
      (seen ++ members) := by
  induction members generalizing best seen with
  | nil => rwa [List.append_nil]
  | cons member rest ih =>
      rw [List.append_cons]
      exact ih (holds.add _ _ _)

/-- The best members are those that no other member beats, each as often as it stands in the list. -/
theorem best_eq_filter {members : List (α × Nat × Int32)}
    (fits : ∀ member ∈ members, member.2.1 < 2 ^ 64) :
    best members = (members.filter fun member => Unbeaten members member.2.1 member.2.2).map (·.1) := by
  by_cases some : members = []
  · rw [some]
    rfl
  · let last := members.foldl (fun best member => best.add member.1 member.2.1 member.2.2) Best.start
    have holds : last.Holds members := holds_start.foldl members
    have same : best members = alike members last.active last.weight := holds.members
    -- some member has the best number of calls and the best weight, so that nothing unbeaten is worse
    obtain ⟨item, mem⟩ := List.exists_mem_of_ne_nil _ (same ▸ best_ne_nil some fits)
    obtain ⟨first, mem, -⟩ := List.mem_map.mp mem
    obtain ⟨mem, attains⟩ := List.mem_filter.mp mem
    rw [Bool.and_eq_true, decide_eq_true_eq, decide_eq_true_eq] at attains
    rw [same, alike]
    congr 1
    refine List.filter_congr fun member mem' => ?_
    rw [← Bool.decide_and, decide_eq_decide]
    constructor
    · rintro ⟨active, weight⟩
      rw [active, weight]
      exact holds.unbeaten
    · intro unbeaten
      obtain ⟨least, most⟩ := holds.unbeaten member mem'
      obtain ⟨least', most'⟩ := unbeaten first mem
      rw [attains.1] at least' most'
      rw [attains.2] at most'
      have active := Nat.le_antisymm least' least
      exact ⟨active, Int32.le_antisymm (most active) (most' active.symm)⟩

/-! ## Selections -/

/-- Whether a member has the fewest calls, and the greatest weight of those that have as few. -/
def IsBest (members : List Member) (member : Member) : Prop :=
  (∀ other ∈ members, member.active ≤ other.active)
    ∧ ∀ other ∈ members, other.active = member.active → other.weight ≤ member.weight

instance (members : List Member) (member : Member) : Decidable (IsBest members member) :=
  inferInstanceAs (Decidable (_ ∧ _))

theorem best_members {members : List Member} (fits : ∀ member ∈ members, member.active < 2 ^ 64) :
    best (members.map fun member => (member.address, member.active, member.weight))
      = (members.filter (IsBest members)).map (·.address) := by
  have unbeaten (member : Member) : Unbeaten
      (members.map fun member => (member.address, member.active, member.weight))
      member.active member.weight ↔ IsBest members member := by
    rw [Unbeaten, List.forall_mem_map, IsBest]
    exact forall₂_and
  rw [best_eq_filter (List.forall_mem_map.mpr fits), List.filter_map, List.map_map]
  congr 1
  refine List.filter_congr fun member _ => ?_
  exact decide_eq_decide.mpr (unbeaten member)

theorem exists_best {members : List Member} (some : members ≠ [])
    (fits : ∀ member ∈ members, member.active < 2 ^ 64) : members.filter (IsBest members) ≠ [] := by
  let entries := members.map fun member => (member.address, member.active, member.weight)
  have fits' : ∀ entry ∈ entries, entry.2.1 < 2 ^ 64 := List.forall_mem_map.mpr fits
  have kept := best_ne_nil (mt List.map_eq_nil_iff.mp some) fits'
  rw [best_members fits] at kept
  exact mt List.map_eq_nil_iff.mpr kept

open ActiveCalls in
/-- Whatever began and ended, the calls that are counted are those that began and whose guard was not
dropped, and a selection draws one of the members that have the fewest calls, and of these the greatest
weight. -/
theorem best_of_run {events : List Event} (can : CanHappen events) :
    ∃ calls, Guarded.run events = some calls
      ∧ (∀ address, calls.active.count address = inProgress events address
        ∧ calls.active.count address < 2 ^ 63)
      ∧ (∀ before guard, before ++ [.drop guard] <+: events → ∃ earlier address,
        Guarded.run before = some earlier ∧ earlier.guards[guard]? = some (some address)
          ∧ 0 < earlier.active.count address)
      ∧ ∀ digest (balancer : Balancer) key generation (members : List Member), 2 ≤ members.length →
        (∀ member ∈ members, member.active = calls.active.count member.address) →
        let list := ⟨generation, members.map (·.address)⟩
        let choice := (balancer.choose digest .leastActive key list members).1
        let best := members.filter (IsBest members)
        (∃ positive, choice = .draw best.length positive fun i => .done (some best[i].address))
          ∧ ∀ address, choice.Possible (some address)
            ↔ ∃ member ∈ members, IsBest members member ∧ member.address = address := by
  obtain ⟨calls, ran, tells⟩ := Guarded.exists_run can
  have bounded (address : String) : calls.active.count address < 2 ^ 63 := by
    have := tells.few address
    rw [tells.count]
    rw [mostGuards] at this
    omega
  refine ⟨calls, ran, fun address => ⟨tells.count address, bounded address⟩, ?_, ?_⟩
  · intro before guard begins
    have can' : CanHappen before := fun earlier event begins' =>
      can earlier event (begins'.trans ((List.prefix_append before _).trans begins))
    obtain ⟨earlier, ran, tells⟩ := Guarded.exists_run can'
    obtain ⟨address, at', positive⟩ := tells.pos_of_drop (can before _ begins)
    exact ⟨earlier, address, ran, at', positive⟩
  · intro digest balancer key generation members two counted list choice best
    have fits : ∀ member ∈ members, member.active < 2 ^ 64 := by
      intro member mem
      have := bounded member.address
      rw [counted member mem]
      omega
    have chosen : choice = Choice.member (best.map (·.address)) := by
      rw [← best_members fits]
      exact congrArg Prod.fst
        (Balancer.choose_of_two two digest balancer .leastActive key generation)
    have some : best ≠ [] :=
      exists_best (List.ne_nil_of_length_pos (Nat.lt_of_lt_of_le Nat.two_pos two)) fits
    rw [chosen]
    constructor
    · exact ⟨List.length_pos_iff.mpr some, Choice.member_map _ _⟩
    · intro address
      rw [Choice.possible_member_iff, List.mem_map]
      simp only [best, List.mem_filter, decide_eq_true_eq, and_assoc]

open ActiveCalls in
/-- Of addresses with one, one and two calls in progress, the first two are drawn; the first stands
twice and is twice as likely. -/
theorem best_of_run_tie :
    let events : List Event :=
      [.start "A", .start "B", .start "C", .start "A", .start "C", .drop 0]
    let members : List Member := [⟨"A", 5, 1⟩, ⟨"B", 5, 1⟩, ⟨"C", 9, 2⟩, ⟨"A", 5, 1⟩]
    CanHappen events ∧ 2 ≤ members.length
      ∧ ∃ calls, Guarded.run events = some calls
        ∧ (∀ member ∈ members, member.active = calls.active.count member.address)
        ∧ ∀ digest (balancer : Balancer), ∃ positive,
          (balancer.choose digest .leastActive "k" ⟨1, ["A", "B", "C", "A"]⟩ members).1
            = .draw 3 positive fun i => .done (some ["A", "B", "A"][i]) := by
  intro events members
  have can : CanHappen events := by decide
  have two : 2 ≤ members.length := by decide
  obtain ⟨calls, ran, counts, -, selects⟩ := best_of_run can
  have counted : ∀ member ∈ members, member.active = calls.active.count member.address := by
    intro member mem
    rw [(counts member.address).1]
    revert member
    decide
  refine ⟨can, two, calls, ran, counted, fun digest balancer => ?_⟩
  obtain ⟨⟨positive, drawn⟩, -⟩ := selects digest balancer "k" 1 members two counted
  have best : (members.filter (IsBest members)).map (·.address) = ["A", "B", "A"] := by decide
  rw [← Choice.member_map, best] at drawn
  exact ⟨by decide, drawn⟩

end RemoteCall.Balance.LeastActive

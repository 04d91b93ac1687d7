import Mathlib.Data.List.FinRange
import RemoteCall.Balance.Balancer

/-! # Selections by position

    A list can have an address several times, and then an address does not
    tell which of its members was selected.  The strategies that go by weight
    never look at what they select, only at the weights, so that they can be
    followed over the positions of a list (`positions`): what they select of
    the members is what stands at the position that they select of the
    positions (`RoundRobin.pick_positions`, `Random.walk_positions`). -/

namespace RemoteCall.Balance

variable {α β : Type}

/-- The addresses of a list, each with its weight. -/
def weighted (members : List Member) : List (String × Int32) :=
  members.map fun member => (member.address, member.weight)

/-- The positions of a list, each with the weight of its member. -/
def positions (members : List Member) : List (Fin members.length × Int32) :=
  (List.finRange members.length).map fun i => (i, (members.get i).weight)

/-- Members with other names. -/
def renamed (name : α → β) (members : List (α × Int32)) : List (β × Int32) :=
  members.map fun member => (name member.1, member.2)

section

variable (members : List Member)

/-- The members of a list are its positions under the names of the addresses. -/
theorem renamed_positions :
    renamed (fun i => (members.get i).address) (positions members) = weighted members := by
  rw [renamed, positions, weighted, List.map_map]
  apply List.ext_getElem
  · simp
  · intro i _ _
    simp

theorem map_fst_positions : (positions members).map (·.1) = List.finRange members.length := by
  rw [positions, List.map_map]
  exact List.map_id _

theorem length_positions : (positions members).length = members.length := by
  rw [positions, List.length_map, List.length_finRange]

/-- The positions have the weights of the members. -/
theorem map_weight_positions (f : Int32 → β) :
    (positions members).map (fun position => f position.2)
      = members.map fun member => f member.weight := by
  rw [positions, List.map_map]
  apply List.ext_getElem
  · simp
  · intro i _ _
    simp

variable {members}

theorem mem_positions_iff {i : Fin members.length} {weight : Int32} :
    (i, weight) ∈ positions members ↔ weight = (members.get i).weight := by
  rw [positions, List.mem_map]
  constructor
  · rintro ⟨j, -, same⟩
    obtain ⟨rfl, rfl⟩ := Prod.mk.inj same
    rfl
  · rintro rfl
    exact ⟨i, List.mem_finRange i, rfl⟩

/-- A position stands once among the positions. -/
theorem filter_positions (i : Fin members.length) :
    (positions members).filter (·.1 = i) = [(i, (members.get i).weight)] := by
  have once : (List.finRange members.length).count i = 1 :=
    List.count_eq_one_of_mem (List.nodup_finRange _) (List.mem_finRange i)
  rw [positions, List.filter_map]
  show List.map _ ((List.finRange members.length).filter fun j => decide (j = i)) = _
  rw [List.filter_eq, once]
  rfl

end

/-! ## Weighted round robin -/

namespace RoundRobin

variable (name : α → β)

theorem spend_map (live : List (α × Nat)) :
    spend (live.map fun member => (name member.1, member.2))
      = (spend live).map fun member => (name member.1, member.2) := by
  rw [spend, spend, List.filterMap_map, List.map_filterMap]
  congr 1
  funext member
  show (if 1 < member.2 then some (name member.1, member.2 - 1) else none) = _
  split <;> rfl

theorem walk_map (rounds offset : Nat) (live : List (α × Nat)) :
    walk rounds offset (live.map fun member => (name member.1, member.2))
      = (walk rounds offset live).map name := by
  induction rounds generalizing offset live with
  | zero => rfl
  | succ rounds ih =>
      rw [walk, walk, List.length_map]
      split
      · rw [List.getElem?_map, Option.map_map, Option.map_map]
        rfl
      · rw [spend_map, ih]

theorem live_renamed (members : List (α × Int32)) :
    live (renamed name members) = (live members).map fun member => (name member.1, member.2) := by
  rw [live, live, renamed, List.filterMap_map, List.map_filterMap]
  congr 1
  funext member
  show (if 0 < member.2 then some (name member.1, member.2.toInt.toNat) else none) = _
  split <;> rfl

theorem largest_renamed (members : List (α × Int32)) :
    largest (renamed name members) = largest members := by
  rw [largest, largest, renamed, List.foldl_map]

theorem smallest_renamed (members : List (α × Int32)) :
    smallest (renamed name members) = smallest members := by
  rw [smallest, smallest, renamed, List.foldl_map]

theorem plain_renamed (members : List (α × Int32)) (count : Nat) :
    plain (renamed name members) count = (plain members count).map name := by
  rw [plain, plain, renamed, List.length_map, List.getElem?_map, Option.map_map, Option.map_map]
  rfl

theorem isWeighted_renamed (members : List (α × Int32)) :
    isWeighted (renamed name members) = isWeighted members := by
  rw [isWeighted, isWeighted, largest_renamed, smallest_renamed]

/-- Names play no part in a pick. -/
theorem pick_renamed (members : List (α × Int32)) (count : Nat) :
    pick (renamed name members) count = (pick members count).map name := by
  have sums : (live (renamed name members)).map (·.2) = (live members).map (·.2) := by
    rw [live_renamed, List.map_map]
    rfl
  rw [pick, pick, isWeighted_renamed, plain_renamed]
  split
  · dsimp only
    rw [sums, live_renamed, walk_map, largest_renamed]
    cases walk (largest members).toInt.toNat (count % ((live members).map (·.2)).sum)
      (live members) with
    | some item => rfl
    | none => rfl
  · rfl

/-- The pick is the address at the position that is picked. -/
theorem pick_positions (members : List Member) (count : Nat) :
    pick (weighted members) count
      = (pick (positions members) count).map fun i => (members.get i).address := by
  rw [← renamed_positions, pick_renamed]

end RoundRobin

/-! ## Weighted random selection -/

namespace Random

variable (name : α → β)

/-- Names play no part in a walk. -/
theorem walk_renamed (members : List (α × Int32)) (offset : Int) :
    walk offset (renamed name members) = (walk offset members).map name := by
  induction members generalizing offset with
  | nil => rfl
  | cons member rest ih =>
      show walk offset ((name member.1, member.2) :: renamed name rest) = _
      rw [walk, walk]
      dsimp only
      split
      · rfl
      · exact ih _

/-- The walk ends at the address at the position where it ends. -/
theorem walk_positions (members : List Member) (offset : Int) :
    walk offset (weighted members)
      = (walk offset (positions members)).map fun i => (members.get i).address := by
  rw [← renamed_positions, walk_renamed]

end Random

/-! ## Balancers -/

/-- For two members or more, a balancer looks at its strategy. -/
theorem Balancer.choose_of_two {members : List Member} (two : 2 ≤ members.length) (digest : Digest)
    (balancer : Balancer) (strategy : Strategy) (key : String) (generation : Nat) :
    let list := ⟨generation, members.map (·.address)⟩
    balancer.choose digest strategy key list members
      = balancer.chooseAmong digest strategy key list members := by
  match members with
  | _ :: _ :: _ => rfl

end RemoteCall.Balance

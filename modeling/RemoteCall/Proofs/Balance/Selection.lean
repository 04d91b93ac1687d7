import RemoteCall.Balance.Balancer

/-! # What a balancer can select

    Whatever the draws, the counts and the weights are, a balancer selects one
    of the addresses of a list that is not empty (`Balancer.choose_selects`).
    Each strategy is followed through its own recursion: what a walk finds was
    in the list that it went over, what a ring has came from its list, and the
    best members are members.  The only thing that a strategy takes from
    earlier selections and that could lead elsewhere is a ring, so the ring
    kept for a key has to be that of the list, if it has its generation
    (`RingFits`). -/

namespace RemoteCall.Balance

variable {α : Type}

/-! ## Choices -/

namespace Choice

theorem possible_done_iff {value other : α} : (done value).Possible other ↔ other = value := by
  constructor
  · rintro ⟨⟩
    rfl
  · rintro rfl
    exact .done other

theorem possible_draw_iff {bound : Nat} {positive : 0 < bound} {next : Fin bound → Choice α}
    {value : α} : (draw bound positive next).Possible value ↔ ∃ i, (next i).Possible value := by
  constructor
  · rintro (_ | ⟨i, possible⟩)
    exact ⟨i, possible⟩
  · rintro ⟨i, possible⟩
    exact .draw i possible

theorem possible_member_iff {items : List α} {item : α} :
    (member items).Possible (some item) ↔ item ∈ items := by
  rw [member]
  split
  · simp only [possible_draw_iff, possible_done_iff, Option.some.injEq]
    exact ⟨fun ⟨i, same⟩ => same ▸ List.get_mem items i,
      fun mem => (List.get_of_mem mem).imp fun i same => same.symm⟩
  · next none =>
      rw [List.length_eq_zero_iff.mp (Nat.eq_zero_of_not_pos none)]
      simp [possible_done_iff]

/-- Whether one of some items comes out of a choice, whatever is drawn. -/
def SelectsFrom (choice : Choice (Option α)) (items : List α) : Prop :=
  ∀ result, choice.Possible result → ∃ item ∈ items, result = some item

variable {items : List α}

theorem selectsFrom_done {item : α} (mem : item ∈ items) :
    (done (some item)).SelectsFrom items := by
  rintro result ⟨⟩
  exact ⟨item, mem, rfl⟩

theorem selectsFrom_draw {bound : Nat} {positive : 0 < bound}
    {next : Fin bound → Choice (Option α)} (each : ∀ i, (next i).SelectsFrom items) :
    (draw bound positive next).SelectsFrom items := by
  rintro result (_ | ⟨i, possible⟩)
  exact each i result possible

theorem selectsFrom_member (some : items ≠ []) : (member items).SelectsFrom items := by
  have positive : 0 < items.length := List.length_pos_iff.mpr some
  rw [member, dif_pos positive]
  exact selectsFrom_draw fun i => selectsFrom_done (List.get_mem items i)

/-- The positions of a list are equally likely. -/
theorem member_map {β : Type} {others : List β} (f : β → α) (positive : 0 < others.length) :
    member (others.map f) = .draw others.length positive fun i => .done (some (f others[i])) := by
  have each {items : List α} {n : Nat} (length : items.length = n) (positive : 0 < n) :
      member items = .draw n positive fun i => .done (some items[i]) := by
    subst length
    exact dif_pos positive
  rw [each (List.length_map f) positive]
  congr 1
  funext i
  exact congrArg (fun item => done (some item)) (List.getElem_map f)

theorem SelectsFrom.mono {choice : Choice (Option α)} {others : List α}
    (selects : choice.SelectsFrom items) (sub : items ⊆ others) : choice.SelectsFrom others := by
  intro result possible
  obtain ⟨item, mem, same⟩ := selects result possible
  exact ⟨item, sub mem, same⟩

end Choice

/-! ## Weighted random selection -/

namespace Random

theorem mem_of_walk {offset : Int} {members : List (α × Int32)} {item : α}
    (found : walk offset members = some item) : item ∈ members.map (·.1) := by
  induction members generalizing offset with
  | nil => exact nomatch found
  | cons member rest ih =>
      simp only [walk] at found
      split at found
      · rw [← Option.some.inj found]
        exact .head _
      · exact .tail _ (ih found)

theorem choose_selects {members : List (α × Int32)} (some : members ≠ []) :
    (choose members).SelectsFrom (members.map (·.1)) := by
  have uniform : (Choice.member (members.map (·.1))).SelectsFrom (members.map (·.1)) :=
    Choice.selectsFrom_member (mt List.map_eq_nil_iff.mp some)
  simp only [choose]
  split
  · exact uniform
  · split
    · refine Choice.selectsFrom_draw fun offset => ?_
      split
      · next found => exact Choice.selectsFrom_done (mem_of_walk found)
      · exact uniform
    · exact uniform

end Random

/-! ## Weighted round robin -/

namespace RoundRobin

theorem spend_subset (live : List (α × Nat)) : (spend live).map (·.1) ⊆ live.map (·.1) := by
  intro item mem
  obtain ⟨left, mem', rfl⟩ := List.mem_map.mp mem
  obtain ⟨member, mem, found⟩ := List.mem_filterMap.mp mem'
  split at found
  · rw [← Option.some.inj found]
    exact List.mem_map_of_mem (f := (·.1)) mem
  · exact nomatch found

theorem mem_of_walk {rounds offset : Nat} {live : List (α × Nat)} {item : α}
    (found : walk rounds offset live = some item) : item ∈ live.map (·.1) := by
  induction rounds generalizing offset live with
  | zero => exact nomatch found
  | succ rounds ih =>
      rw [walk] at found
      split at found
      · obtain ⟨member, at', rfl⟩ := Option.map_eq_some_iff.mp found
        exact List.mem_map_of_mem (List.mem_of_getElem? at')
      · exact spend_subset live (ih found)

theorem live_subset (members : List (α × Int32)) :
    (live members).map (·.1) ⊆ members.map (·.1) := by
  intro item mem
  obtain ⟨left, mem', rfl⟩ := List.mem_map.mp mem
  obtain ⟨member, mem, found⟩ := List.mem_filterMap.mp mem'
  split at found
  · rw [← Option.some.inj found]
    exact List.mem_map_of_mem mem
  · exact nomatch found

theorem exists_plain {members : List (α × Int32)} (some : members ≠ []) (count : Nat) :
    ∃ item ∈ members.map (·.1), plain members count = .some item := by
  have less := Nat.mod_lt count (List.length_pos_iff.mpr some)
  rw [plain, List.getElem?_eq_getElem less]
  exact ⟨_, List.mem_map_of_mem (List.getElem_mem less), rfl⟩

/-- Whatever the count is, a member is picked. -/
theorem exists_pick {members : List (α × Int32)} (some : members ≠ []) (count : Nat) :
    ∃ item ∈ members.map (·.1), pick members count = .some item := by
  rw [pick]
  split
  · dsimp only
    cases found : walk (largest members).toInt.toNat
      (count % ((live members).map (·.2)).sum) (live members) with
    | some item => exact ⟨item, live_subset members (mem_of_walk found), rfl⟩
    | none => exact exists_plain some count
  · exact exists_plain some count

end RoundRobin

/-! ## Hash rings -/

namespace Ring

theorem settle_subset (places : List Place) : settle places ⊆ places := by
  induction places with
  | nil => exact List.Subset.refl _
  | cons place rest ih =>
      cases rest with
      | nil => exact List.Subset.refl _
      | cons next rest =>
          rw [settle]
          split
          · exact List.subset_cons_of_subset _ ih
          · exact List.cons_subset_cons _ ih

theorem settle_ne_nil {places : List Place} (some : places ≠ []) : settle places ≠ [] := by
  induction places with
  | nil => exact absurd rfl some
  | cons place rest ih =>
      cases rest with
      | nil => exact List.cons_ne_nil _ _
      | cons next rest =>
          rw [settle]
          split
          · exact ih (List.cons_ne_nil _ _)
          · exact List.cons_ne_nil _ _

variable (digest : Digest)

theorem mem_placesOf {replicas : Nat} {address : String} {place : Place}
    (mem : place ∈ placesOf digest replicas address) : place.2 = address := by
  obtain ⟨i, -, mem⟩ := List.mem_flatMap.mp mem
  obtain ⟨window, -, rfl⟩ := List.mem_map.mp mem
  rfl

theorem mem_of_mem_places {replicas : Nat} {list : AddressList} {place : Place}
    (mem : place ∈ (ofList digest replicas list).places) : place.2 ∈ list.addresses := by
  have mem := List.mem_mergeSort.mp (settle_subset _ mem)
  obtain ⟨address, known, mem⟩ := List.mem_flatMap.mp mem
  exact mem_placesOf digest mem ▸ known

theorem places_ne_nil {list : AddressList} (some : list.addresses ≠ []) :
    (ofList digest replicas list).places ≠ [] := by
  refine settle_ne_nil fun none => ?_
  obtain ⟨address, rest, cons⟩ := List.exists_cons_of_ne_nil some
  have first : (digest (anchor address 0) 0, address)
      ∈ list.addresses.flatMap (placesOf digest replicas) := by
    rw [cons]
    refine List.mem_flatMap.mpr ⟨address, .head _, List.mem_flatMap.mpr ⟨0, ?_, ?_⟩⟩
    · decide
    · exact List.mem_map_of_mem (a := 0) (by decide)
  exact nomatch none ▸ List.mem_mergeSort.mpr first

theorem mem_of_placeAt {ring : Ring} {number : UInt32} {place : Place}
    (found : ring.placeAt number = some place) : place ∈ ring.places := by
  rw [placeAt, Option.or_eq_some_iff] at found
  rcases found with behind | ⟨-, first⟩
  · exact List.mem_of_find?_eq_some behind
  · exact List.mem_of_mem_head? first

theorem exists_placeAt {ring : Ring} (some : ring.places ≠ []) (number : UInt32) :
    ∃ place, ring.placeAt number = .some place := by
  obtain ⟨first, rest, cons⟩ := List.exists_cons_of_ne_nil some
  rw [placeAt, cons, List.head?_cons]
  cases List.find? (fun place : Place => number ≤ place.1) (first :: rest) with
  | some place => exact ⟨place, rfl⟩
  | none => exact ⟨first, rfl⟩

/-- On the ring of a list, every key belongs to one of its addresses. -/
theorem exists_select {list : AddressList} (some : list.addresses ≠ []) (key : String) :
    ∃ address ∈ list.addresses, (ofList digest replicas list).select digest key = .some address := by
  obtain ⟨place, found⟩ := exists_placeAt (places_ne_nil digest some) (digest key 0)
  refine ⟨place.2, mem_of_mem_places digest (mem_of_placeAt found), ?_⟩
  rw [select, found]
  rfl

end Ring

/-! ## Selection by calls in progress -/

namespace LeastActive

theorem add_subset (best : Best α) (item : α) (active : Nat) (weight : Int32) :
    (best.add item active weight).members ⊆ best.members ++ [item] := by
  rw [Best.add]
  split
  · exact List.subset_append_right _ _
  · split
    · exact List.Subset.refl _
    · exact List.subset_append_left _ _

theorem add_ne_nil {best : Best α} (some : best.members ≠ []) (item : α) (active : Nat)
    (weight : Int32) : (best.add item active weight).members ≠ [] := by
  rw [Best.add]
  split
  · exact List.cons_ne_nil _ _
  · split
    · exact List.append_ne_nil_of_left_ne_nil some _
    · exact some

/-- Nothing is worse than the start. -/
theorem add_start_ne_nil (item : α) {active : Nat} (fits : active < 2 ^ 64) (weight : Int32) :
    (Best.start.add item active weight).members ≠ [] := by
  have atMost : active < (Best.start (α := α)).active ∨ active = (Best.start (α := α)).active :=
    Nat.lt_or_eq_of_le (Nat.le_sub_one_of_lt fits)
  rw [Best.add]
  split
  · exact List.cons_ne_nil _ _
  · next worse =>
      simp only [Bool.or_eq_true, Bool.and_eq_true, decide_eq_true_eq, not_or, not_and,
        Int32.not_lt] at worse
      have most := atMost.resolve_left worse.1
      have least := Int32.le_antisymm (worse.2 most) (Int32.minValue_le weight)
      rw [if_pos (by simp [most, least])]
      exact List.cons_ne_nil _ _

/-- The best members are among those before and those that come; there is one if there was. -/
theorem foldl_add (members : List (α × Nat × Int32)) (start : Best α) :
    let best := members.foldl (fun best member => best.add member.1 member.2.1 member.2.2) start
    best.members ⊆ start.members ++ members.map (·.1)
      ∧ (start.members ≠ [] → best.members ≠ []) := by
  induction members generalizing start with
  | nil => exact ⟨List.subset_append_left _ _, id⟩
  | cons member rest ih =>
      obtain ⟨sub, some⟩ := ih (start.add member.1 member.2.1 member.2.2)
      have first := add_subset start member.1 member.2.1 member.2.2
      constructor
      · rw [List.map_cons, List.append_cons]
        exact List.Subset.trans sub (List.append_subset.mpr
          ⟨List.subset_append_of_subset_left _ first, List.subset_append_right _ _⟩)
      · exact fun some' => some (add_ne_nil some' _ _ _)

theorem best_subset (members : List (α × Nat × Int32)) : best members ⊆ members.map (·.1) :=
  (foldl_add members Best.start).1

theorem best_ne_nil {members : List (α × Nat × Int32)} (some : members ≠ [])
    (fits : ∀ member ∈ members, member.2.1 < 2 ^ 64) : best members ≠ [] := by
  obtain ⟨first, rest, rfl⟩ := List.exists_cons_of_ne_nil some
  exact (foldl_add rest _).2 (add_start_ne_nil _ (fits first (.head _)) _)

end LeastActive

/-! ## Balancers -/

/-- Whether the ring kept for a key is that of a list, if it has the generation of the list. -/
def RingFits (digest : Digest) (rings : Rings) (key : String) (list : AddressList) : Prop :=
  ∀ ring, rings.get? key = some ring → ring.generation = list.generation →
    ring = Ring.ofList digest Ring.replicas list

namespace Balancer

variable {digest : Digest} {balancer : Balancer} {key : String}

theorem ringFor_eq {list : AddressList} (fits : RingFits digest balancer.rings key list) :
    (balancer.rings.ringFor digest list key).1 = Ring.ofList digest Ring.replicas list := by
  rw [Rings.ringFor]
  cases found : (balancer.rings.get? key).filter fun ring => ring.generation = list.generation with
  | none => rfl
  | some ring =>
      obtain ⟨kept, same⟩ := Option.filter_eq_some_iff.mp found
      exact fits ring kept (of_decide_eq_true same)

/-- A balancer selects one of the addresses of a list that is not empty. -/
theorem choose_selects (strategy : Strategy) {list : AddressList} {members : List Member}
    (some : list.addresses ≠ []) (same : members.map (·.address) = list.addresses)
    (fits : ∀ member ∈ members, member.active < 2 ^ 64)
    (ring : RingFits digest balancer.rings key list) :
    (balancer.choose digest strategy key list members).1.SelectsFrom list.addresses := by
  have some' : members ≠ [] := by
    rintro rfl
    exact some same.symm
  rw [choose]
  split
  · next none => exact absurd none some
  · next only single =>
      rw [single]
      exact Choice.selectsFrom_done (.head _)
  · cases strategy with
    | random =>
        refine (Random.choose_selects (mt List.map_eq_nil_iff.mp some')).mono ?_
        rw [← same, List.map_map]
        exact List.Subset.refl _
    | roundRobin =>
        have weighed : (members.map fun member => (member.address, member.weight)) ≠ [] :=
          mt List.map_eq_nil_iff.mp some'
        obtain ⟨address, mem, picked⟩ :=
          RoundRobin.exists_pick weighed ((balancer.turns.get? key).getD 0).toNat
        rw [List.map_map] at mem
        show (Choice.done (RoundRobin.pick _ _)).SelectsFrom _
        rw [picked]
        exact Choice.selectsFrom_done (same ▸ mem)
    | consistentHash =>
        obtain ⟨address, mem, selected⟩ := Ring.exists_select digest some key
        show (Choice.done (Ring.select digest (balancer.rings.ringFor digest list key).1 key)
          ).SelectsFrom _
        rw [ringFor_eq ring, selected]
        exact Choice.selectsFrom_done mem
    | leastActive =>
        refine (Choice.selectsFrom_member (LeastActive.best_ne_nil
          (mt List.map_eq_nil_iff.mp some') ?_)).mono ?_
        · intro member mem
          obtain ⟨member', known, rfl⟩ := List.mem_map.mp mem
          exact fits member' known
        · refine List.Subset.trans (LeastActive.best_subset _) ?_
          rw [← same, List.map_map]
          exact List.Subset.refl _

/-- A selection keeps no ring but that of its list. -/
theorem rings_choose (strategy : Strategy) (list : AddressList) (members : List Member)
    {other : String} {ring : Ring}
    (found : (balancer.choose digest strategy key list members).2.rings.get? other = some ring) :
    balancer.rings.get? other = some ring ∨ ring = Ring.ofList digest Ring.replicas list := by
  rw [choose] at found
  split at found
  · exact .inl found
  · exact .inl found
  · cases strategy with
    | random => exact .inl found
    | roundRobin => exact .inl found
    | leastActive => exact .inl found
    | consistentHash =>
        have found : (balancer.rings.ringFor digest list key).2.get? other = some ring := found
        rw [Rings.ringFor] at found
        split at found
        · exact .inl found
        · rw [Dictionary.get?_insert] at found
          split at found
          · exact .inr (Option.some.inj found).symm
          · exact .inl found

end Balancer

end RemoteCall.Balance

import RemoteCall.Proofs.Balance.Selection

/-! # Who owns a place on a ring

    Addresses take places on the ring of their list, and the last address of
    the list that takes a place owns it (`Owns`).  The ring has exactly the
    places that are owned, in increasing order (`mem_places_iff`,
    `increasing_places`): sorting keeps the order of the places that have the
    same number, and of those the last one is kept (`filter_mergeSort`,
    `mem_settle_iff`). -/

namespace RemoteCall.Balance.Ring

/-- An address takes the place with a number. -/
def Takes (digest : Digest) (replicas : Nat) (address : String) (number : UInt32) : Prop :=
  ∃ i < replicas / 4, ∃ window < 4, digest (anchor address i) window = number

/-- One of some addresses takes the place with a number. -/
def Taken (digest : Digest) (replicas : Nat) (addresses : List String) (number : UInt32) : Prop :=
  ∃ address ∈ addresses, Takes digest replicas address number

/-- An address is the last one of a list that takes the place with a number. -/
def Owns (digest : Digest) (replicas : Nat) (addresses : List String) (number : UInt32)
    (address : String) : Prop :=
  ∃ front back, addresses = front ++ address :: back ∧ Takes digest replicas address number
    ∧ ∀ later ∈ back, ¬ Takes digest replicas later number

/-! ## Owners -/

section

variable {digest : Digest} {replicas : Nat} {addresses : List String} {number : UInt32}
  {address : String}

theorem Owns.takes (owns : Owns digest replicas addresses number address) :
    Takes digest replicas address number := by
  obtain ⟨-, -, -, takes, -⟩ := owns
  exact takes

theorem Owns.mem (owns : Owns digest replicas addresses number address) : address ∈ addresses := by
  obtain ⟨front, back, rfl, -, -⟩ := owns
  exact List.mem_append_cons_self

theorem Owns.taken (owns : Owns digest replicas addresses number address) :
    Taken digest replicas addresses number :=
  ⟨address, owns.mem, owns.takes⟩

/-- A first address owns what no address behind it takes. -/
theorem owns_cons_iff {first : String} :
    Owns digest replicas (first :: addresses) number address
      ↔ Owns digest replicas addresses number address
        ∨ address = first ∧ Takes digest replicas first number
          ∧ ¬ Taken digest replicas addresses number := by
  constructor
  · rintro ⟨front, back, parts, takes, last⟩
    rcases List.cons_eq_append_iff.mp parts with ⟨rfl, parts⟩ | ⟨front, rfl, rfl⟩
    · obtain ⟨rfl, rfl⟩ := List.cons.inj parts
      exact .inr ⟨rfl, takes, fun ⟨later, mem, takes⟩ => last later mem takes⟩
    · exact .inl ⟨front, back, rfl, takes, last⟩
  · rintro (⟨front, back, rfl, owns⟩ | ⟨rfl, takes, last⟩)
    · exact ⟨first :: front, back, rfl, owns⟩
    · exact ⟨[], addresses, rfl, takes, fun later mem takes => last ⟨later, mem, takes⟩⟩

/-- A place that is taken has an owner. -/
theorem exists_owner (taken : Taken digest replicas addresses number) :
    ∃ address, Owns digest replicas addresses number address := by
  induction addresses with
  | nil => exact nomatch taken
  | cons first rest ih =>
      by_cases later : Taken digest replicas rest number
      · obtain ⟨address, owns⟩ := ih later
        exact ⟨address, owns_cons_iff.mpr (.inl owns)⟩
      · obtain ⟨address, mem, takes⟩ := taken
        rcases List.mem_cons.mp mem with rfl | mem
        · exact ⟨address, owns_cons_iff.mpr (.inr ⟨rfl, takes, later⟩)⟩
        · exact absurd ⟨address, mem, takes⟩ later

/-- A place has one owner. -/
theorem Owns.unique {other : String} (owns : Owns digest replicas addresses number address)
    (owns' : Owns digest replicas addresses number other) : address = other := by
  induction addresses with
  | nil => exact nomatch owns.mem
  | cons first rest ih =>
      rcases owns_cons_iff.mp owns with later | ⟨is, -, last⟩
      all_goals rcases owns_cons_iff.mp owns' with later' | ⟨is', -, last'⟩
      · exact ih later later'
      · exact absurd later.taken last'
      · exact absurd later'.taken last
      · exact is.trans is'.symm

end

/-! ## Sorted places -/

theorem le_trans_place (a b c : Place) (ab : decide (a.1 ≤ b.1) = true)
    (bc : decide (b.1 ≤ c.1) = true) : decide (a.1 ≤ c.1) = true :=
  decide_eq_true (UInt32.le_trans (of_decide_eq_true ab) (of_decide_eq_true bc))

theorem le_total_place (a b : Place) : (decide (a.1 ≤ b.1) || decide (b.1 ≤ a.1)) = true := by
  rw [Bool.or_eq_true, decide_eq_true_eq, decide_eq_true_eq]
  exact UInt32.le_total a.1 b.1

/-- Sorting keeps the order of the places that have the same number. -/
theorem filter_mergeSort (places : List Place) (number : UInt32) :
    (places.mergeSort fun a b => a.1 ≤ b.1).filter (fun place => place.1 = number)
      = places.filter fun place => place.1 = number := by
  have alike : (places.filter fun place => place.1 = number).Pairwise
      fun a b => decide (a.1 ≤ b.1) = true := by
    refine List.pairwise_of_forall_mem_list fun a mem b mem' => decide_eq_true ?_
    have here := of_decide_eq_true (List.mem_filter.mp mem).2
    have there := of_decide_eq_true (List.mem_filter.mp mem').2
    exact UInt32.le_of_eq (here.trans there.symm)
  have kept := (List.sublist_mergeSort le_trans_place le_total_place alike
    List.filter_sublist).filter fun place => decide (place.1 = number)
  simp only [List.filter_filter, Bool.and_self] at kept
  exact (kept.eq_of_length ((List.mergeSort_perm places _).filter _).length_eq.symm).symm

theorem increasing_settle {places : List Place} (sorted : places.Pairwise fun a b => a.1 ≤ b.1) :
    (settle places).Pairwise fun a b => a.1 < b.1 := by
  induction places with
  | nil => exact .nil
  | cons place rest ih =>
      obtain ⟨first, sorted⟩ := List.pairwise_cons.mp sorted
      cases rest with
      | nil => exact List.pairwise_singleton _ _
      | cons next rest =>
          rw [settle]
          split
          · exact ih sorted
          · next apart =>
              refine List.pairwise_cons.mpr ⟨fun other mem => ?_, ih sorted⟩
              have less := UInt32.lt_of_le_of_ne (first next (.head _)) apart
              rcases List.mem_cons.mp (settle_subset _ mem) with rfl | mem
              · exact less
              · exact UInt32.lt_of_lt_of_le less ((List.pairwise_cons.mp sorted).1 other mem)

/-- Of the places that have the same number, the last one is kept. -/
theorem mem_settle_iff {places : List Place} (sorted : places.Pairwise fun a b => a.1 ≤ b.1)
    {place : Place} :
    place ∈ settle places ↔ (places.filter fun other => other.1 = place.1).getLast? = some place := by
  induction places with
  | nil => exact ⟨nofun, nofun⟩
  | cons first rest ih =>
      obtain ⟨least, sorted⟩ := List.pairwise_cons.mp sorted
      cases rest with
      | nil =>
          rw [settle, List.mem_singleton]
          by_cases same : first.1 = place.1
          · rw [List.filter_cons_of_pos (by simp [same])]
            exact ⟨fun is => congrArg some is.symm, fun is => (Option.some.inj is).symm⟩
          · rw [List.filter_cons_of_neg (by simp [same])]
            exact ⟨fun is => absurd (congrArg Prod.fst is.symm) same, nofun⟩
      | cons next rest =>
          rw [settle]
          by_cases same : first.1 = place.1
          · rw [List.filter_cons_of_pos (by simp [same])]
            split
            · next alike =>
                rw [ih sorted, List.filter_cons_of_pos (by simp [← alike, same]),
                  List.getLast?_cons_cons]
            · next apart =>
                -- no place behind the first one has its number
                have less := UInt32.lt_of_le_of_ne (least next (.head _)) apart
                have behind (other : Place) (mem : other ∈ next :: rest) : other.1 ≠ place.1 := by
                  have := (List.mem_cons.mp mem).elim (fun is => is ▸ UInt32.le_refl _)
                    ((List.pairwise_cons.mp sorted).1 other)
                  exact fun is => UInt32.lt_irrefl _
                    (UInt32.lt_of_lt_of_le less (is.trans same.symm ▸ this))
                rw [List.filter_eq_nil_iff.mpr (by simpa using behind), List.mem_cons]
                constructor
                · rintro (rfl | mem)
                  · rfl
                  · exact absurd rfl (behind place (settle_subset _ mem))
                · exact fun is => .inl (Option.some.inj is).symm
          · rw [List.filter_cons_of_neg (by simp [same]), ← ih sorted]
            split
            · exact Iff.rfl
            · rw [List.mem_cons, or_iff_right fun is => same (congrArg Prod.fst is.symm)]

/-! ## The places of a ring -/

variable {digest : Digest} {replicas : Nat} {list : AddressList}

theorem mem_placesOf_iff {address : String} {place : Place} :
    place ∈ placesOf digest replicas address
      ↔ place.2 = address ∧ Takes digest replicas address place.1 := by
  constructor
  · intro mem
    obtain ⟨i, less, mem⟩ := List.mem_flatMap.mp mem
    obtain ⟨window, less', rfl⟩ := List.mem_map.mp mem
    exact ⟨rfl, i, List.mem_range.mp less, window, List.mem_range.mp less', rfl⟩
  · rintro ⟨rfl, i, less, window, less', same⟩
    exact List.mem_flatMap.mpr ⟨i, List.mem_range.mpr less,
      List.mem_map.mpr ⟨window, List.mem_range.mpr less', Prod.ext same rfl⟩⟩

/-- The places that an address takes with a number are all the same. -/
theorem getLast?_filter_placesOf {address : String} {number : UInt32} {place : Place} :
    ((placesOf digest replicas address).filter fun place => place.1 = number).getLast? = some place
      ↔ place = (number, address) ∧ Takes digest replicas address number := by
  constructor
  · intro last
    obtain ⟨mem, same⟩ := List.mem_filter.mp (List.mem_of_getLast? last)
    obtain rfl := of_decide_eq_true same
    obtain ⟨rfl, takes⟩ := mem_placesOf_iff.mp mem
    exact ⟨rfl, takes⟩
  · rintro ⟨rfl, takes⟩
    have mem : (number, address)
        ∈ (placesOf digest replicas address).filter fun place => place.1 = number :=
      List.mem_filter.mpr ⟨mem_placesOf_iff.mpr ⟨rfl, takes⟩, decide_eq_true rfl⟩
    rw [List.getLast?_eq_some_getLast (List.ne_nil_of_mem mem)]
    obtain ⟨mem', same⟩ := List.mem_filter.mp (List.getLast_mem (List.ne_nil_of_mem mem))
    exact congrArg some (Prod.ext (of_decide_eq_true same) (mem_placesOf_iff.mp mem').1)

theorem pairwise_mergeSort (places : List Place) :
    (places.mergeSort fun a b => a.1 ≤ b.1).Pairwise fun a b => a.1 ≤ b.1 := by
  have sorted : (places.mergeSort fun a b => a.1 ≤ b.1).Pairwise
      fun a b => decide (a.1 ≤ b.1) = true :=
    List.pairwise_mergeSort le_trans_place le_total_place places
  exact sorted.imp of_decide_eq_true

theorem increasing_places :
    (ofList digest replicas list).places.Pairwise fun a b => a.1 < b.1 :=
  increasing_settle (pairwise_mergeSort _)

/-- A ring has the places that are owned, each with its owner. -/
theorem mem_places_iff {place : Place} :
    place ∈ (ofList digest replicas list).places
      ↔ Owns digest replicas list.addresses place.1 place.2 := by
  rw [ofList, mem_settle_iff (pairwise_mergeSort _), filter_mergeSort, List.filter_flatMap,
    List.getLast?_flatMap, List.findSome?_eq_some_iff]
  constructor
  · rintro ⟨back, address, front, parts, last, none⟩
    obtain ⟨is, takes⟩ := getLast?_filter_placesOf.mp last
    refine ⟨front.reverse, back.reverse, ?_, ?_, ?_⟩
    · rw [← List.reverse_reverse list.addresses, parts, is]
      simp
    · rw [is] at takes ⊢
      exact takes
    · intro later mem takes
      have := none later (List.mem_reverse.mp mem)
      rw [getLast?_filter_placesOf.mpr ⟨rfl, takes⟩] at this
      exact nomatch this
  · rintro ⟨front, back, parts, takes, none⟩
    refine ⟨back.reverse, place.2, front.reverse, ?_, getLast?_filter_placesOf.mpr ⟨rfl, takes⟩, ?_⟩
    · rw [parts]
      simp
    · intro later mem
      refine Option.eq_none_iff_forall_ne_some.mpr fun other last => ?_
      exact none later (List.mem_reverse.mp mem) (getLast?_filter_placesOf.mp last).2

/-- The numbers of the places of a ring are those that are taken. -/
theorem taken_iff {number : UInt32} :
    Taken digest replicas list.addresses number
      ↔ ∃ place ∈ (ofList digest replicas list).places, place.1 = number := by
  constructor
  · intro taken
    obtain ⟨address, owns⟩ := exists_owner taken
    exact ⟨(number, address), mem_places_iff.mpr owns, rfl⟩
  · rintro ⟨place, mem, rfl⟩
    exact (mem_places_iff.mp mem).taken

end RemoteCall.Balance.Ring

import RemoteCall.Proofs.Balance.Places

/-! # What a change of a list changes on its ring

    A key belongs to the owner of the first place that is taken at or behind
    its number, and of the smallest place where there is none (`IsNext`,
    `select_eq_some_iff`).  To remove an address gives up the places that only
    it takes, and leaves the others with their owners unless it is the owner
    (`Owns.remove`).  So the first place of a key stays the first if it has
    another owner, and a key moves only if it belongs to the address that is
    removed, or comes to the one that is inserted (`select_relocates`). -/

namespace RemoteCall.Balance.Ring

/-- A number is the first of some at or behind another one; where there is none, it is the smallest of
all. -/
def IsNext (taken : UInt32 → Prop) (number next : UInt32) : Prop :=
  taken next ∧ ((number ≤ next ∧ ∀ other, taken other → number ≤ other → next ≤ other)
    ∨ ((∀ other, taken other → other < number) ∧ ∀ other, taken other → next ≤ other))

namespace IsNext

variable {taken fewer : UInt32 → Prop} {number next : UInt32}

theorem unique {other : UInt32} (isNext : IsNext taken number next)
    (isNext' : IsNext taken number other) : next = other := by
  obtain ⟨mem, ⟨behind, least⟩ | ⟨none, least⟩⟩ := isNext
  all_goals obtain ⟨mem', ⟨behind', least'⟩ | ⟨none', least'⟩⟩ := isNext'
  · exact UInt32.le_antisymm (least other mem' behind') (least' next mem behind)
  · exact absurd (none' next mem) (UInt32.not_lt.mpr behind)
  · exact absurd (none other mem') (UInt32.not_lt.mpr behind')
  · exact UInt32.le_antisymm (least other mem') (least' next mem)

/-- What is first stays first where it is kept and others go. -/
theorem of_fewer (isNext : IsNext taken number next) (sub : ∀ other, fewer other → taken other)
    (kept : fewer next) : IsNext fewer number next := by
  refine ⟨kept, isNext.2.imp ?_ ?_⟩
  · rintro ⟨behind, least⟩
    exact ⟨behind, fun other mem => least other (sub other mem)⟩
  · rintro ⟨none, least⟩
    exact ⟨fun other mem => none other (sub other mem), fun other mem => least other (sub other mem)⟩

end IsNext

variable {digest : Digest} {replicas : Nat} {list : AddressList}

/-- The place of a number on increasing places. -/
theorem isNext_of_placeAt {ring : Ring} (increasing : ring.places.Pairwise fun a b => a.1 < b.1)
    {number : UInt32} {place : Place} (found : ring.placeAt number = some place) :
    IsNext (fun other => ∃ place ∈ ring.places, place.1 = other) number place.1 := by
  refine ⟨⟨place, mem_of_placeAt found, rfl⟩, ?_⟩
  rw [placeAt, Option.or_eq_some_iff] at found
  rcases found with found | ⟨none, found⟩
  · obtain ⟨behind, front, back, parts, before⟩ := List.find?_eq_some_iff_append.mp found
    refine .inl ⟨of_decide_eq_true behind, ?_⟩
    rintro _ ⟨other, mem, rfl⟩ behind'
    rw [parts] at mem increasing
    rcases List.mem_append.mp mem with mem | mem
    · exact absurd behind' (by simpa using before other mem)
    · rcases List.mem_cons.mp mem with rfl | mem
      · exact UInt32.le_refl _
      · have tail := (List.pairwise_append.mp increasing).2.1
        exact UInt32.le_of_lt ((List.pairwise_cons.mp tail).1 other mem)
  · obtain ⟨rest, cons⟩ := List.head?_eq_some_iff.mp found
    refine .inr ⟨?_, ?_⟩
    · rintro _ ⟨other, mem, rfl⟩
      exact UInt32.not_le.mp (by simpa using List.find?_eq_none.mp none other mem)
    · rintro _ ⟨other, mem, rfl⟩
      rw [cons] at mem increasing
      rcases List.mem_cons.mp mem with rfl | mem
      · exact UInt32.le_refl _
      · exact UInt32.le_of_lt ((List.pairwise_cons.mp increasing).1 other mem)

/-- A key belongs to the owner of the first place for its number. -/
theorem select_eq_some_iff {key address : String} :
    (ofList digest replicas list).select digest key = some address
      ↔ ∃ number, IsNext (Taken digest replicas list.addresses) (digest key 0) number
        ∧ Owns digest replicas list.addresses number address := by
  have numbers : (fun other => ∃ place ∈ (ofList digest replicas list).places, place.1 = other)
      = Taken digest replicas list.addresses :=
    funext fun number => propext taken_iff.symm
  rw [select, Option.map_eq_some_iff]
  constructor
  · rintro ⟨place, found, rfl⟩
    have isNext := isNext_of_placeAt increasing_places found
    rw [numbers] at isNext
    exact ⟨place.1, isNext, mem_places_iff.mp (mem_of_placeAt found)⟩
  · rintro ⟨number, isNext, owns⟩
    obtain ⟨place, mem, -⟩ := taken_iff.mp isNext.1
    obtain ⟨place, found⟩ := exists_placeAt (List.ne_nil_of_mem mem) (digest key 0)
    have isNext' := isNext_of_placeAt increasing_places found
    rw [numbers] at isNext'
    obtain rfl := isNext.unique isNext'
    exact ⟨place, found, Owns.unique (mem_places_iff.mp (mem_of_placeAt found)) owns⟩

theorem select_eq_none_iff {key : String} :
    (ofList digest replicas list).select digest key = none
      ↔ ∀ number, ¬ Taken digest replicas list.addresses number := by
  constructor
  · intro none number taken
    obtain ⟨place, mem, -⟩ := taken_iff.mp taken
    obtain ⟨place, found⟩ := exists_placeAt (List.ne_nil_of_mem mem) (digest key 0)
    rw [select, found] at none
    exact absurd none (Option.some_ne_none _)
  · intro free
    refine Option.eq_none_iff_forall_ne_some.mpr fun address selected => ?_
    obtain ⟨number, isNext, -⟩ := select_eq_some_iff.mp selected
    exact free number isNext.1

/-! ## Changes of a list -/

/-- An owner stays one when another address is removed. -/
theorem Owns.remove {addresses : List String} {number : UInt32} {address other : String}
    (owns : Owns digest replicas addresses number address) (apart : address ≠ other) :
    Owns digest replicas (addresses.filter (· ≠ other)) number address := by
  obtain ⟨front, back, rfl, takes, last⟩ := owns
  refine ⟨front.filter (· ≠ other), back.filter (· ≠ other), ?_, takes, fun later mem => ?_⟩
  · rw [List.filter_append, List.filter_cons_of_pos (by simpa using apart)]
  · exact last later ((List.mem_filter.mp mem).1)

theorem Taken.of_remove {addresses : List String} {number : UInt32} {other : String}
    (taken : Taken digest replicas (addresses.filter (· ≠ other)) number) :
    Taken digest replicas addresses number := by
  obtain ⟨address, mem, takes⟩ := taken
  exact ⟨address, (List.mem_filter.mp mem).1, takes⟩

/-- A key that belongs to another address stays there when an address is removed. -/
theorem select_remove {key other : String} (generation : Nat)
    (apart : (ofList digest replicas list).select digest key ≠ some other) :
    (ofList digest replicas ⟨generation, list.addresses.filter (· ≠ other)⟩).select digest key
      = (ofList digest replicas list).select digest key := by
  cases selected : (ofList digest replicas list).select digest key with
  | none =>
      have free := select_eq_none_iff.mp selected
      exact select_eq_none_iff.mpr fun number taken => free number taken.of_remove
  | some address =>
      obtain ⟨number, isNext, owns⟩ := select_eq_some_iff.mp selected
      have owns' := owns.remove fun same => apart (selected.trans (congrArg some same))
      exact select_eq_some_iff.mpr
        ⟨number, isNext.of_fewer (fun _ taken => taken.of_remove) owns'.taken, owns'⟩

/-- A key belongs to the address that is the last one to take the first place at or behind the key's
number, going around from the greatest number to the smallest. When an address is removed from the
list, no key moves but those that belong to it; when a new address is inserted anywhere, keys move to
that address only. -/
theorem select_relocates (digest : Digest) (replicas : Nat) (list : AddressList) (key : String) :
    let select := fun list => (ofList digest replicas list).select digest key
    (∀ address, select list = some address
        ↔ ∃ number, IsNext (Taken digest replicas list.addresses) (digest key 0) number
          ∧ Owns digest replicas list.addresses number address)
      ∧ (select list = none ↔ ∀ number, ¬ Taken digest replicas list.addresses number)
      ∧ (∀ removed generation address, select list = some address → address ≠ removed →
        select ⟨generation, list.addresses.filter (· ≠ removed)⟩ = some address)
      ∧ ∀ front back inserted generation, list.addresses = front ++ back →
        inserted ∉ list.addresses →
        select ⟨generation, front ++ inserted :: back⟩ ∈ [some inserted, select list] := by
  intro select
  refine ⟨fun _ => select_eq_some_iff, select_eq_none_iff, ?_, ?_⟩
  · intro removed generation address selected apart
    refine (select_remove generation fun own => apart ?_).trans selected
    exact Option.some.inj (selected.symm.trans own)
  · intro front back inserted generation parts new
    by_cases moves : select ⟨generation, front ++ inserted :: back⟩ = some inserted
    · exact List.mem_cons.mpr (.inl moves)
    · -- the list is what is left when the new address is removed again
      have rest : (front ++ inserted :: back).filter (· ≠ inserted) = list.addresses := by
        have others := fun address mem => decide_eq_true (ne_of_mem_of_not_mem (a := address) mem new)
        rw [List.filter_append, List.filter_cons_of_neg (by simp), ← List.filter_append, ← parts]
        exact List.filter_eq_self.mpr others
      have stays := select_remove list.generation moves
      rw [rest] at stays
      exact List.mem_cons.mpr (.inr (List.mem_singleton.mpr stays.symm))

end RemoteCall.Balance.Ring

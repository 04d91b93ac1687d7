import Mathlib.Data.List.Dedup
import Mathlib.Data.List.Pairwise
import RemoteCall.Proofs.Balance.Places
import RemoteCall.Proofs.Net.Ports

/-! # How many places an address owns

    An address has a number of anchors, and each has four places of its own if
    the digest tells the anchors of a list apart (`TellsApart`).  So a ring has
    four places for each of the different anchors, and an address owns four
    for each anchor that no address behind it has, too (`length_places`,
    `length_owned`).

    An anchor is an address with a number right behind it.  Two of them are the
    same where one address is the other one with digits behind it, and these
    digits begin the number of the other one (`anchor_eq_iff`).  The ports of
    socket addresses can be like this, and then the second address loses
    places to the first one, or the first to the second (`shares_anchors`);
    all other addresses have their full number of places
    (`full_iff_not_shares`). -/

namespace RemoteCall.Balance.Ring

/-! ## Anchors -/

/-- The anchors of an address. -/
def anchorsOf (replicas : Nat) (address : String) : List String :=
  (List.range (replicas / 4)).map (anchor address)

/-- The anchors of some addresses. -/
def anchors (replicas : Nat) (addresses : List String) : List String :=
  addresses.flatMap (anchorsOf replicas)

/-- An address is another one with digits behind it, and these digits and one number spell another
number. -/
def Continues (address : String) (i : Nat) (other : String) (j : Nat) : Prop :=
  ∃ digits, digits ≠ "" ∧ address = other ++ digits ∧ toString j = digits ++ toString i

/-- One of some addresses continues another one, with numbers of their anchors. -/
def Shares (replicas : Nat) (addresses : List String) : Prop :=
  ∃ address ∈ addresses, ∃ i < replicas / 4, ∃ other ∈ addresses, ∃ j < replicas / 4,
    Continues address i other j

theorem toString_inj {i j : Nat} (same : toString i = toString j) : i = j := by
  have digits := congrArg (fun text : String => Decimal.digitsFrom 0 text.toList) same
  simp only [Decimal.toList_toString, Decimal.digitsFrom_toDigits] at digits
  exact Option.some.inj digits

theorem Continues.anchor_eq {address other : String} {i j : Nat}
    (continues : Continues address i other j) : anchor address i = anchor other j := by
  obtain ⟨digits, -, rfl, number⟩ := continues
  rw [anchor, anchor, number, String.append_assoc]

/-- Texts that are followed by a number come to the same where the longer one goes on with digits. -/
theorem continues_of_append {address other : String} {i j : Nat} {digits : List Char}
    (long : address.toList = other.toList ++ digits)
    (rest : (toString j).toList = digits ++ (toString i).toList) :
    (address = other ∧ i = j) ∨ Continues address i other j := by
  rw [← String.toList_ofList (l := digits), ← String.toList_append, String.toList_inj] at long rest
  by_cases none : String.ofList digits = ""
  · rw [none, String.append_empty] at long
    rw [none, String.empty_append] at rest
    exact .inl ⟨long, (toString_inj rest).symm⟩
  · exact .inr ⟨_, none, long, rest⟩

/-- Two anchors are the same only where they have the same address and number, or one of the addresses
continues the other one. -/
theorem anchor_eq_iff {address other : String} {i j : Nat} :
    anchor address i = anchor other j
      ↔ (address = other ∧ i = j) ∨ Continues address i other j ∨ Continues other j address i := by
  constructor
  · intro same
    have texts := congrArg String.toList same
    rw [anchor, anchor, String.toList_append, String.toList_append] at texts
    rcases List.append_eq_append_iff.mp texts with ⟨digits, long, rest⟩ | ⟨digits, long, rest⟩
    · exact (continues_of_append long rest).imp (fun ⟨same, number⟩ => ⟨same.symm, number.symm⟩)
        .inr
    · exact (continues_of_append long rest).imp_right .inl
  · rintro (⟨rfl, rfl⟩ | continues | continues)
    · rfl
    · exact continues.anchor_eq
    · exact continues.anchor_eq.symm

theorem Continues.ne {address other : String} {i j : Nat}
    (continues : Continues address i other j) : address ≠ other := by
  obtain ⟨digits, some, rfl, -⟩ := continues
  intro same
  have length := congrArg String.length same
  rw [String.length_append] at length
  exact some (String.length_eq_zero_iff.mp (by omega))

theorem anchor_injective (address : String) : Function.Injective (anchor address) := by
  intro i j same
  rcases anchor_eq_iff.mp same with ⟨-, number⟩ | continues | continues
  · exact number
  · exact absurd rfl continues.ne
  · exact absurd rfl continues.ne

variable {replicas : Nat} {addresses : List String} {address : String}

theorem mem_anchorsOf_iff {text : String} :
    text ∈ anchorsOf replicas address ↔ ∃ i < replicas / 4, anchor address i = text := by
  rw [anchorsOf, List.mem_map]
  exact exists_congr fun i => and_congr_left fun _ => List.mem_range

theorem length_anchorsOf (replicas : Nat) (address : String) :
    (anchorsOf replicas address).length = replicas / 4 := by
  rw [anchorsOf, List.length_map, List.length_range]

theorem length_anchors (replicas : Nat) (addresses : List String) :
    (anchors replicas addresses).length = replicas / 4 * addresses.length := by
  rw [anchors, List.length_flatMap]
  simp only [length_anchorsOf]
  rw [List.map_const', List.sum_replicate_nat, Nat.mul_comm]

theorem nodup_anchorsOf : (anchorsOf replicas address).Nodup :=
  List.nodup_range.map (anchor_injective address)

/-- The anchors of different addresses are different, unless one of the addresses continues another. -/
theorem nodup_anchors_iff (distinct : addresses.Nodup) :
    (anchors replicas addresses).Nodup ↔ ¬ Shares replicas addresses := by
  rw [anchors, List.nodup_flatMap]
  constructor
  · rintro ⟨-, disjoint⟩ ⟨address, mem, i, less, other, mem', j, less', continues⟩
    have : Std.Symm (Function.onFun List.Disjoint (anchorsOf replicas)) :=
      ⟨fun _ _ disjoint => disjoint.symm⟩
    exact disjoint.forall mem mem' continues.ne
      (mem_anchorsOf_iff.mpr ⟨i, less, rfl⟩)
      (mem_anchorsOf_iff.mpr ⟨j, less', continues.anchor_eq.symm⟩)
  · intro alone
    refine ⟨fun _ _ => nodup_anchorsOf, distinct.imp_of_mem fun {address other} mem mem' apart => ?_⟩
    intro text here there
    obtain ⟨i, less, rfl⟩ := mem_anchorsOf_iff.mp here
    obtain ⟨j, less', same⟩ := mem_anchorsOf_iff.mp there
    rcases anchor_eq_iff.mp same with ⟨same, -⟩ | continues | continues
    · exact apart same.symm
    · exact alone ⟨other, mem', j, less', address, mem, i, less, continues⟩
    · exact alone ⟨address, mem, i, less, other, mem', j, less', continues⟩

/-! ## Windows -/

/-- The windows of a text that make places. -/
def windows (digest : Digest) (text : String) : List UInt32 :=
  (List.range 4).map (digest text)

/-- The windows of the anchors of some addresses are all different, but for those of equal anchors. -/
def TellsApart (digest : Digest) (replicas : Nat) (addresses : List String) : Prop :=
  ∀ text ∈ anchors replicas addresses, ∀ other ∈ anchors replicas addresses,
    ∀ window < 4, ∀ window' < 4, digest text window = digest other window' →
      text = other ∧ window = window'

variable {digest : Digest}

theorem mem_windows_iff {text : String} {number : UInt32} :
    number ∈ windows digest text ↔ ∃ window < 4, digest text window = number := by
  rw [windows, List.mem_map]
  exact exists_congr fun window => and_congr_left fun _ => List.mem_range

theorem takes_iff {number : UInt32} :
    Takes digest replicas address number ↔ ∃ text ∈ anchorsOf replicas address,
      number ∈ windows digest text := by
  constructor
  · rintro ⟨i, less, window⟩
    exact ⟨_, mem_anchorsOf_iff.mpr ⟨i, less, rfl⟩, mem_windows_iff.mpr window⟩
  · rintro ⟨text, mem, window⟩
    obtain ⟨i, less, rfl⟩ := mem_anchorsOf_iff.mp mem
    exact ⟨i, less, mem_windows_iff.mp window⟩

theorem taken_iff_anchors {number : UInt32} :
    Taken digest replicas addresses number ↔ ∃ text ∈ anchors replicas addresses,
      number ∈ windows digest text := by
  constructor
  · rintro ⟨address, mem, takes⟩
    obtain ⟨text, mem', window⟩ := takes_iff.mp takes
    exact ⟨text, List.mem_flatMap.mpr ⟨address, mem, mem'⟩, window⟩
  · rintro ⟨text, mem, window⟩
    obtain ⟨address, mem, mem'⟩ := List.mem_flatMap.mp mem
    exact ⟨address, mem, takes_iff.mpr ⟨text, mem', window⟩⟩

namespace TellsApart

variable (apart : TellsApart digest replicas addresses)
include apart

/-- A number is a window of one anchor. -/
theorem text_eq {text other : String} (mem : text ∈ anchors replicas addresses)
    (mem' : other ∈ anchors replicas addresses) {number : UInt32}
    (window : number ∈ windows digest text) (window' : number ∈ windows digest other) :
    text = other := by
  obtain ⟨v, less, rfl⟩ := mem_windows_iff.mp window
  obtain ⟨w, less', same⟩ := mem_windows_iff.mp window'
  exact (apart text mem other mem' v less w less' same.symm).1

theorem nodup_windows {texts : List String} (sub : texts ⊆ anchors replicas addresses)
    (nodup : texts.Nodup) : (texts.flatMap (windows digest)).Nodup := by
  refine List.nodup_flatMap.mpr ⟨fun text mem => ?_, ?_⟩
  · refine List.Nodup.map_on (fun v less w less' same => ?_) List.nodup_range
    exact (apart text (sub mem) text (sub mem) v (List.mem_range.mp less) w
      (List.mem_range.mp less') same).2
  · refine nodup.imp_of_mem fun mem mem' differ number window window' => ?_
    exact differ (apart.text_eq (sub mem) (sub mem') window window')

/-- Numbers that are exactly the windows of some anchors are four for each of these. -/
theorem length_eq {texts : List String} (sub : texts ⊆ anchors replicas addresses)
    (nodup : texts.Nodup) {numbers : List UInt32} (nodup' : numbers.Nodup)
    (same : ∀ number, number ∈ numbers ↔ ∃ text ∈ texts, number ∈ windows digest text) :
    numbers.length = 4 * texts.length := by
  have perm : numbers.Perm (texts.flatMap (windows digest)) :=
    (List.perm_ext_iff_of_nodup nodup' (apart.nodup_windows sub nodup)).mpr fun number =>
      (same number).trans List.mem_flatMap.symm
  rw [perm.length_eq, List.length_flatMap]
  simp only [windows, List.length_map, List.length_range]
  rw [List.map_const', List.sum_replicate_nat, Nat.mul_comm]

end TellsApart

/-- The digest that numbers the windows of some texts. -/
def numbering (texts : List String) : Digest :=
  fun text window => UInt32.ofNat (4 * texts.idxOf text + window)

/-- There are enough numbers to tell apart some anchors. -/
theorem tellsApart_numbering (fits : 4 * (anchors replicas addresses).length ≤ 2 ^ 32) :
    TellsApart (numbering (anchors replicas addresses)) replicas addresses := by
  intro text mem other mem' v less w less' same
  have below := List.idxOf_lt_length_of_mem mem
  have below' := List.idxOf_lt_length_of_mem mem'
  have numbers := congrArg UInt32.toNat same
  rw [numbering, numbering, UInt32.toNat_ofNat_of_lt' (by rw [UInt32.size]; omega),
    UInt32.toNat_ofNat_of_lt' (by rw [UInt32.size]; omega)] at numbers
  exact ⟨(List.idxOf_inj mem).mp (by omega), by omega⟩

/-! ## Places -/

variable {list : AddressList}

theorem nodup_numbers : ((ofList digest replicas list).places.map (·.1)).Nodup := by
  rw [List.Nodup, List.pairwise_map]
  exact increasing_places.imp fun less => UInt32.ne_of_lt less

/-- A ring has four places for each of the different anchors. -/
theorem length_places (apart : TellsApart digest replicas list.addresses) :
    (ofList digest replicas list).places.length
      = 4 * (anchors replicas list.addresses).dedup.length := by
  rw [← List.length_map (·.1)]
  refine apart.length_eq (List.dedup_subset _) (List.nodup_dedup _) nodup_numbers fun number => ?_
  simp only [List.mem_map, List.mem_dedup]
  exact taken_iff.symm.trans taken_iff_anchors

/-- The owner of a place among different addresses is the one that takes it and that no later one
takes, too. -/
theorem owns_append_iff {front back : List String} {number : UInt32}
    (distinct : (front ++ address :: back).Nodup) :
    Owns digest replicas (front ++ address :: back) number address
      ↔ Takes digest replicas address number ∧ ¬ Taken digest replicas back number := by
  induction front with
  | nil =>
      have alone := (List.nodup_cons.mp distinct).1
      rw [List.nil_append, owns_cons_iff]
      constructor
      · rintro (owns | ⟨-, owns⟩)
        · exact absurd owns.mem alone
        · exact owns
      · exact fun owns => .inr ⟨rfl, owns⟩
  | cons first front ih =>
      obtain ⟨new, distinct⟩ := List.nodup_cons.mp distinct
      rw [List.cons_append, owns_cons_iff, ← ih distinct]
      refine or_iff_left fun owns => new ?_
      exact owns.1 ▸ List.mem_append_cons_self

/-- An address has four places for each anchor that no address behind it has, too. -/
theorem length_owned (distinct : list.addresses.Nodup)
    (apart : TellsApart digest replicas list.addresses) {front back : List String}
    (parts : list.addresses = front ++ address :: back) :
    ((ofList digest replicas list).places.filter (·.2 = address)).length
      = 4 * ((anchorsOf replicas address).filter (· ∉ anchors replicas back)).length := by
  have within : anchorsOf replicas address ⊆ anchors replicas list.addresses := fun text mem =>
    List.mem_flatMap.mpr ⟨address, parts ▸ List.mem_append_cons_self, mem⟩
  have behind : anchors replicas back ⊆ anchors replicas list.addresses := by
    intro text mem
    obtain ⟨other, known, mem⟩ := List.mem_flatMap.mp mem
    refine List.mem_flatMap.mpr ⟨other, ?_, mem⟩
    rw [parts]
    exact List.mem_append_right _ (.tail _ known)
  rw [← List.length_map (·.1)]
  refine apart.length_eq (fun text mem => within (List.mem_filter.mp mem).1)
    (nodup_anchorsOf.filter _) (nodup_numbers.sublist (List.filter_sublist.map _)) fun number => ?_
  have owned : number ∈ ((ofList digest replicas list).places.filter (·.2 = address)).map (·.1)
      ↔ Owns digest replicas list.addresses number address := by
    rw [List.mem_map]
    constructor
    · rintro ⟨place, mem, rfl⟩
      obtain ⟨mem, own⟩ := List.mem_filter.mp mem
      exact of_decide_eq_true own ▸ mem_places_iff.mp mem
    · intro owns
      exact ⟨(number, address), List.mem_filter.mpr ⟨mem_places_iff.mpr owns, by simp⟩, rfl⟩
  rw [owned, parts, owns_append_iff (parts ▸ distinct), takes_iff, taken_iff_anchors]
  constructor
  · rintro ⟨⟨text, mem, window⟩, last⟩
    refine ⟨text, List.mem_filter.mpr ⟨mem, decide_eq_true fun later => ?_⟩, window⟩
    exact last ⟨text, later, window⟩
  · rintro ⟨text, mem, window⟩
    obtain ⟨mem, last⟩ := List.mem_filter.mp mem
    refine ⟨⟨text, mem, window⟩, fun ⟨other, later, window'⟩ => ?_⟩
    obtain rfl := apart.text_eq (within mem) (behind later) window window'
    exact of_decide_eq_true last later

/-! ## Full rings -/

/-- The port of a socket address continues the port of another one if the address continues the other
one, and the hosts are the same then. -/
theorem Continues.port {address other : SocketAddress} {i j : Nat}
    (continues : Continues address.text i other.text j) :
    address.hostText = other.hostText ∧ Continues address.portText i other.portText j := by
  obtain ⟨digits, some, same, number⟩ := continues
  have noColon : ':' ∉ digits.toList := by
    intro mem
    refine SocketAddress.colon_not_mem_toString j ?_
    rw [number, String.toList_append]
    exact List.mem_append_left _ mem
  obtain ⟨hosts, ports⟩ := SocketAddress.port_of_text_append noColon same
  exact ⟨hosts, digits, some, ports, number⟩

/-- An address has less than its places if an address behind it has one of its anchors. -/
theorem length_kept_lt {back : List String} {text : String}
    (mem : text ∈ anchorsOf replicas address) (later : text ∈ anchors replicas back) :
    ((anchorsOf replicas address).filter (· ∉ anchors replicas back)).length < replicas / 4 := by
  rw [← length_anchorsOf replicas address]
  refine List.length_filter_lt_length_iff_exists.mpr ⟨text, mem, ?_⟩
  simpa using later

theorem length_kept_of_not_shares (alone : ¬ Shares replicas addresses) (distinct : addresses.Nodup)
    {front back : List String} (parts : addresses = front ++ address :: back) :
    ((anchorsOf replicas address).filter (· ∉ anchors replicas back)).length = replicas / 4 := by
  have nodup := (nodup_anchors_iff distinct).mpr alone
  rw [parts, anchors, List.flatMap_append, List.flatMap_cons] at nodup
  have disjoint := (List.nodup_append.mp (List.nodup_append.mp nodup).2.1).2.2
  rw [List.filter_eq_self.mpr, length_anchorsOf]
  exact fun text mem => decide_eq_true fun later => disjoint text mem text later rfl

/-- An address of a list loses places if it shares an anchor with an address behind it. -/
theorem exists_loser (shares : Shares replicas addresses) :
    ∃ front address back, addresses = front ++ address :: back
      ∧ ((anchorsOf replicas address).filter (· ∉ anchors replicas back)).length < replicas / 4 := by
  obtain ⟨address, mem, i, less, other, mem', j, less', continues⟩ := shares
  have here : anchor address i ∈ anchorsOf replicas address := mem_anchorsOf_iff.mpr ⟨i, less, rfl⟩
  have there : anchor address i ∈ anchorsOf replicas other :=
    mem_anchorsOf_iff.mpr ⟨j, less', continues.anchor_eq.symm⟩
  obtain ⟨front, back, rfl⟩ := List.append_of_mem mem
  rcases List.mem_append.mp mem' with before | behind
  · obtain ⟨front, between, rfl⟩ := List.append_of_mem before
    refine ⟨front, other, between ++ address :: back, by simp, length_kept_lt there ?_⟩
    exact List.mem_flatMap.mpr ⟨address, List.mem_append_cons_self, here⟩
  · have later := (List.mem_cons.mp behind).resolve_left fun same => continues.ne same.symm
    refine ⟨front, address, back, rfl, length_kept_lt here ?_⟩
    exact List.mem_flatMap.mpr ⟨other, later, there⟩

/-- A ring of different addresses has four places for each of the different anchors, and an address
owns four for each of its anchors that no address behind it has. The ring has four places for each
anchor of each address exactly if no address continues another one with numbers of anchors, and then
each address owns all of its own; socket addresses do so only if they have the same host and their
ports do. -/
theorem full_iff_not_shares (digest : Digest) (replicas : Nat) (list : AddressList)
    (distinct : list.addresses.Nodup) (apart : TellsApart digest replicas list.addresses) :
    let places := (ofList digest replicas list).places
    let owned := fun address => (places.filter (·.2 = address)).length
    places.length = 4 * (anchors replicas list.addresses).dedup.length
      ∧ (∀ front address back, list.addresses = front ++ address :: back →
        owned address
          = 4 * ((anchorsOf replicas address).filter (· ∉ anchors replicas back)).length)
      ∧ (places.length = 4 * (replicas / 4) * list.addresses.length
        ↔ ¬ Shares replicas list.addresses)
      ∧ ((∀ address ∈ list.addresses, owned address = 4 * (replicas / 4))
        ↔ ¬ Shares replicas list.addresses)
      ∧ (∀ address i other j, anchor address i = anchor other j
        ↔ (address = other ∧ i = j) ∨ Continues address i other j ∨ Continues other j address i)
      ∧ ∀ address other : SocketAddress, ∀ i j, Continues address.text i other.text j →
        address.hostText = other.hostText ∧ Continues address.portText i other.portText j := by
  intro places owned
  have total : places.length = 4 * (anchors replicas list.addresses).dedup.length :=
    length_places apart
  have each {front address back} (parts : list.addresses = front ++ address :: back) :
      owned address
        = 4 * ((anchorsOf replicas address).filter (· ∉ anchors replicas back)).length :=
    length_owned distinct apart parts
  refine ⟨total, fun _ _ _ => each, ?_, ?_, fun _ _ _ _ => anchor_eq_iff,
    fun _ _ _ _ => Continues.port⟩
  · have whole := length_anchors replicas list.addresses
    rw [total, ← nodup_anchors_iff distinct, ← List.dedup_eq_self, Nat.mul_assoc, ← whole]
    constructor
    · intro full
      exact (List.dedup_sublist _).eq_of_length (by omega)
    · intro full
      rw [full]
  · constructor
    · intro full shares
      obtain ⟨front, address, back, parts, loses⟩ := exists_loser shares
      have own := full address (parts ▸ List.mem_append_cons_self)
      rw [each parts] at own
      omega
    · intro alone address mem
      obtain ⟨front, back, parts⟩ := List.append_of_mem mem
      rw [each parts, length_kept_of_not_shares alone distinct parts]

/-- A digit zero behind an address makes no difference, as no number begins with it. -/
theorem full_iff_not_shares_zero :
    let addresses := ["127.0.0.1:1", "127.0.0.1:10"]
    let digest := numbering (anchors 44 addresses)
    addresses.Nodup ∧ TellsApart digest 44 addresses
      ∧ (ofList digest 44 ⟨1, addresses⟩).places.length = 88 := by
  intro addresses digest
  have distinct : addresses.Nodup := by decide
  have apart : TellsApart digest 44 addresses :=
    tellsApart_numbering (by rw [length_anchors]; decide)
  have different : (anchors 44 addresses).dedup.length = 22 := by decide +kernel
  refine ⟨distinct, apart, ?_⟩
  rw [(full_iff_not_shares digest 44 ⟨1, addresses⟩ distinct apart).1, different]

/-- Two socket addresses, of which one is the other one with a digit behind it, share ten of their
forty anchors, so that the first one loses forty of its places, whatever the digest. -/
theorem shares_anchors :
    let addresses := ["127.0.0.1:1", "127.0.0.1:11"]
    addresses.Nodup ∧ (∀ address ∈ addresses, ∃ socket : SocketAddress, socket.text = address)
      ∧ anchor "127.0.0.1:1" 10 = anchor "127.0.0.1:11" 0
      ∧ (∃ digest, TellsApart digest 160 addresses)
      ∧ ∀ digest, TellsApart digest 160 addresses →
        let places := (ofList digest 160 ⟨1, addresses⟩).places
        places.length = 280 ∧ 280 < 4 * (160 / 4) * addresses.length
          ∧ (places.filter (·.2 = "127.0.0.1:1")).length = 120 := by
  intro addresses
  have distinct : addresses.Nodup := by decide
  -- the anchors are those of the common front, with numbers of several digits
  have first : anchorsOf 160 "127.0.0.1:1"
      = (List.range' 10 10 ++ List.range' 110 30).map (anchor "127.0.0.1:") := by
    decide +kernel
  have second : anchorsOf 160 "127.0.0.1:11"
      = (List.range' 110 10 ++ List.range' 1110 30).map (anchor "127.0.0.1:") := by
    decide +kernel
  refine ⟨distinct, ?_, by decide, ⟨_, tellsApart_numbering ?_⟩, fun digest apart => ?_⟩
  · intro address mem
    simp only [addresses, List.mem_cons, List.not_mem_nil, or_false] at mem
    rcases mem with rfl | rfl
    · exact ⟨⟨.v4 127 0 0 1, 1, 0⟩, by decide⟩
    · exact ⟨⟨.v4 127 0 0 1, 11, 0⟩, by decide⟩
  · rw [length_anchors]
    decide
  · refine ⟨?_, by decide, ?_⟩
    · rw [length_places apart, anchors, List.flatMap_cons, List.flatMap_singleton, first, second,
        ← List.map_append, List.dedup_map_of_injective (anchor_injective _), List.length_map]
      decide +kernel
    · rw [length_owned distinct apart (List.nil_append _).symm, anchors, List.flatMap_singleton,
        first, second, List.filter_map, List.length_map]
      simp only [Function.comp_def, List.mem_map_of_injective (anchor_injective _)]
      decide +kernel

end RemoteCall.Balance.Ring

import RemoteCall.Net.SocketAddress
import RemoteCall.Proofs.Decimal.Printed
import RemoteCall.Proofs.Directory.Paths

/-! # Addresses are names

    The text of a socket address consists of digits, points, colons, brackets
    and a percent sign.  There is no slash among them, so the text can be the
    name of a node (`SocketAddress.isName_text`). -/

namespace RemoteCall

open Directory.Path

theorem digitChar_ne_slash : ∀ n < 16, Nat.digitChar n ≠ '/' := by
  decide

theorem slash_not_mem_toDigits {base : Nat} (more : 1 < base) (most : base ≤ 16) (n : Nat) :
    '/' ∉ Nat.toDigits base n := by
  intro mem
  obtain ⟨d, less, same⟩ := Decimal.exists_digitChar_of_mem_toDigits more mem
  exact digitChar_ne_slash d (Nat.lt_of_lt_of_le less most) same.symm

theorem slash_not_mem_toString (n : Nat) : '/' ∉ (toString n).toList := by
  rw [Nat.toString_eq_ofList_toDigits, String.toList_ofList]
  exact slash_not_mem_toDigits (by decide) (by decide) n

/-- What stands in joined texts stands in one of them or between them. -/
theorem mem_intercalate {α : Type} {separator : List α} {parts : List (List α)} {a : α}
    (mem : a ∈ separator.intercalate parts) : a ∈ separator ∨ ∃ part ∈ parts, a ∈ part := by
  induction parts with
  | nil => exact nomatch mem
  | cons part parts ih =>
      cases parts with
      | nil =>
          rw [List.intercalate_singleton] at mem
          exact .inr ⟨part, .head _, mem⟩
      | cons next parts =>
          rw [List.intercalate_cons_cons, List.append_assoc, List.mem_append,
            List.mem_append] at mem
          rcases mem with mem | mem | mem
          · exact .inr ⟨part, .head _, mem⟩
          · exact .inl mem
          · rcases ih mem with between | ⟨other, known, mem⟩
            · exact .inl between
            · exact .inr ⟨other, .tail _ known, mem⟩

theorem slash_not_mem_intercalate {separator : String} {texts : List String}
    (between : '/' ∉ separator.toList) (each : ∀ text ∈ texts, '/' ∉ text.toList) :
    '/' ∉ (separator.intercalate texts).toList := by
  intro mem
  rw [String.toList_intercalate] at mem
  rcases mem_intercalate mem with mem | ⟨part, known, mem⟩
  · exact between mem
  · obtain ⟨text, among, rfl⟩ := List.mem_map.mp known
    exact each text among mem

namespace HostAddress

theorem slash_not_mem_pointText (a b c d : UInt8) : '/' ∉ (pointText a b c d).toList := by
  refine slash_not_mem_intercalate (by decide) ?_
  intro text mem
  obtain ⟨octet, -, rfl⟩ := List.mem_map.mp mem
  exact slash_not_mem_toString octet.toNat

theorem slash_not_mem_colonText (groups : List UInt16) : '/' ∉ (colonText groups).toList := by
  refine slash_not_mem_intercalate (by decide) ?_
  intro text mem
  obtain ⟨group, -, rfl⟩ := List.mem_map.mp mem
  rw [hex, String.toList_ofList]
  exact slash_not_mem_toDigits (by decide) (by decide) group.toNat

theorem slash_not_mem_groupsText (groups : List UInt16) : '/' ∉ (groupsText groups).toList := by
  unfold groupsText
  split
  · rw [String.toList_append, List.mem_append, not_or]
    exact ⟨by decide, slash_not_mem_pointText _ _ _ _⟩
  · dsimp only
    split
    · rw [String.toList_append, String.toList_append, List.mem_append, List.mem_append, not_or,
        not_or]
      exact ⟨⟨slash_not_mem_colonText _, by decide⟩, slash_not_mem_colonText _⟩
    · exact slash_not_mem_colonText groups

end HostAddress

/-- The text of an address can be the name of a node. -/
theorem SocketAddress.isName_text (address : SocketAddress) : IsName address.text := by
  obtain ⟨host, port, scope⟩ := address
  have portText : '/' ∉ (":" ++ toString port.toNat).toList := by
    rw [String.toList_append, List.mem_append, not_or]
    exact ⟨by decide, slash_not_mem_toString _⟩
  have scopeText : '/' ∉ (if scope = 0 then "" else "%" ++ toString scope.toNat).toList := by
    split
    · exact List.not_mem_nil
    · rw [String.toList_append, List.mem_append, not_or]
      exact ⟨by decide, slash_not_mem_toString _⟩
  have ends (front : String) (noSlash : '/' ∉ front.toList) :
      IsName (front ++ (":" ++ toString port.toNat)) := by
    constructor
    · intro empty
      rw [← String.toList_eq_nil_iff, String.toList_append, String.toList_append] at empty
      simp at empty
    · rw [String.toList_append, List.mem_append, not_or]
      exact ⟨noSlash, portText⟩
  cases host with
  | v4 a b c d => exact ends _ (HostAddress.slash_not_mem_pointText a b c d)
  | v6 groups =>
      refine ends _ ?_
      simp only [String.toList_append, List.mem_append, not_or]
      exact ⟨⟨⟨by decide, HostAddress.slash_not_mem_groupsText _⟩, scopeText⟩, by decide⟩

end RemoteCall

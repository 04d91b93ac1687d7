import RemoteCall.Bytes

/-! # The order of texts is the order of their bytes

    Texts are compared character by character.  UTF-8 keeps that order: of two
    characters the lesser one has a lesser sequence of bytes, whatever stands
    behind (`encoded_lt`), so that texts compare like their bytes
    (`ofText_lt_ofText`). -/

namespace RemoteCall.Bytes

/-- The bytes of a text are those of its characters. -/
theorem ofText_eq_flatMap (text : String) :
    ofText text = text.toList.flatMap String.utf8EncodeChar := by
  obtain ⟨characters, rfl⟩ : ∃ characters, text = String.ofList characters :=
    ⟨text.toList, String.ofList_toList.symm⟩
  rw [ofText, String.toByteArray_ofList, String.toList_ofList, List.utf8Encode,
    List.toList_data_toByteArray]

/-- Bytes compare like the numbers that they stand for. -/
theorem ofNat_cons_lt_iff {m n : Nat} (hm : m < 256) (hn : n < 256) (x y : Bytes) :
    UInt8.ofNat m :: x < UInt8.ofNat n :: y ↔ m < n ∨ m = n ∧ x < y := by
  have left : (UInt8.ofNat m).toNat = m := UInt8.toNat_ofNat_of_lt' hm
  have right : (UInt8.ofNat n).toNat = n := UInt8.toNat_ofNat_of_lt' hn
  rw [List.cons_lt_cons_iff, UInt8.lt_iff_toNat_lt, ← UInt8.toNat_inj, left, right]

/-- Of two characters, the lesser one comes first in UTF-8. -/
theorem encoded_lt {c d : Char} (less : c < d) (x y : Bytes) :
    String.utf8EncodeChar c ++ x < String.utf8EncodeChar d ++ y := by
  have order : c.val.toNat < d.val.toNat := less
  have top : d.val.toNat < 0x110000 := by
    rcases d.valid with low | ⟨_, high⟩
    · exact Nat.lt_trans low (by decide)
    · exact high
  -- a number is spelled by its digits to the base 64
  have second (v : Nat) : v / 4096 = v / 64 / 64 := by omega
  have third (v : Nat) : v / 262144 = v / 64 / 64 / 64 := by omega
  -- a character that takes more bytes has a greater first byte, and else the digits decide
  fun_cases String.utf8EncodeChar c <;> fun_cases String.utf8EncodeChar d <;>
    simp (disch := omega) only [List.cons_append, ofNat_cons_lt_iff, second, third] <;> omega

theorem flatMap_lt_flatMap {a b : List Char} (less : a < b) :
    a.flatMap String.utf8EncodeChar < b.flatMap String.utf8EncodeChar := by
  induction a generalizing b with
  | nil =>
      cases b with
      | nil => exact absurd less (List.not_lt_nil _)
      | cons d b =>
          obtain ⟨first, others, spelled⟩ := List.exists_cons_of_ne_nil
            (List.ne_nil_of_length_pos (String.length_utf8EncodeChar d ▸ d.utf8Size_pos))
          rw [List.flatMap_cons, spelled]
          exact List.nil_lt_cons ..
  | cons c a ih =>
      cases b with
      | nil => exact absurd less (List.not_lt_nil _)
      | cons d b =>
          rw [List.flatMap_cons, List.flatMap_cons]
          rcases List.cons_lt_cons_iff.mp less with lesser | ⟨rfl, lesser⟩
          · exact encoded_lt lesser _ _
          · exact List.append_left_lt (ih lesser)

/-- Texts compare like their bytes. -/
theorem ofText_lt_ofText {a b : String} (less : a < b) : ofText a < ofText b := by
  rw [ofText_eq_flatMap, ofText_eq_flatMap]
  exact flatMap_lt_flatMap less

end RemoteCall.Bytes

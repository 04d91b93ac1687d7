import RemoteCall.Decimal.Integer
import RemoteCall.Text.Category

/-! # Numbers that are printed and read again

    A printed number is a run of digits, without a sign and without a blank
    (`plain_of_mem_toDigits`).  A reader of signed numbers gets it back if half
    of the range is enough for it, and finds no number otherwise
    (`int?_toString`): the other half is for the negative numbers. -/

namespace RemoteCall

namespace Decimal

/-! ## Digits -/

theorem digit?_digitChar : ∀ n < 10, digit? (Nat.digitChar n) = some n := by
  decide

/-- Digits are read one after another. -/
theorem digitsFrom_append (n : Nat) (front back : List Char) :
    digitsFrom n (front ++ back) = (digitsFrom n front).bind fun m => digitsFrom m back := by
  induction front generalizing n with
  | nil => rfl
  | cons c front ih =>
      rw [List.cons_append, digitsFrom, digitsFrom]
      cases digit? c with
      | none => rfl
      | some d => exact ih (10 * n + d)

theorem digitsFrom_toDigits (n : Nat) : digitsFrom 0 (Nat.toDigits 10 n) = some n := by
  induction n using Nat.strongRecOn with
  | ind n ih =>
      rw [Nat.toDigits_eq_if (by decide)]
      by_cases less : n < 10
      · rw [if_pos less, digitsFrom, digit?_digitChar n less]
        exact congrArg some (by omega)
      · have digit := digit?_digitChar (n % 10) (Nat.mod_lt n (by decide))
        rw [if_neg less, digitsFrom_append, ih _ (Nat.div_lt_self (by omega) (by decide)),
          Option.bind_some, digitsFrom, digit]
        exact congrArg some (Nat.div_add_mod n 10)

/-- A printed number begins with a digit. -/
theorem toDigits_ne_nil (n : Nat) : Nat.toDigits 10 n ≠ [] := by
  rw [Nat.toDigits_eq_if (by decide)]
  split
  · exact List.cons_ne_nil _ _
  · exact List.append_ne_nil_of_right_ne_nil _ (List.cons_ne_nil _ _)

theorem digits?_toDigits (n : Nat) : digits? (Nat.toDigits 10 n) = some n := by
  have read := digitsFrom_toDigits n
  rw [digits?.eq_def]
  split
  · next none => exact absurd none (toDigits_ne_nil n)
  · exact read

theorem exists_digitChar_of_mem_toDigits {base n : Nat} {c : Char} (more : 1 < base)
    (mem : c ∈ Nat.toDigits base n) : ∃ d < base, c = Nat.digitChar d := by
  induction n using Nat.strongRecOn with
  | ind n ih =>
      rw [Nat.toDigits_eq_if more] at mem
      split at mem
      · next less => exact ⟨n, less, List.mem_singleton.mp mem⟩
      · next long =>
          rcases List.mem_append.mp mem with mem | mem
          · exact ih _ (Nat.div_lt_self (by omega) more) mem
          · exact ⟨n % base, Nat.mod_lt n (by omega), List.mem_singleton.mp mem⟩

/-- No digit is a sign or a blank. -/
theorem digitChar_plain : ∀ d < 10, Nat.digitChar d ≠ '-' ∧ Nat.digitChar d ≠ '+'
    ∧ Text.isBlank (Nat.digitChar d) = false := by
  decide

theorem plain_of_mem_toDigits {n : Nat} {c : Char} (mem : c ∈ Nat.toDigits 10 n) :
    c ≠ '-' ∧ c ≠ '+' ∧ Text.isBlank c = false := by
  obtain ⟨d, less, rfl⟩ := exists_digitChar_of_mem_toDigits (by decide) mem
  exact digitChar_plain d less

end Decimal

/-! ## Texts -/

namespace Text

theorem dropWhile_of_not_blank {chars : List Char}
    (plain : ∀ c ∈ chars, isBlank c = false) : chars.dropWhile isBlank = chars := by
  cases chars with
  | nil => rfl
  | cons c rest => exact List.dropWhile_cons_of_neg (Bool.eq_false_iff.mp (plain c (.head _)))

/-- There is nothing to trim where nothing is blank. -/
theorem trim_of_not_blank {text : String} (plain : ∀ c ∈ text.toList, isBlank c = false) :
    trim text = text := by
  have reversed : ∀ c ∈ text.toList.reverse, isBlank c = false := by
    intro c mem
    exact plain c (List.mem_reverse.mp mem)
  rw [trim, trimChars, dropWhile_of_not_blank plain, dropWhile_of_not_blank reversed,
    List.reverse_reverse, String.ofList_toList]

theorem trim_toString (n : Nat) : trim (toString n) = toString n := by
  refine trim_of_not_blank fun c mem => ?_
  rw [Nat.toString_eq_ofList_toDigits, String.toList_ofList] at mem
  exact (Decimal.plain_of_mem_toDigits mem).2.2

end Text

namespace Decimal

theorem toList_toString (n : Nat) : (toString n).toList = Nat.toDigits 10 n := by
  rw [Nat.toString_eq_ofList_toDigits, String.toList_ofList]

/-- A printed number is read as a signed number if it is below half of the range. -/
theorem int?_toString (bits n : Nat) :
    int? bits (toString n) = if n < 2 ^ (bits - 1) then some (n : Int) else none := by
  have read : int? bits (toString n)
      = (some (n : Int)).filter fun n => -(2 ^ (bits - 1)) ≤ n && n < 2 ^ (bits - 1) := by
    rw [int?, toList_toString]
    split
    · next rest first =>
        have mem : '-' ∈ Nat.toDigits 10 n := first ▸ List.mem_cons_self
        exact absurd rfl (plain_of_mem_toDigits mem).1
    · next rest first =>
        have mem : '+' ∈ Nat.toDigits 10 n := first ▸ List.mem_cons_self
        exact absurd rfl (plain_of_mem_toDigits mem).2.1
    · rw [digits?_toDigits]
      rfl
  have size : ((2 ^ (bits - 1) : Nat) : Int) = 2 ^ (bits - 1) := Int.natCast_pow 2 (bits - 1)
  have positive := Nat.two_pow_pos (bits - 1)
  rw [read, ← size]
  by_cases less : n < 2 ^ (bits - 1)
  · rw [if_pos less, Option.filter_some_pos]
    rw [Bool.and_eq_true, decide_eq_true_eq, decide_eq_true_eq]
    omega
  · rw [if_neg less, Option.filter_some_neg]
    rw [Bool.and_eq_false_iff, decide_eq_false_iff_not, decide_eq_false_iff_not]
    omega

end Decimal

end RemoteCall

import RemoteCall.Bytes

/-!
# Reading decimal integers

An integer is a run of decimal digits, perhaps with a sign before it; a minus sign is only for numbers
that may be negative. Leading zeros are allowed. A number out of range is no integer.
-/

namespace RemoteCall.Decimal

/-- The value of a decimal digit. -/
def digit? (c : Char) : Option Nat :=
  if '0' ≤ c && c ≤ '9' then some (c.toNat - '0'.toNat) else none

/-- The number that a run of digits, of which `n` are the ones read before, spells. -/
def digitsFrom (n : Nat) : List Char → Option Nat
  | [] => some n
  | c :: rest => (digit? c).bind fun d => digitsFrom (10 * n + d) rest

/-- The number that at least one digit spells. -/
def digits? : List Char → Option Nat
  | [] => none
  | cs => digitsFrom 0 cs

/-- A number below a bound. -/
def natBelow? (bound : Nat) (text : String) : Option Nat :=
  let digits :=
    match text.toList with
    | '+' :: rest => digits? rest
    | cs => digits? cs
  digits.filter (· < bound)

/-- A signed number of a number of bits. -/
def int? (bits : Nat) (text : String) : Option Int :=
  let value : Option Int :=
    match text.toList with
    | '-' :: rest => (digits? rest).map fun n => -n
    | '+' :: rest => (digits? rest).map fun n => n
    | cs => (digits? cs).map fun n => n
  value.filter fun n => -(2 ^ (bits - 1)) ≤ n && n < 2 ^ (bits - 1)

end RemoteCall.Decimal

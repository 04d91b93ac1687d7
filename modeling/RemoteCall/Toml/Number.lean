import RemoteCall.Decimal.Integer
import RemoteCall.Toml.Token
import RemoteCall.Toml.Value

/-!
# Reading numbers

An integer has 64 bits with a sign. In decimal it has no leading zeros and may have a sign; in base
16, 8 or 2 it has a mark in front and no sign. Between two digits may stand one underscore.

A float has a fraction or an exponent, or is one of the words for infinity and for no number. One that
rounds to positive infinity in double precision is refused (`overflows`).
-/

namespace RemoteCall.Toml

/-- The rest of a run of digits. An underscore has a digit behind it. -/
def digitsAfter (isDigit : Char → Bool) : List Char → Option (List Char × List Char)
  | '_' :: d :: rest => if isDigit d then withChar d (digitsAfter isDigit rest) else none
  | ['_'] => none
  | c :: rest => if isDigit c then withChar c (digitsAfter isDigit rest) else some ([], c :: rest)
  | [] => some ([], [])

/-- A run of digits without its underscores, at least one digit. -/
def digitRun (isDigit : Char → Bool) : Reader (List Char) := fun cs =>
  match cs with
  | c :: rest => if isDigit c then withChar c (digitsAfter isDigit rest) else none
  | [] => none

/-- A run of decimal digits. -/
def decimalRun : Reader (List Char) := digitRun Char.isDigit

/-- A sign, if there is one. -/
def sign : Reader (List Char) := do
  return (← acceptOne ['-', '+']).toList

/-- The digits of the integral part: zero alone, or digits that do not start with zero. -/
def wholeDigits : Reader (List Char) := do
  if ← accept ['0'] then return ['0'] else decimalRun

/-! ## The range of a float -/

/-- The least number that rounds to infinity in double precision. -/
def floatLimit : Nat := 2 ^ 1024 - 2 ^ 970

/-- Whether a number, given by its decimal digits and the power of ten that they count, is too large
for a float. The place of the first digit settles it unless that place is about the limit's. -/
def overflows (digits : List Char) (exponent : Int) : Bool :=
  let digits := digits.dropWhile (· = '0')
  let place := digits.length + exponent
  match Decimal.digits? digits with
  | none => false
  | some n =>
    if place < 300 then false
    else if 320 < place then true
    else if 0 ≤ exponent then floatLimit ≤ n * 10 ^ exponent.toNat
    else floatLimit * 10 ^ (-exponent).toNat ≤ n

/-! ## Numbers -/

/-- An integer in a base of its own: its digits behind the mark. -/
def basedInteger (base : Nat) : Reader Value := do
  let digits ← digitRun fun c => (hexDigit? c).any (· < base)
  let n := digits.foldl (fun n c => base * n + (hexDigit? c).getD 0) 0
  if n < 2 ^ 63 then return .scalar (.integer n) else failure

/-- The exponent of a float, if there is one. -/
def exponent : Reader (Option (List Char × List Char)) := do
  if (← acceptOne ['e', 'E']).isSome then
    let s ← sign
    return some (s, ← decimalRun)
  else return none

/-- The fraction of a float, if there is one. -/
def fraction : Reader (Option (List Char)) := do
  if ← accept ['.'] then return some (← decimalRun) else return none

/-- The number that a sign and digits spell. -/
def signed (s : List Char) (n : Nat) : Int :=
  if s = ['-'] then -n else n

/-- A decimal number behind its sign. -/
def decimal (s : List Char) : Reader Value := do
  let whole ← wholeDigits
  let frac ← fraction
  let exp ← exponent
  let spelling := s ++ whole ++ (frac.map ('.' :: ·)).getD []
    ++ (exp.map fun (s, digits) => 'e' :: s ++ digits).getD []
  if frac.isNone && exp.isNone then
    let n := signed s (← Decimal.digits? whole)
    if -2 ^ 63 ≤ n && n < 2 ^ 63 then return .scalar (.integer n) else failure
  else
    let shift : Int := (exp.map fun (s, digits) => signed s ((Decimal.digits? digits).getD 0)).getD 0
    let digits := whole ++ frac.getD []
    if s ≠ ['-'] && overflows digits (shift - (frac.getD []).length) then failure
    return .float (String.ofList spelling)

/-- A word for infinity or for no number, behind a sign. -/
def specialFloat (s : List Char) : Reader Value := do
  if ← accept ['i', 'n', 'f'] then return .float (String.ofList (s ++ ['i', 'n', 'f']))
  else
    expect ['n', 'a', 'n']
    return .float (String.ofList (s ++ ['n', 'a', 'n']))

/-- A number. -/
def number : Reader Value := do
  if ← accept ['0', 'x'] then basedInteger 16
  else if ← accept ['0', 'o'] then basedInteger 8
  else if ← accept ['0', 'b'] then basedInteger 2
  else
    let s ← sign
    match ← peek with
    | some c => if c.isDigit then decimal s else specialFloat s
    | none => failure

end RemoteCall.Toml

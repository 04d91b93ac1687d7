import RemoteCall.Decimal.Integer
import RemoteCall.Toml.Token
import RemoteCall.Toml.Value

/-!
# Reading dates and times

A date, a time of day, or a date with a time of day and perhaps with an offset from universal time.
Each part has a fixed number of digits and a range; a day also has to exist in its month.
-/

namespace RemoteCall.Toml

/-- A number of a fixed count of digits in a range. -/
def fixed (count low high : Nat) : Reader Nat := fun cs =>
  let digits := cs.take count
  if digits.length = count then do
    let n ← Decimal.digits? digits
    if low ≤ n && n ≤ high then some (n, cs.drop count) else none
  else none

/-- The number of days of a month. -/
def daysIn (year month : Nat) : Nat :=
  if month = 2 then
    if year % 4 = 0 && (year % 100 ≠ 0 || year % 400 = 0) then 29 else 28
  else if month = 4 || month = 6 || month = 9 || month = 11 then 30 else 31

/-- A date. -/
def date : Reader Unit := do
  let year ← fixed 4 0 9999
  expect ['-']
  let month ← fixed 2 1 12
  expect ['-']
  let _ ← fixed 2 1 (daysIn year month)

/-- A time of day; a leap second is allowed. -/
def time : Reader Unit := do
  let _ ← fixed 2 0 23
  expect [':']
  let _ ← fixed 2 0 59
  expect [':']
  let _ ← fixed 2 0 60
  if ← accept ['.'] then
    if (← takeAll Char.isDigit).isEmpty then failure

/-- An offset from universal time, if there is one. -/
def offset : Reader Unit := do
  if (← acceptOne ['Z', 'z']).isNone then
    if (← acceptOne ['+', '-']).isSome then
      let _ ← fixed 2 0 23
      expect [':']
      let _ ← fixed 2 0 59

/-- Whether a time follows a date: a blank announces one only in front of a digit. -/
def timeFollows : List Char → Bool
  | 'T' :: _ => true
  | 't' :: _ => true
  | ' ' :: c :: _ => c.isDigit
  | _ => false

/-- Whether a text starts with this count of digits and then with a mark. -/
def startsWithDigits (count : Nat) (mark : Char) (cs : List Char) : Bool :=
  (cs.take count).all Char.isDigit && (cs.drop count).head? = some mark

/-- Whether a text starts with a date. -/
def startsDate (cs : List Char) : Bool := startsWithDigits 4 '-' cs

/-- Whether a text starts with a time of day. -/
def startsTime (cs : List Char) : Bool := startsWithDigits 2 ':' cs

/-- A date with or without a time, or a time alone. -/
def momentParts : Reader Unit := do
  if startsTime (← get) then time
  else
    date
    if timeFollows (← get) then
      modify (·.drop 1)
      time
      offset

/-- A date or a time, as it is spelled. -/
def moment : Reader Value := fun cs => do
  let (_, rest) ← momentParts cs
  return (.moment (String.ofList (cs.take (cs.length - rest.length))), rest)

end RemoteCall.Toml

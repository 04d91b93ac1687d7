import RemoteCall.Bytes

/-!
# The shortest decimal that reads back

A finite floating-point number stands for every real number that rounds to it, and its shortest
decimal is the one with the fewest digits among those, the nearest of them where there are several.
All arithmetic is exact: the number is `scaled / denominator`, four times its significand on a grid
of quarter units, and the interval that rounds to it reaches from `low` to `high` on the same grid.

`floatText` writes the result: positionally while the point stands between the fifth zero in front
and the sixteenth digit, with an exponent otherwise.
-/

namespace RemoteCall.Decimal

/-- A positive finite number with the interval of reals that round to it, over one denominator. -/
structure Rounding where
  low : Nat
  scaled : Nat
  high : Nat
  denominator : Nat
  /-- Whether the ends of the interval belong to it. -/
  closed : Bool

/-- The interval of a significand and a binary exponent; `narrow` halves its lower part, which is so
where the significand is the smallest of its exponent. -/
def Rounding.ofParts (significand : Nat) (exponent : Int) (narrow : Bool) : Rounding :=
  let up := 2 ^ (exponent - 2).toNat
  ⟨(4 * significand - (if narrow then 1 else 2)) * up, 4 * significand * up,
    (4 * significand + 2) * up, 2 ^ (2 - exponent).toNat, significand % 2 = 0⟩

/-- Whether `n · 10 ^ exponent` lies in the interval. -/
def Rounding.contains (r : Rounding) (n : Nat) (exponent : Int) : Bool :=
  let left := n * 10 ^ exponent.toNat * r.denominator
  let right := 10 ^ (-exponent).toNat
  if r.closed then r.low * right ≤ left && left ≤ r.high * right
  else r.low * right < left && left < r.high * right

/-- The greatest `n` for which `n · 10 ^ exponent` is at most the number, and whether the next one
is nearer. -/
def Rounding.below (r : Rounding) (exponent : Int) : Nat × Bool :=
  let numerator := r.scaled * 10 ^ (-exponent).toNat
  let unit := r.denominator * 10 ^ exponent.toNat
  (numerator / unit, unit < 2 * (numerator % unit))

/-- The exponent of the first digit, sought from `start` downwards. -/
def Rounding.leading (r : Rounding) : Nat → Int → Int
  | 0, start => start
  | steps + 1, start => if (r.below start).1 = 0 then r.leading steps (start - 1) else start

/-- Digits and exponent of the first grid with a hit, from the coarsest to the finest. -/
def Rounding.search (r : Rounding) : Nat → Int → Nat × Int
  | 0, exponent => ((r.below exponent).1, exponent)
  | steps + 1, exponent =>
    let (n, up) := r.below exponent
    -- both neighbours may lie in the interval, and the nearer one is the better
    let nearer := if up then n + 1 else n
    let farther := if up then n else n + 1
    if r.contains nearer exponent then (nearer, exponent)
    else if r.contains farther exponent then (farther, exponent)
    else r.search steps (exponent - 1)

/-- The shortest digits of a number and the exponent of the last of them. -/
def Rounding.shortest (r : Rounding) : Nat × Int :=
  r.search 17 (r.leading 700 310)

/-- Digits with a point behind the first `whole` of them, or with zeros where there are no digits. -/
def positional (digits : String) (whole : Int) : String :=
  if whole ≤ 0 then "0." ++ String.ofList (List.replicate (-whole).toNat '0') ++ digits
  else if whole.toNat < digits.length then
    String.ofList (digits.toList.take whole.toNat) ++ "."
      ++ String.ofList (digits.toList.drop whole.toNat)
  else digits ++ String.ofList (List.replicate (whole.toNat - digits.length) '0') ++ ".0"

/-- Digits with a point behind the first of them, and an exponent. -/
def scientific (digits : String) (exponent : Int) : String :=
  let fraction := String.ofList (digits.toList.drop 1)
  String.ofList (digits.toList.take 1) ++ (if fraction.isEmpty then "" else "." ++ fraction) ++ "e"
    ++ (if exponent < 0 then "-" else "+") ++ toString exponent.natAbs

/-- A number without zeros at its end, and how many there were. -/
def stripZeros : Nat → Nat → Nat × Nat
  | 0, n => (n, 0)
  | steps + 1, n =>
    if n ≠ 0 && n % 10 = 0 then let (m, k) := stripZeros steps (n / 10); (m, k + 1) else (n, 0)

/-- The text of a finite number, given by its bits. -/
def floatText (bits : UInt64) : String :=
  let sign := if bits.toNat / 2 ^ 63 = 1 then "-" else ""
  let field : Nat := bits.toNat / 2 ^ 52 % 2048
  let fraction : Nat := bits.toNat % 2 ^ 52
  if field = 0 && fraction = 0 then sign ++ "0.0"
  else
    -- below the smallest exponent there is no leading one, and the spacing does not shrink
    let r :=
      if field = 0 then Rounding.ofParts fraction (-1074) false
      else Rounding.ofParts (2 ^ 52 + fraction) ((field : Int) - 1075) (fraction = 0 && field > 1)
    let (n, last) := r.shortest
    let (n, zeros) := stripZeros 20 n
    let digits := toString n
    let whole := digits.length + last + zeros
    sign ++ (if -5 < whole && whole ≤ 16 then positional digits whole
      else scientific digits (whole - 1))

end RemoteCall.Decimal

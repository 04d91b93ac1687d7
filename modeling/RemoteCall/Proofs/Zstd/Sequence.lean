import RemoteCall.Proofs.Zstd.Bits
import RemoteCall.Zstd.Writer

/-! # The sequence of a packed block

    A packed block holds one sequence.  Each of its three numbers is a code and
    some bits behind the code: a code names the numbers from its base on
    (`codeOf_spec`), so the number is the base and the bits.  The bits stand
    behind each other in one number whose highest bit is that of the distance,
    and reading backwards takes them apart again (`readNumbers?_ofStep`). -/

namespace RemoteCall

/-- A byte of a number is told by dividing. -/
theorem Bytes.getD_littleEndian {width i : Nat} (inside : i < width) (n : Nat) :
    (littleEndian width n).getD i 0 = UInt8.ofNat (n / 256 ^ i) := by
  induction width generalizing i n with
  | zero => exact absurd inside (Nat.not_lt_zero i)
  | succ width ih =>
      rw [littleEndian]
      cases i with
      | zero => rw [List.getD_cons_zero, Nat.pow_zero, Nat.div_one]
      | succ i =>
          rw [List.getD_cons_succ, ih (Nat.lt_of_succ_lt_succ inside), Nat.div_div_eq_div_mul,
            Nat.pow_succ, Nat.mul_comm]

namespace Zstd

open Compression

/-! ## Codes -/

/-- No code is below the start. -/
theorem countP_bases_of_lt {start n : Nat} (below : n < start) (widths : List Nat) :
    (bases start widths).countP (·.1 ≤ n) = 0 := by
  induction widths generalizing start with
  | nil => rfl
  | cons width widths ih =>
      rw [bases, List.countP_cons_of_neg (by simpa using below)]
      exact ih (Nat.lt_of_lt_of_le below (Nat.le_add_right ..))

/-- The number of codes up to a number leads to the code whose range holds it. -/
theorem getElem?_bases {start n : Nat} {widths : List Nat} (least : start ≤ n)
    (most : n < start + (widths.map (2 ^ ·)).sum) :
    ∃ base more,
      (bases start widths)[(bases start widths).countP (·.1 ≤ n) - 1]? = some (base, more)
        ∧ 0 < (bases start widths).countP (·.1 ≤ n) ∧ more ∈ widths
        ∧ base ≤ n ∧ n < base + 2 ^ more := by
  induction widths generalizing start with
  | nil =>
      rw [List.map_nil, List.sum_nil] at most
      omega
  | cons width widths ih =>
      rw [bases, List.countP_cons_of_pos (by simpa using least)]
      by_cases here : n < start + 2 ^ width
      · rw [countP_bases_of_lt here]
        exact ⟨start, width, rfl, Nat.succ_pos _, List.mem_cons_self .., least, here⟩
      · rw [List.map_cons, List.sum_cons, ← Nat.add_assoc] at most
        obtain ⟨base, more, found, positive, mem, low, high⟩ := ih (Nat.le_of_not_lt here) most
        -- one code more is counted, and one more stands in front of the code
        refine ⟨base, more, ?_, Nat.succ_pos _, List.mem_cons_of_mem _ mem, low, high⟩
        rw [Nat.add_sub_cancel, ← found]
        generalize (bases (start + 2 ^ width) widths).countP (·.1 ≤ n) = count at positive
        cases count with
        | zero => exact absurd positive (Nat.lt_irrefl 0)
        | succ count => rw [List.getElem?_cons_succ, Nat.add_sub_cancel]

theorem length_bases (start : Nat) (widths : List Nat) :
    (bases start widths).length = widths.length := by
  induction widths generalizing start with
  | nil => rfl
  | cons width widths ih => rw [bases, List.length_cons, ih, List.length_cons]

/-- What a code tells of a number. -/
structure Coded (codes : Array (Nat × Nat)) (n code base more : Nat) : Prop where
  codeOf : codeOf codes n = (code, n - base, more)
  known : codes.getD code (0, 0) = (base, more)
  least : base ≤ n
  most : n - base < 2 ^ more

/-- The code of a number names a range that holds the number. -/
theorem codeOf_spec {codes : Array (Nat × Nat)} {start n : Nat} {widths : List Nat}
    (eq : codes = (bases start widths).toArray) (least : start ≤ n)
    (most : n < start + (widths.map (2 ^ ·)).sum) :
    ∃ code base more, Coded codes n code base more ∧ code < widths.length ∧ more ∈ widths := by
  obtain ⟨base, more, found, -, mem, low, high⟩ := getElem?_bases least most
  obtain ⟨inside, -⟩ := List.getElem?_eq_some_iff.mp found
  have known : codes.getD (codes.toList.countP (·.1 ≤ n) - 1) (0, 0) = (base, more) := by
    rw [eq, Array.getD_eq_getD_getElem?, List.getElem?_toArray, found]
    rfl
  refine ⟨codes.toList.countP (·.1 ≤ n) - 1, base, more, ⟨?_, known, low, by omega⟩, ?_, mem⟩
  · show (_, n - (codes.getD (codes.toList.countP (·.1 ≤ n) - 1) (0, 0)).1,
      (codes.getD (codes.toList.countP (·.1 ≤ n) - 1) (0, 0)).2) = _
    rw [known]
  · rw [eq, ← length_bases start]
    exact inside

/-! ## Bits -/

/-- What the numbers of a sequence are written as: the distance's value on top, then the bits behind
the code of the repetition, then those behind the code of the literals. -/
structure Parts where
  value : Nat
  repeatMore : Nat
  repeatBits : Nat
  literalMore : Nat
  literalBits : Nat

namespace Parts

/-- The parts as one number. -/
def number (parts : Parts) : Nat :=
  (parts.value * 2 ^ parts.repeatBits + parts.repeatMore) * 2 ^ parts.literalBits
    + parts.literalMore

/-- How many bits stand below the highest one. -/
def total (parts : Parts) : Nat :=
  parts.value.log2 + parts.repeatBits + parts.literalBits

/-- Each part keeps to its bits, and none is too wide to be read at once. -/
structure Fits (parts : Parts) : Prop where
  positive : parts.value ≠ 0
  small : parts.value < 2 ^ 32
  repeatMore : parts.repeatMore < 2 ^ parts.repeatBits
  repeatBits : parts.repeatBits ≤ 16
  literalMore : parts.literalMore < 2 ^ parts.literalBits
  literalBits : parts.literalBits ≤ 16

variable {parts : Parts}

theorem Fits.log2_lt (fits : parts.Fits) : parts.value.log2 < 32 :=
  (Nat.log2_lt fits.positive).mpr fits.small

/-- The lowest bits are those of the literals. -/
theorem Fits.div_literals (fits : parts.Fits) :
    parts.number / 2 ^ parts.literalBits
      = parts.value * 2 ^ parts.repeatBits + parts.repeatMore := by
  rw [number, Nat.mul_comm, Nat.mul_add_div (Nat.two_pow_pos _), Nat.div_eq_of_lt fits.literalMore,
    Nat.add_zero]

theorem Fits.mod_literals (fits : parts.Fits) :
    parts.number % 2 ^ parts.literalBits = parts.literalMore := by
  rw [number, Nat.mul_comm, Nat.mul_add_mod, Nat.mod_eq_of_lt fits.literalMore]

/-- The bits above are those of the repetition. -/
theorem Fits.mod_repeats (fits : parts.Fits) :
    parts.number / 2 ^ parts.literalBits % 2 ^ parts.repeatBits = parts.repeatMore := by
  rw [fits.div_literals, Nat.mul_comm, Nat.mul_add_mod, Nat.mod_eq_of_lt fits.repeatMore]

/-- On top stands the value of the distance. -/
theorem Fits.div_repeats (fits : parts.Fits) :
    parts.number / 2 ^ (parts.repeatBits + parts.literalBits) = parts.value := by
  rw [Nat.add_comm, Nat.pow_add, ← Nat.div_div_eq_div_mul, fits.div_literals, Nat.mul_comm,
    Nat.mul_add_div (Nat.two_pow_pos _), Nat.div_eq_of_lt fits.repeatMore, Nat.add_zero]

/-- The highest bit of the number is that of the value. -/
theorem Fits.bounds (fits : parts.Fits) :
    2 ^ parts.total ≤ parts.number ∧ parts.number < 2 ^ (parts.total + 1) := by
  have value := fits.div_repeats
  have least := Nat.log2_self_le fits.positive
  have most := Nat.lt_log2_self (n := parts.value)
  have unit := Nat.two_pow_pos (parts.repeatBits + parts.literalBits)
  rw [total, Nat.add_assoc, Nat.pow_add]
  constructor
  · rw [← Nat.le_div_iff_mul_le unit, value]
    exact least
  · rw [show parts.value.log2 + (parts.repeatBits + parts.literalBits) + 1
      = parts.value.log2 + 1 + (parts.repeatBits + parts.literalBits) by omega, Nat.pow_add,
      ← Nat.div_lt_iff_lt_mul unit, value]
    exact most

/-- How many bytes the number takes. -/
def width (parts : Parts) : Nat :=
  parts.total / 8 + 1

/-- The bytes of the number spell it. -/
theorem Fits.ofLittleEndian (fits : parts.Fits) :
    Bytes.ofLittleEndian (Bytes.littleEndian parts.width parts.number) = parts.number := by
  rw [Bytes.ofLittleEndian_littleEndian]
  apply Nat.mod_eq_of_lt
  refine Nat.lt_of_lt_of_le fits.bounds.2 ?_
  rw [show 256 = 2 ^ 8 from rfl, ← Nat.pow_mul]
  exact Nat.pow_le_pow_right (by decide) (by rw [width]; omega)

/-- The mark in the last byte of the number is its highest bit. -/
theorem Fits.last (fits : parts.Fits) :
    (parts.number / 256 ^ (parts.total / 8)) < 256
      ∧ parts.number / 256 ^ (parts.total / 8) ≠ 0
      ∧ (parts.number / 256 ^ (parts.total / 8)).log2 = parts.total % 8 := by
  obtain ⟨least, most⟩ := fits.bounds
  have unit := Nat.two_pow_pos (8 * (parts.total / 8))
  rw [show 256 = 2 ^ 8 from rfl, ← Nat.pow_mul]
  have low : 2 ^ (parts.total % 8) ≤ parts.number / 2 ^ (8 * (parts.total / 8)) := by
    rw [Nat.le_div_iff_mul_le unit, ← Nat.pow_add, Nat.mod_add_div]
    exact least
  have high : parts.number / 2 ^ (8 * (parts.total / 8)) < 2 ^ (parts.total % 8 + 1) := by
    rw [Nat.div_lt_iff_lt_mul unit, ← Nat.pow_add, Nat.add_right_comm, Nat.mod_add_div]
    exact most
  have something : parts.number / 2 ^ (8 * (parts.total / 8)) ≠ 0 :=
    Nat.ne_of_gt (Nat.lt_of_lt_of_le (Nat.two_pow_pos _) low)
  refine ⟨Nat.lt_of_lt_of_le high (Nat.pow_le_pow_right (by decide) (by omega)), something, ?_⟩
  exact (Nat.log2_eq_iff something).mpr ⟨low, high⟩

end Parts

/-! ## Reading backwards -/

section Backward

variable {input : ByteArray} {place : Nat} {parts : Parts}

/-- Where the bytes of the parts stand, reading starts below their highest bit. -/
theorem Parts.Fits.ofRange? (fits : parts.Fits)
    (stands : Stands input place (Bytes.littleEndian parts.width parts.number)) :
    Backward.ofRange? input place (place + parts.width) = some ⟨input, place, parts.total⟩ := by
  obtain ⟨byte, something, mark⟩ := fits.last
  have wide : parts.width = parts.total / 8 + 1 := rfl
  have final : byteAt input (place + parts.width - 1)
      = UInt8.ofNat (parts.number / 256 ^ (parts.total / 8)) := by
    rw [show place + parts.width - 1 = place + parts.total / 8 by omega,
      stands.getD (by rw [Bytes.length_littleEndian]; omega),
      Bytes.getD_littleEndian (by omega)]
  have value : (UInt8.ofNat (parts.number / 256 ^ (parts.total / 8))).toNat
      = parts.number / 256 ^ (parts.total / 8) := UInt8.toNat_ofNat_of_lt' byte
  have nonzero : byteAt input (place + parts.width - 1) ≠ 0 := by
    intro zero
    rw [final] at zero
    rw [zero] at value
    exact something value.symm
  rw [Backward.ofRange?, if_neg (by omega)]
  dsimp only
  rw [if_neg nonzero, final, value, mark,
    show 8 * (place + parts.width - 1 - place) + parts.total % 8 = parts.total by omega]

/-- The next bits are a part of the number. -/
theorem Parts.Fits.read? (fits : parts.Fits)
    (stands : Stands input place (Bytes.littleEndian parts.width parts.number)) (left count : Nat)
    (few : count ≤ 56) (inside : left + count ≤ parts.total) :
    (⟨input, place, left + count⟩ : Backward).read? count
      = some (parts.number / 2 ^ left % 2 ^ count, ⟨input, place, left⟩) := by
  have wide : parts.width = parts.total / 8 + 1 := rfl
  have bits := stands.bitsAt left count (by omega)
    (by rw [Bytes.length_littleEndian]; omega)
  rw [Backward.read?, if_pos (Nat.le_add_left count left)]
  dsimp only
  rw [Nat.add_sub_cancel, bits, fits.ofLittleEndian]

/-- The numbers of a sequence are read back. -/
theorem readNumbers?_single (fits : parts.Fits)
    (stands : Stands input place (Bytes.littleEndian parts.width parts.number))
    {literalCode literalBase repeatCode repeatBase : Nat}
    (literalKnown : literalCodes.getD literalCode (0, 0) = (literalBase, parts.literalBits))
    (repeatKnown : matchCodes.getD repeatCode (0, 0) = (repeatBase, parts.repeatBits)) :
    readNumbers? ⟨.single literalCode, .single parts.value.log2, .single repeatCode⟩ ⟨0, 0, 0⟩
        ⟨input, place, parts.total⟩
      = some ((literalBase + parts.literalMore, repeatBase + parts.repeatMore, parts.value),
        ⟨input, place, 0⟩) := by
  have small := fits.log2_lt
  have repeatBits := fits.repeatBits
  have literalBits := fits.literalBits
  have total : parts.total = parts.repeatBits + parts.literalBits + parts.value.log2 := by
    rw [Parts.total]
    omega
  -- the bits are read from the highest on: the distance, the repetition, the literals
  have first := fits.read? stands (parts.repeatBits + parts.literalBits)
    parts.value.log2 (by omega) (by omega)
  have second := fits.read? stands parts.literalBits parts.repeatBits
    (by omega) (by omega)
  have third := fits.read? stands 0 parts.literalBits (by omega) (by omega)
  rw [← total, fits.div_repeats] at first
  rw [Nat.add_comm, fits.mod_repeats] at second
  rw [Nat.zero_add, Nat.pow_zero, Nat.div_one, fits.mod_literals] at third
  -- the code of the distance stands for its highest bit, and only the bits below it are written
  have value : 2 ^ parts.value.log2 + parts.value % 2 ^ parts.value.log2 = parts.value := by
    have least := Nat.log2_self_le fits.positive
    have most := Nat.lt_log2_self (n := parts.value)
    rw [Nat.pow_succ] at most
    rw [Nat.mod_eq_sub_mod least, Nat.mod_eq_of_lt (by omega)]
    omega
  have cell (symbol : Nat) : ((Table.single symbol).cell 0).symbol = symbol := rfl
  rw [readNumbers?]
  simp only [cell]
  rw [first]
  simp only [Option.bind_eq_bind, Option.bind_some, literalKnown, repeatKnown, second, third, value]
  rfl

end Backward

end Zstd

end RemoteCall

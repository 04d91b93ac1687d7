import RemoteCall.Zstd.Literals

/-!
# Sequences of a block

Behind the literals stand the sequences: how many of the literals come next, how many bytes are then
repeated, and from how far back. Each of the three numbers is a code, given by the state of a table,
and some further bits. A distance may also be one of the last three (`Recent`).

`readSequences?` adds what the sequences give to the output, and the literals that are left.
-/

namespace RemoteCall.Zstd

open Compression

/-! ## Codes -/

/-- The smallest number of each code, counted from `start`, given how many further bits it has. -/
def bases (start : Nat) : List Nat → List (Nat × Nat)
  | [] => []
  | bits :: rest => (start, bits) :: bases (start + 2 ^ bits) rest

/-- Numbers of literals: smallest number and further bits of each code. -/
def literalCodes : Array (Nat × Nat) :=
  (bases 0 (List.replicate 16 0 ++ [1, 1, 1, 1, 2, 2, 3, 3, 4, 6, 7, 8, 9, 10, 11, 12, 13, 14, 15,
    16])).toArray

/-- Lengths of repetitions: smallest number and further bits of each code. -/
def matchCodes : Array (Nat × Nat) :=
  (bases 3 (List.replicate 32 0 ++ [1, 1, 1, 1, 2, 2, 3, 3, 4, 4, 5, 7, 8, 9, 10, 11, 12, 13, 14, 15,
    16])).toArray

/-- The three tables of a block. -/
structure Tables where
  literals : Table
  offsets : Table
  repeats : Table

/-- The tables fixed by the format. -/
def Tables.fixed : Tables where
  literals := .ofShares 6 ([4, 3] ++ List.replicate 11 2 ++ [1, 1, 1] ++ List.replicate 9 2
    ++ [3, 2, 1, 1, 1, 1, 1, -1, -1, -1, -1])
  offsets := .ofShares 5 (List.replicate 6 1 ++ [2, 2, 2] ++ List.replicate 15 1
    ++ List.replicate 5 (-1))
  repeats := .ofShares 6 ([1, 4, 3] ++ List.replicate 6 2 ++ List.replicate 37 1
    ++ List.replicate 7 (-1))

/-- The form of a table: 0 the fixed one, 1 a single symbol, 2 a header, 3 the one used before. -/
def readTable? (data : ByteArray) (first stop form maxLog maxSymbol : Nat) (fixed : Table)
    (before : Option Table) : Option (Table × Nat) :=
  match form with
  | 0 => some (fixed, first)
  | 1 =>
    let symbol := (byteAt data first).toNat
    if stop ≤ first || maxSymbol < symbol then none else some (.single symbol, first + 1)
  | 2 => do
    let (log, shares, next) ← readShares? data first stop maxLog maxSymbol
    return (.ofShares log shares, next)
  | _ => before.map (·, first)

/-! ## Distances -/

/-- The last three distances, the latest first. -/
structure Recent where
  first : Nat
  second : Nat
  third : Nat

/-- The distances before the first sequence of a frame. -/
def Recent.start : Recent := ⟨1, 4, 8⟩

/-- The distance of a value, and the last three then. The values one to three mean the recent ones,
shifted by one where no literals come before; the fourth of these is one less than the first. -/
def Recent.resolve (recent : Recent) (value literals : Nat) : Nat × Recent :=
  if 3 < value then (value - 3, ⟨value - 3, recent.first, recent.second⟩)
  else
    match if literals = 0 then value + 1 else value with
    | 1 => (recent.first, recent)
    | 2 => (recent.second, ⟨recent.second, recent.first, recent.third⟩)
    | 3 => (recent.third, ⟨recent.third, recent.first, recent.second⟩)
    | _ => (recent.first - 1, ⟨recent.first - 1, recent.first, recent.second⟩)

/-! ## Execution -/

/-- What the sequences of a block work on. -/
structure Work where
  out : ByteArray
  /-- How many literals are used. -/
  used : Nat
  recent : Recent

/-- Adds literals and a repetition, which may not reach back before `origin`. -/
def Work.step? (work : Work) (literals : ByteArray) (origin count length value : Nat) :
    Option Work :=
  let used := work.used + count
  let (offset, recent) := work.recent.resolve value count
  let out := append work.out (slice literals work.used count)
  if literals.size < used || offset = 0 || out.size - origin < offset then none
  else some ⟨copyBack offset length out, used, recent⟩

/-- The states of the three tables. -/
structure States where
  literals : Nat
  offsets : Nat
  repeats : Nat

/-- Reads the numbers of one sequence: literals, length of the repetition and value of the distance. -/
def readNumbers? (tables : Tables) (states : States) (bits : Backward) :
    Option ((Nat × Nat × Nat) × Backward) := do
  let code := (tables.offsets.cell states.offsets).symbol
  let (low, bits) ← bits.read? code
  let (base, more) := matchCodes.getD (tables.repeats.cell states.repeats).symbol (0, 0)
  let (n, bits) ← bits.read? more
  let length := base + n
  let (base, more) := literalCodes.getD (tables.literals.cell states.literals).symbol (0, 0)
  let (n, bits) ← bits.read? more
  return ((base + n, length, 2 ^ code + low), bits)

/-- Moves the three states on. -/
def moveStates? (tables : Tables) (states : States) (bits : Backward) :
    Option (States × Backward) := do
  let cell := tables.literals.cell states.literals
  let (n, bits) ← bits.read? cell.bits
  let literals := cell.base + n
  let cell := tables.repeats.cell states.repeats
  let (n, bits) ← bits.read? cell.bits
  let repeats := cell.base + n
  let cell := tables.offsets.cell states.offsets
  let (n, bits) ← bits.read? cell.bits
  return (⟨literals, cell.base + n, repeats⟩, bits)

/-- Executes sequences whose output may grow up to `limit`; all bits have to be used up. -/
def execute (tables : Tables) (literals : ByteArray) (origin limit : Nat) :
    Nat → States → Backward → Work → Option Work
  | 0, _, _, work => some work
  | count + 1, states, bits, work =>
    match readNumbers? tables states bits with
    | none => none
    | some ((new, length, value), bits) =>
      if limit < work.out.size + new + length then none
      else
        match work.step? literals origin new length value with
        | none => none
        | some work =>
          -- no bits are there to move the states on behind the last sequence
          if count = 0 then if bits.left = 0 then some work else none
          else
            match moveStates? tables states bits with
            | none => none
            | some (states, bits) => execute tables literals origin limit count states bits work

/-! ## The section -/

/-- How many sequences a block has, and the place behind this number. -/
def sequenceCount? (data : ByteArray) (first stop : Nat) : Option (Nat × Nat) :=
  if stop ≤ first then none
  else
    let b := (byteAt data first).toNat
    if b < 128 then some (b, first + 1)
    else if b < 255 then
      if stop < first + 2 then none
      else some ((b - 128) * 256 + (byteAt data (first + 1)).toNat, first + 2)
    else if stop < first + 3 then none
    else some (numberAt data (first + 1) 2 + 0x7f00, first + 3)

/-- Reads the tables of a block. -/
def readTables? (data : ByteArray) (first stop : Nat) (before : Option Tables) :
    Option (Tables × Nat) := do
  if stop ≤ first then none
  let forms := (byteAt data first).toNat
  if forms % 4 ≠ 0 then none
  let (literals, next) ← readTable? data (first + 1) stop (forms / 64) 9 35 Tables.fixed.literals
    (before.map (·.literals))
  let (offsets, next) ← readTable? data next stop (forms / 16 % 4) 8 31 Tables.fixed.offsets
    (before.map (·.offsets))
  let (repeats, next) ← readTable? data next stop (forms / 4 % 4) 9 52 Tables.fixed.repeats
    (before.map (·.repeats))
  return (⟨literals, offsets, repeats⟩, next)

/-- Adds what a block's sequences and literals give to the output, which may grow up to `limit`.
Returns the output, the tables for the blocks to come, and the last distances. -/
def readSequences? (data : ByteArray) (first stop : Nat) (literals : ByteArray)
    (before : Option Tables) (recent : Recent) (origin limit : Nat) (out : ByteArray) :
    Option (ByteArray × Option Tables × Recent) := do
  let (count, next) ← sequenceCount? data first stop
  if count = 0 then
    if next ≠ stop || limit < out.size + literals.size then none
    return (append out (Bytes.ofArray literals), before, recent)
  else
    let (tables, next) ← readTables? data next stop before
    let bits ← Backward.ofRange? data next stop
    let (a, bits) ← bits.read? tables.literals.log
    let (b, bits) ← bits.read? tables.offsets.log
    let (c, bits) ← bits.read? tables.repeats.log
    let work ← execute tables literals origin limit count ⟨a, b, c⟩ bits ⟨out, 0, recent⟩
    let left := slice literals work.used (literals.size - work.used)
    if limit < work.out.size + left.length then none
    return (append work.out left, some tables, work.recent)

end RemoteCall.Zstd

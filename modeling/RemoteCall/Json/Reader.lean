import RemoteCall.Json.Flaw
import RemoteCall.Json.Writer
import RemoteCall.Text.Utf8

/-!
# Reading JSON

A reader takes a value of a form that is known beforehand off the front of a text, given as bytes.
The text is read once from left to right and the first flaw counts, whether it is one of the grammar
or a value of another form; so a value is looked at only as far as its form needs it.

Lists and objects are read item by item. Each item takes at least one byte, so the length of what is
left bounds their number, and the loops count down from it.

Fields that nobody asked for are skipped (`skipValue`) by the grammar alone: their strings may hold
any bytes, and their numbers may be of any size.
-/

namespace RemoteCall.Json

/-- A reader takes a value off the front of a text or finds a flaw. -/
abbrev Reader (α : Type) := StateT Bytes (Except Flaw) α

/-- Whether a byte is a blank of the grammar. -/
def isBlank (b : UInt8) : Bool :=
  b = 0x20 || b = 0x0a || b = 0x09 || b = 0x0d

/-- Skips blanks and shows the byte behind them. -/
def peek : Reader (Option UInt8) := fun bytes =>
  let rest := bytes.dropWhile isBlank
  .ok (rest.head?, rest)

/-- Shows the next byte, blank or not. -/
def peekByte : Reader (Option UInt8) := fun bytes =>
  .ok (bytes.head?, bytes)

/-- Drops a byte that was shown. -/
def eat : Reader Unit := fun bytes =>
  .ok ((), bytes.drop 1)

/-- Skips blanks and shows the first byte of a value. -/
def peekValue : Reader UInt8 := do
  match ← peek with
  | some b => return b
  | none => throw .endOfValue

/-- Takes the rest of a word. -/
def word : Bytes → Reader Unit
  | [] => return ()
  | expected :: more => do
    match ← peekByte with
    | none => throw .endOfValue
    | some b => do
      eat
      if b = expected then word more else throw .badWord

/-! ## Strings -/

/-- The value of a hexadecimal digit. -/
def hexValue? (b : UInt8) : Option Nat :=
  if 0x30 ≤ b && b ≤ 0x39 then some (b.toNat - 0x30)
  else if 0x61 ≤ b && b ≤ 0x66 then some (b.toNat - 0x57)
  else if 0x41 ≤ b && b ≤ 0x46 then some (b.toNat - 0x37)
  else none

/-- The number of four hexadecimal digits. -/
def hexUnit? (a b c d : UInt8) : Option Nat := do
  return (((← hexValue? a) * 16 + (← hexValue? b)) * 16 + (← hexValue? c)) * 16 + (← hexValue? d)

/-- The byte that a short escape stands for. -/
def shortEscape? (b : UInt8) : Option UInt8 :=
  if b = 0x22 || b = 0x5c || b = 0x2f then some b
  else if b = 0x62 then some 0x08
  else if b = 0x66 then some 0x0c
  else if b = 0x6e then some 0x0a
  else if b = 0x72 then some 0x0d
  else if b = 0x74 then some 0x09
  else none

/-- Whether a unit is the first half of a surrogate pair. -/
def isFirstHalf (unit : Nat) : Bool := 0xd800 ≤ unit && unit ≤ 0xdbff

/-- Whether a unit is the second half of a surrogate pair. -/
def isSecondHalf (unit : Nat) : Bool := 0xdc00 ≤ unit && unit ≤ 0xdfff

/-- The bytes of a code point, added in reverse to those found. -/
def pushPoint (found : Bytes) (point : Nat) : Bytes :=
  (Bytes.ofText (String.singleton (Char.ofNat point))).reverse ++ found

/-- The bytes of a string up to its closing quote, and the rest; `found` collects them in reverse. -/
def stringFrom (found : Bytes) : Bytes → Except Flaw (Bytes × Bytes)
  | [] => .error .endOfText
  | b :: rest =>
    if b = 0x22 then .ok (found.reverse, rest)
    else if b = 0x5c then
      match rest with
      | [] => .error .endOfText
      | e :: rest =>
        if e = 0x75 then
          match rest with
          | a :: b :: c :: d :: rest =>
            match hexUnit? a b c d with
            | none => .error .badEscape
            | some unit =>
              if isSecondHalf unit then .error .loneSurrogate
              else if isFirstHalf unit then
                match rest with
                | [] => .error .endOfText
                | s :: rest =>
                  if s ≠ 0x5c then .error .halfSurrogate
                  else match rest with
                    | [] => .error .endOfText
                    | u :: rest =>
                      if u ≠ 0x75 then .error .halfSurrogate
                      else match rest with
                        | a :: b :: c :: d :: rest =>
                          match hexUnit? a b c d with
                          | none => .error .badEscape
                          | some second =>
                            if isSecondHalf second then
                              stringFrom (pushPoint found
                                ((unit - 0xd800) * 0x400 + (second - 0xdc00) + 0x10000)) rest
                            else .error .loneSurrogate
                        | _ => .error .endOfText
              else stringFrom (pushPoint found unit) rest
          | _ => .error .endOfText
        else match shortEscape? e with
          | some c => stringFrom (c :: found) rest
          | none => .error .badEscape
    else if b < 0x20 then .error .controlCharacter
    else stringFrom (b :: found) rest

/-- Reads a string behind its opening quote. -/
def string : Reader String := fun bytes =>
  match stringFrom [] bytes with
  | .error flaw => .error flaw
  | .ok (content, rest) =>
    match Utf8.decode content with
    | .ok text => .ok (text, rest)
    | .error _ => .error .badText

/-- Skips a string behind its opening quote. -/
def skipString : Bytes → Except Flaw (Unit × Bytes)
  | [] => .error .endOfText
  | b :: rest =>
    if b = 0x22 then .ok ((), rest)
    else if b = 0x5c then
      match rest with
      | [] => .error .endOfText
      | e :: rest =>
        if e = 0x75 then
          match rest with
          | a :: b :: c :: d :: rest =>
            if (hexUnit? a b c d).isSome then skipString rest else .error .badEscape
          | _ => .error .endOfText
        else if (shortEscape? e).isSome then skipString rest
        else .error .badEscape
    else if b < 0x20 then .error .controlCharacter
    else skipString rest

/-! ## Numbers -/

/-- Whether a byte is a decimal digit. -/
def isDigit (b : UInt8) : Bool := 0x30 ≤ b && b ≤ 0x39

/-- The digits at the front. -/
def digits : Reader Bytes := fun bytes =>
  .ok (bytes.takeWhile isDigit, bytes.dropWhile isDigit)

/-- Adds digits to a number as long as it stays below `2 ^ 64`; returns the number and the digits
that no longer fit. -/
def absorb (n : Nat) : Bytes → Nat × Bytes
  | [] => (n, [])
  | d :: rest =>
    let next := n * 10 + (d.toNat - 0x30)
    if next < 2 ^ 64 then absorb next rest else (n, d :: rest)

/-- Scales by a power of ten, in steps that a floating-point number can hold; `none` where the
number becomes too large. -/
def scale (x : Float) (exponent : Int) : Nat → Option Float
  | 0 => some x
  | steps + 1 =>
    if exponent.natAbs ≤ 308 then
      let power := Float.ofScientific 1 false exponent.natAbs
      if 0 ≤ exponent then
        let y := x * power
        if y.isInf then none else some y
      else some (x / power)
    else if x == 0.0 then some x
    else if 0 ≤ exponent then none
    else scale (x / 1e308) (exponent + 308) steps

/-- The floating-point number of a significand and a decimal exponent. -/
def float (negative : Bool) (significand : Nat) (exponent : Int) : Reader Number := do
  match scale (UInt64.ofNat significand).toFloat exponent (exponent.natAbs + 1) with
  | some x => return .float (if negative then -x else x)
  | none => throw .hugeNumber

/-- Reads an exponent behind its letter and finishes the number. -/
def exponentPart (negative : Bool) (significand : Nat) (start : Int) : Reader Number := do
  eat
  let minus ← do
    match ← peekByte with
    | some b =>
      if b = 0x2b then eat; pure false
      else if b = 0x2d then eat; pure true
      else pure false
    | none => pure false
  match ← peekByte with
  | none => throw .endOfValue
  | some b =>
    if !isDigit b then throw .badNumber
    let ds ← digits
    let n := ds.foldl (fun n d => n * 10 + (d.toNat - 0x30)) 0
    if n < 2 ^ 31 then
      float negative significand (if minus then start - Int.ofNat n else start + Int.ofNat n)
    else if significand ≠ 0 && !minus then throw .hugeNumber
    else return .float (if negative then -0.0 else 0.0)

/-- Finishes a number whose digits are read: an exponent may follow. -/
def afterDigits (negative : Bool) (significand : Nat) (exponent : Int) : Reader Number := do
  match ← peekByte with
  | some b =>
    if b = 0x65 || b = 0x45 then exponentPart negative significand exponent
    else float negative significand exponent
  | none => float negative significand exponent

/-- Reads the digits behind a point and finishes the number. -/
def fractionPart (negative : Bool) (significand : Nat) (exponent : Int) : Reader Number := do
  eat
  let ds ← digits
  if ds.isEmpty then
    match ← peekByte with
    | some _ => throw .badNumber
    | none => throw .endOfValue
  let (significand, left) := absorb significand ds
  afterDigits negative significand (exponent - (ds.length - left.length : Nat))

/-- Reads a number behind its sign. -/
def number (negative : Bool) : Reader Number := do
  match ← peekByte with
  | none => throw .endOfValue
  | some first =>
    if !isDigit first then throw .badNumber
    let ds ← digits
    if first = 0x30 && ds.length > 1 then throw .badNumber
    let (significand, left) := absorb 0 ds
    match ← peekByte with
    | some 0x2e => fractionPart negative significand left.length
    | next =>
      if next = some 0x65 || next = some 0x45 then
        exponentPart negative significand left.length
      else if !left.isEmpty then float negative significand left.length
      else if !negative then return .whole significand
      else if significand = 0 || 2 ^ 63 < significand then
        return .float (-(UInt64.ofNat significand).toFloat)
      else return .whole (-significand)

/-- Skips a number behind its sign. -/
def skipNumber : Reader Unit := do
  let bad {α : Type} : Reader α := throw .badNumber
  match ← peekByte with
  | some first =>
    if !isDigit first then bad
    let ds ← digits
    if first = 0x30 && ds.length > 1 then bad
  | none => bad
  if (← peekByte) = some 0x2e then
    eat
    if (← digits).isEmpty then bad
  let next ← peekByte
  if next = some 0x65 || next = some 0x45 then
    eat
    let sign ← peekByte
    if sign = some 0x2b || sign = some 0x2d then eat
    if (← digits).isEmpty then bad

/-! ## Values of another form, and values nobody asked for -/

/-- Reads as much of a value as tells its form, and reports it in place of the expected one. -/
def mismatch {α : Type} (expected : String) : Reader α := do
  match ← peekByte with
  | some 0x6e => eat; word [0x75, 0x6c, 0x6c]; throw (.badType .null expected)
  | some 0x74 => eat; word [0x72, 0x75, 0x65]; throw (.badType (.bool true) expected)
  | some 0x66 => eat; word [0x61, 0x6c, 0x73, 0x65]; throw (.badType (.bool false) expected)
  | some 0x2d => eat; throw (.badType (.number (← number true)) expected)
  | some 0x22 => eat; throw (.badType (.text (← string)) expected)
  | some 0x5b => throw (.badType .sequence expected)
  | some 0x7b => throw (.badType .map expected)
  | some b =>
    if isDigit b then throw (.badType (.number (← number false)) expected) else throw .noValue
  | none => throw .noValue

/-- What encloses a value: lists and objects, the innermost first. -/
inductive Bracket where
  | list
  | object
  deriving DecidableEq

/-- The flaw of a text that ends inside a list or an object. -/
def Bracket.unfinished : Bracket → Flaw
  | list => .endOfList
  | object => .endOfObject

/-- Skips a key of an object and its colon. -/
def skipKey : Reader Unit := do
  match ← peek with
  | some 0x22 => eat
  | some _ => throw .badKey
  | none => throw .endOfObject
  skipString
  match ← peek with
  | some 0x3a => eat
  | some _ => throw .noColon
  | none => throw .endOfObject

/-- Behind a value or an opening bracket, closes what ends here; returns what still encloses the
value that follows, if one does. `fresh` says that nothing was read yet in the innermost bracket. -/
def close (fresh : Bool) : List Bracket → Reader (List Bracket)
  | [] => return []
  | frame :: outer => do
    match ← peek with
    | none => throw frame.unfinished
    | some b =>
      if b = 0x2c && !fresh then
        eat
        return frame :: outer
      else if (b = 0x5d && frame = .list) || (b = 0x7d && frame = .object) then
        eat
        close false outer
      else if fresh then return frame :: outer
      else match frame with
        | .list => throw .noCommaInList
        | .object => throw .noCommaInObject

/-- Skips a value within some brackets and all that follows up to the end of the outermost. -/
def skipWithin : Nat → List Bracket → Reader Unit
  | 0, _ => throw .endOfValue
  | steps + 1, enclosing => do
    let opened ← do
      match ← peekValue with
      | 0x6e => eat; word [0x75, 0x6c, 0x6c]; pure none
      | 0x74 => eat; word [0x72, 0x75, 0x65]; pure none
      | 0x66 => eat; word [0x61, 0x6c, 0x73, 0x65]; pure none
      | 0x2d => eat; skipNumber; pure none
      | 0x22 => eat; skipString; pure none
      | 0x5b => eat; pure (some Bracket.list)
      | 0x7b => eat; pure (some Bracket.object)
      | b => if isDigit b then skipNumber; pure none else throw .noValue
    let enclosing ←
      match opened with
      | some bracket => close true (bracket :: enclosing)
      | none => close false enclosing
    match enclosing with
    | [] => return ()
    | .list :: _ => skipWithin steps enclosing
    | .object :: _ => do
      skipKey
      skipWithin steps enclosing

/-- Skips a value. -/
def skipValue : Reader Unit := do
  skipWithin ((← get).length + 1) []

/-! ## Lists and objects -/

/-- Reads a string. -/
def readText (expected : String) : Reader String := do
  match ← peekValue with
  | 0x22 => eat; string
  | _ => mismatch expected

/-- Reads a whole number below 256. -/
def readByte : Reader UInt8 := do
  let n ← do
    match ← peekValue with
    | 0x2d => eat; number true
    | b => if isDigit b then number false else mismatch "u8"
  match n with
  | .float x => throw (.badType (.number (.float x)) "u8")
  | .whole n => if 0 ≤ n && n < 256 then return UInt8.ofNat n.toNat else throw (.badValue n "u8")

/-- Stops before the next item of a list, if there is one. -/
def nextItem (first : Bool) : Reader Bool := do
  match ← peek with
  | none => throw .endOfList
  | some 0x5d => return false
  | some b =>
    if first then return true
    else if b = 0x2c then
      eat
      match ← peek with
      | some 0x5d => throw .trailingComma
      | some _ => return true
      | none => throw .endOfValue
    else throw .noCommaInList

/-- Ends a list of which no more items are wanted. -/
def endList : Reader Unit := do
  match ← peek with
  | some 0x5d => eat
  | some 0x2c =>
    eat
    match ← peek with
    | some 0x5d => throw .trailingComma
    | _ => throw .trailing
  | some _ => throw .trailing
  | none => throw .endOfList

/-- Reads items up to the end of a list; `found` collects them in reverse. -/
def itemsFrom {α : Type} (readItem : Reader α) : Nat → List α → Reader (List α)
  | 0, _ => throw .endOfList
  | steps + 1, found => do
    if ← nextItem found.isEmpty then
      let item ← readItem
      itemsFrom readItem steps (item :: found)
    else return found.reverse

/-- Reads a list. -/
def readList {α : Type} (readItem : Reader α) : Reader (List α) := do
  match ← peekValue with
  | 0x5b =>
    eat
    let items ← itemsFrom readItem ((← get).length + 1) []
    endList
    return items
  | _ => mismatch "a sequence"

/-- Stops before the next key of an object, if there is one. -/
def nextKey (first : Bool) : Reader Bool := do
  match ← peek with
  | none => throw .endOfObject
  | some 0x7d => return false
  | some b =>
    if first then
      if b = 0x22 then return true else throw .badKey
    else if b = 0x2c then
      eat
      match ← peek with
      | some 0x22 => return true
      | some 0x7d => throw .trailingComma
      | some _ => throw .badKey
      | none => throw .endOfValue
    else throw .noCommaInObject

/-- Takes the colon behind a key. -/
def colon : Reader Unit := do
  match ← peek with
  | some 0x3a => eat
  | some _ => throw .noColon
  | none => throw .endOfObject

/-- Reads fields up to the end of an object, each with what was gathered before it. -/
def fieldsFrom {σ : Type} (readField : String → σ → Reader σ) : Nat → Bool → σ → Reader σ
  | 0, _, _ => throw .endOfObject
  | steps + 1, first, state => do
    if ← nextKey first then
      eat
      let key ← string
      let state ← readField key state
      fieldsFrom readField steps false state
    else return state

/-- Reads a structure, given as an object of its fields or as a list of them in order. -/
def readStructure {σ α : Type} (name : String) (empty : σ) (readField : String → σ → Reader σ)
    (finish : σ → Except Flaw α) (ofList : Reader α) : Reader α := do
  match ← peekValue with
  | 0x5b =>
    eat
    let value ← ofList
    endList
    return value
  | 0x7b =>
    eat
    let state ← fieldsFrom readField ((← get).length + 1) true empty
    let value ← finish state
    eat
    return value
  | _ => mismatch name

/-- Reads a field for which no value was found yet. -/
def readOnce {α : Type} (name : String) (found : Option α) (readValue : Reader α) : Reader α := do
  if found.isSome then throw (.duplicateField name)
  colon
  readValue

/-- Reads the next item of a structure given as a list. -/
def readNext {α : Type} (index : Nat) (expected : String) (readItem : Reader α) : Reader α := do
  if ← nextItem (index = 0) then readItem else throw (.badLength index expected)

/-- What a reader makes of a whole text. -/
def readAll {α : Type} (reader : Reader α) (bytes : Bytes) : Except Flaw α :=
  match reader bytes with
  | .ok (value, rest) => if (rest.dropWhile isBlank).isEmpty then .ok value else .error .trailing
  | .error flaw => .error flaw

end RemoteCall.Json

import RemoteCall.Bytes

/-!
# Writing JSON

Values are written without blanks. Inside a string a quote, a backslash and the control characters
below the space are escaped, with the short escape where there is one; all other bytes of its UTF-8
stand as they are.
-/

namespace RemoteCall.Json

/-- The digit of a number below sixteen, in lower case. -/
def hexDigit (n : Nat) : UInt8 :=
  if n < 10 then UInt8.ofNat (0x30 + n) else UInt8.ofNat (0x57 + n)

/-- A byte of a text as it stands inside a string. -/
def escapeByte (b : UInt8) : Bytes :=
  if b = 0x22 then [0x5c, 0x22]
  else if b = 0x5c then [0x5c, 0x5c]
  else if b = 0x08 then [0x5c, 0x62]
  else if b = 0x09 then [0x5c, 0x74]
  else if b = 0x0a then [0x5c, 0x6e]
  else if b = 0x0c then [0x5c, 0x66]
  else if b = 0x0d then [0x5c, 0x72]
  else if b < 0x20 then
    [0x5c, 0x75, 0x30, 0x30, hexDigit (b.toNat / 16), hexDigit (b.toNat % 16)]
  else [b]

/-- A text as a string. -/
def writeText (text : String) : Bytes :=
  0x22 :: ((Bytes.ofText text).flatMap escapeByte ++ [0x22])

/-- A number in decimal. -/
def writeNat (n : Nat) : Bytes :=
  (Nat.toDigits 10 n).map fun c => UInt8.ofNat c.toNat

/-- Items behind the first one, each behind a comma. -/
def writeMore {α : Type} (writeItem : α → Bytes) (items : List α) : Bytes :=
  items.flatMap fun item => 0x2c :: writeItem item

/-- A list between brackets. -/
def writeList {α : Type} (writeItem : α → Bytes) : List α → Bytes
  | [] => [0x5b, 0x5d]
  | item :: items => 0x5b :: (writeItem item ++ writeMore writeItem items ++ [0x5d])

/-- A key, a colon and a value. -/
def writeField (field : String × Bytes) : Bytes :=
  writeText field.1 ++ 0x3a :: field.2

/-- An object of fields, whose values are written already. -/
def writeObject : List (String × Bytes) → Bytes
  | [] => [0x7b, 0x7d]
  | field :: fields => 0x7b :: (writeField field ++ writeMore writeField fields ++ [0x7d])

/-- The word for nothing. -/
def writeNull : Bytes :=
  [0x6e, 0x75, 0x6c, 0x6c]

end RemoteCall.Json

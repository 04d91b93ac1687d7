import RemoteCall.Decimal.Shortest
import RemoteCall.Text.Quoted

/-!
# Flaws of JSON texts

`Flaw` lists all that can be wrong with a JSON text that is read as a value of a known form, and
`Flaw.message` its wording. `Found` is a value that stands where another form was due.
-/

namespace RemoteCall.Json

/-- A number as it is read: whole where it has neither point nor exponent and fits 64 bits. -/
inductive Number where
  | whole (n : Int)
  | float (x : Float)

/-- What was found in place of the expected form. -/
inductive Found where
  | null
  | bool (b : Bool)
  | number (n : Number)
  | text (t : String)
  | sequence
  | map

/-- The wording of what was found. -/
def Found.message : Found → String
  | null => "null"
  | bool b => "boolean \x60" ++ (if b then "true" else "false") ++ "\x60"
  | number (.whole n) => "integer \x60" ++ toString n ++ "\x60"
  | number (.float x) => "floating point \x60" ++ Decimal.floatText x.toBits ++ "\x60"
  | text t => "string " ++ Text.quoted t
  | sequence => "sequence"
  | map => "map"

/-- What is wrong with a JSON text. -/
inductive Flaw where
  /-- The text ends inside a list. -/
  | endOfList
  /-- The text ends inside an object. -/
  | endOfObject
  /-- The text ends inside a string. -/
  | endOfText
  /-- The text ends where a value is due. -/
  | endOfValue
  /-- No colon stands behind a key. -/
  | noColon
  /-- Neither a comma nor the end of the list follows an item. -/
  | noCommaInList
  /-- Neither a comma nor the end of the object follows an entry. -/
  | noCommaInObject
  /-- A word starts like `null`, `true` or `false` and goes on differently. -/
  | badWord
  /-- No value starts here. -/
  | noValue
  /-- A backslash is followed by something that is no escape. -/
  | badEscape
  /-- A number breaks the grammar of numbers. -/
  | badNumber
  /-- A number is too large for a floating-point number. -/
  | hugeNumber
  /-- The bytes of a string are no UTF-8. -/
  | badText
  /-- A control character stands in a string without an escape. -/
  | controlCharacter
  /-- A key is no string. -/
  | badKey
  /-- Half of a surrogate pair stands alone. -/
  | loneSurrogate
  /-- The second half of a surrogate pair is missing. -/
  | halfSurrogate
  /-- A comma stands before the end of a list or an object. -/
  | trailingComma
  /-- Something follows the value. -/
  | trailing
  /-- A value has another form than the expected one. -/
  | badType (found : Found) (expected : String)
  /-- A whole number does not fit. -/
  | badValue (n : Int) (expected : String)
  /-- A list has too few items. -/
  | badLength (length : Nat) (expected : String)
  /-- A field is missing. -/
  | missingField (name : String)
  /-- A field stands twice. -/
  | duplicateField (name : String)
  /-- A name is none of those of a choice. -/
  | badChoice (name : String) (first second : String)

/-- A word between grave accents. -/
def ticked (word : String) : String :=
  "\x60" ++ word ++ "\x60"

/-- The wording of a flaw. -/
def Flaw.message : Flaw → String
  | endOfList => "EOF while parsing a list"
  | endOfObject => "EOF while parsing an object"
  | endOfText => "EOF while parsing a string"
  | endOfValue => "EOF while parsing a value"
  | noColon => "expected " ++ ticked ":"
  | noCommaInList => "expected " ++ ticked "," ++ " or " ++ ticked "]"
  | noCommaInObject => "expected " ++ ticked "," ++ " or " ++ ticked "\x7d"
  | badWord => "expected ident"
  | noValue => "expected value"
  | badEscape => "invalid escape"
  | badNumber => "invalid number"
  | hugeNumber => "number out of range"
  | badText => "invalid unicode code point"
  | controlCharacter => "control character (\\u0000-\\u001F) found while parsing a string"
  | badKey => "key must be a string"
  | loneSurrogate => "lone leading surrogate in hex escape"
  | halfSurrogate => "unexpected end of hex escape"
  | trailingComma => "trailing comma"
  | trailing => "trailing characters"
  | badType found expected => "invalid type: " ++ found.message ++ ", expected " ++ expected
  | badValue n expected =>
    "invalid value: integer " ++ ticked (toString n) ++ ", expected " ++ expected
  | badLength length expected =>
    "invalid length " ++ toString length ++ ", expected " ++ expected
  | missingField name => "missing field " ++ ticked name
  | duplicateField name => "duplicate field " ++ ticked name
  | badChoice name first second =>
    "unknown variant " ++ ticked name ++ ", expected " ++ ticked first ++ " or " ++ ticked second

end RemoteCall.Json

import RemoteCall.Blob.Reader
import Std.Data.ExtTreeMap

/-!
# Parameters

A parameter of a call may have any type that is built from scalars by lists, options, tuples and maps.
A tuple of three or more parts is a pair of its first part and the others, and the keys of a map may
have any type that has an order.

The parts are written one behind the other, and a map is written as the list of its entries in
increasing order of their keys. A map is read in any order; of two entries with the same key the later
counts.

Types of another make, such as records, travel too. All that a call knows of a type is its `Form`: the
name that requests give it, and how its values are written and read.
-/

namespace RemoteCall.Blob

/-- A type of parameters, built up from scalars. -/
inductive Parameter : Type → Type 1
  | plain (scalar : Scalar) : Parameter scalar.Value
  | list {α : Type} (item : Parameter α) : Parameter (List α)
  | option {α : Type} (item : Parameter α) : Parameter (Option α)
  | pair {α β : Type} (first : Parameter α) (second : Parameter β) : Parameter (α × β)
  | map {κ α : Type} {order : κ → κ → Ordering} [Std.TransCmp order] [Std.LawfulEqCmp order]
      (key : Parameter κ) (item : Parameter α) : Parameter (Std.ExtTreeMap κ α order)

namespace Parameter

/-- The bytes of a value. -/
def write : {α : Type} → Parameter α → α → Bytes
  | _, .plain scalar, value => scalar.write value
  | _, .list item, items => writeList item.write items
  | _, .option _, none => [0]
  | _, .option item, some value => 1 :: item.write value
  | _, .pair first second, value => first.write value.1 ++ second.write value.2
  | _, @map _ _ _ _ _ key item, entries =>
    writeList (fun entry => key.write entry.1 ++ item.write entry.2) entries.toList

/-- Reads a value. -/
def read : {α : Type} → Parameter α → Reader α
  | _, .plain scalar => scalar.read
  | _, .list item => readList item.read
  | _, .option item => readOption item.read
  | _, .pair first second => return (← first.read, ← second.read)
  | _, @map _ _ order _ _ key item => do
    let entries ← readList (do return (← key.read, ← item.read))
    return .ofList entries order

/-- The blob of a value. -/
def toBlob {α : Type} (parameter : Parameter α) (value : α) : Except Fault Bytes :=
  bounded (parameter.write value)

/-- The value of a whole blob. -/
def ofBlob {α : Type} (parameter : Parameter α) (bytes : Bytes) : Except Fault α :=
  ofBytes parameter.read bytes

end Parameter

/-! ## Forms -/

/-- What a call knows of a type. Writing and reading fail with a reason. -/
structure Form (α : Type) where
  /-- The name of the type in requests. -/
  name : String
  write : α → Except String Bytes
  read : Bytes → Except String α

namespace Form

variable {α : Type}

/-- The blob of a value. -/
def toBlob (form : Form α) (value : α) : Except Fault Bytes :=
  (form.write value).mapError .unwritable

/-- The value of a blob. -/
def ofBlob (form : Form α) (blob : Bytes) : Except Fault α :=
  (form.read blob).mapError .unreadable

/-- A record under a name, which travels as the tuple of its fields does. -/
def record {β : Type} (form : Form β) (name : String) (fields : α → β) (make : β → α) : Form α where
  name := name
  write value := form.write (fields value)
  read blob := (form.read blob).map make

end Form

/-- The form of a type that is built from scalars. -/
def Parameter.form {α : Type} (parameter : Parameter α) (name : String) : Form α where
  name := name
  write value :=
    let bytes := parameter.write value
    if bytes.length ≤ sizeLimit then .ok bytes else .error Flaw.tooLarge.message
  read blob := (readAll parameter.read blob).mapError Flaw.message

/-- The form of a kind of scalars. -/
def Scalar.form (scalar : Scalar) : Form scalar.Value :=
  (Parameter.plain scalar).form scalar.name

end RemoteCall.Blob

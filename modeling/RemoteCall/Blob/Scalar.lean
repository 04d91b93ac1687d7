import RemoteCall.Bytes

/-!
# Scalars

A scalar is a value that is not made up of others: a number of a fixed width, a truth value, a
character, nothing, or a text. `Scalar.Value` is the type of the values of a kind of scalars, and
`Scalar.name` the name of that type in requests and in the wording of flaws.

Floating-point numbers are kept as their bits, so that every one of them equals itself.
-/

namespace RemoteCall.Blob

/-- A kind of scalars. -/
inductive Scalar where
  | u8 | u16 | u32 | u64 | u128
  | i8 | i16 | i32 | i64 | i128
  | bool
  | f32 | f64
  | char
  | unit
  | text
  deriving DecidableEq, Repr

namespace Scalar

/-- The values of a kind. -/
def Value : Scalar → Type
  | u8 => UInt8
  | u16 => UInt16
  | u32 => UInt32
  | u64 => UInt64
  | u128 => BitVec 128
  | i8 => Int8
  | i16 => Int16
  | i32 => Int32
  | i64 => Int64
  | i128 => BitVec 128
  | bool => Bool
  | f32 => UInt32
  | f64 => UInt64
  | char => Char
  | unit => Unit
  | text => String

/-- The name of a kind. -/
def name : Scalar → String
  | u8 => "u8"
  | u16 => "u16"
  | u32 => "u32"
  | u64 => "u64"
  | u128 => "u128"
  | i8 => "i8"
  | i16 => "i16"
  | i32 => "i32"
  | i64 => "i64"
  | i128 => "i128"
  | bool => "bool"
  | f32 => "f32"
  | f64 => "f64"
  | char => "char"
  | unit => "()"
  | text => "alloc::string::String"

end Scalar

end RemoteCall.Blob

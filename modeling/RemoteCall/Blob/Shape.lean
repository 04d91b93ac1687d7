import RemoteCall.Blob.Parameter

/-!
# Shapes

A shape describes a type of parameters whose name is known: a kind of scalars, a list, an option, a
tuple of two or three parts, or a map whose keys are texts. `Shape.Value` is the type itself, and
`Shape.parameter` its make, by which it is written and read.
-/

namespace RemoteCall.Blob

/-- A description of a type. -/
inductive Shape where
  | plain (scalar : Scalar)
  | list (item : Shape)
  | option (item : Shape)
  | pair (first second : Shape)
  | triple (first second third : Shape)
  | dictionary (item : Shape)
  deriving DecidableEq, Repr

namespace Shape

/-- The type of a shape. -/
def Value : Shape → Type
  | plain scalar => scalar.Value
  | list item => List item.Value
  | option item => Option item.Value
  | pair first second => first.Value × second.Value
  | triple first second third => first.Value × second.Value × third.Value
  | dictionary item => Std.ExtTreeMap String item.Value compare

/-- How the type of a shape is built from scalars. -/
def parameter : (shape : Shape) → Parameter shape.Value
  | plain scalar => .plain scalar
  | list item => .list item.parameter
  | option item => .option item.parameter
  | pair first second => .pair first.parameter second.parameter
  | triple first second third => .pair first.parameter (.pair second.parameter third.parameter)
  | dictionary item => .map (.plain .text) item.parameter

/-- The name of the type of a shape. -/
def name : Shape → String
  | plain scalar => scalar.name
  | list item => "alloc::vec::Vec<" ++ item.name ++ ">"
  | option item => "core::option::Option<" ++ item.name ++ ">"
  | pair first second => "(" ++ first.name ++ ", " ++ second.name ++ ")"
  | triple first second third =>
    "(" ++ first.name ++ ", " ++ second.name ++ ", " ++ third.name ++ ")"
  | dictionary item =>
    "alloc::collections::btree::map::BTreeMap<alloc::string::String, " ++ item.name ++ ">"

/-- What a call knows of the type of a shape. -/
def form (shape : Shape) : Form shape.Value :=
  shape.parameter.form shape.name

/-- Byte strings are lists of single bytes. -/
abbrev bytes : Shape := list (plain .u8)

end Shape

end RemoteCall.Blob

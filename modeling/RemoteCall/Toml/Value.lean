/-!
# Values of a TOML document

A table keeps its entries in the order in which they were written. With each table goes how it came
into the document (`Origin`), because that decides whether later lines may add to it.

Floats and dates are kept as they were spelled: no setting is one of them, so that only their grammar
matters.
-/

namespace RemoteCall.Toml

/-- A value that a setting can have. -/
inductive Scalar where
  | text (value : String)
  | integer (value : Int)
  | boolean (value : Bool)
  deriving DecidableEq, Repr

/-- How a table came into a document. -/
inductive Origin where
  /-- By a header of its own; the document itself counts as such a table. -/
  | header
  /-- By a header of a table below it. -/
  | implied
  /-- By a dotted key. -/
  | dotted
  /-- Between braces, all at once. -/
  | braces
  deriving DecidableEq, Repr

/-- A value of a document. -/
inductive Value where
  | scalar (value : Scalar)
  | float (spelling : String)
  | moment (spelling : String)
  | array (items : List Value)
  /-- Tables that were written one by one, each under its own header. -/
  | tables (elements : List (List (String × Value)))
  | table (origin : Origin) (entries : List (String × Value))

/-- The entries of a table in the order in which they were written. -/
abbrev Entries : Type := List (String × Value)

end RemoteCall.Toml

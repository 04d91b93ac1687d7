import RemoteCall.Decimal.Integer

/-!
# Levels of logging

There are five levels, from errors alone to everything. A level is read from its name in letters of
either case, or from its number.
-/

namespace RemoteCall.Settings

/-- How much is logged. -/
inductive Level where
  | error
  | warn
  | info
  | debug
  | trace
  deriving DecidableEq, Repr

namespace Level

/-- The name of a level. -/
def name : Level → String
  | error => "error"
  | warn => "warn"
  | info => "info"
  | debug => "debug"
  | trace => "trace"

/-- The number of a level; a greater one logs more. -/
def number : Level → Nat
  | error => 1
  | warn => 2
  | info => 3
  | debug => 4
  | trace => 5

/-- All levels. -/
def all : List Level := [error, warn, info, debug, trace]

/-- The level with a name or with a number. -/
def ofText? (text : String) : Option Level :=
  match Decimal.natBelow? (2 ^ 64) text with
  | some n => all.find? (·.number = n)
  | none => all.find? (·.name = text.map Char.toLower)

theorem ofText?_name (level : Level) : ofText? level.name = some level := by
  cases level <;> decide +kernel

end Level

end RemoteCall.Settings

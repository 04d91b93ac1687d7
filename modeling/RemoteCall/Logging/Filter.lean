import RemoteCall.Settings.Level

/-!
# Filters of the log

A filter is a list of directives with commas between them. A directive names a level, or it names what
it is about and, behind an equals sign, the level for that; without a level everything of it is logged.
It is about records whose target starts with a text. In brackets may stand the name of a span, and in
braces a field: such a directive is about records that have the field; one with a span, or with a value
for the field, is about what happens inside spans and never about a record outside of them.

Of the directives that are about a record the most specific one decides: the one with the longest
target, then the one with a field, and among equals the last. A filter without directives lets errors
pass.
-/

namespace RemoteCall.Logging

open Settings (Level)

/-- One rule of a filter. -/
structure Directive where
  /-- How the targets start that it is about. -/
  target : Option String
  /-- The field that records must have. -/
  field : Option String
  /-- Whether it is only about what happens inside spans. -/
  inSpan : Bool
  /-- The level up to which records pass; without one, none does. -/
  level : Option Level
  deriving DecidableEq, Repr

/-- A record as filters see it. -/
structure Record where
  level : Level
  target : String
  message : String
  fields : List (String × String)
  deriving DecidableEq, Repr

/-! ## Reading -/

/-- The bound that a level's name or number stands for; it may also stand for no level at all. -/
def bound? (text : String) : Option (Option Level) :=
  match Level.ofText? text with
  | some level => some (some level)
  | none =>
    if Decimal.natBelow? (2 ^ 64) text = some 0 || text.map Char.toLower = "off" then some none
    else none

/-- Whether a directive may start with a character: a letter or a digit of any script, or one of three
marks. -/
def mayStart (c : Char) : Bool :=
  c.isAlphanum || c = '-' || c = ':' || c = '_' || '\x80' ≤ c

/-- The level behind the equals sign of a directive, if there is one. -/
def levelAfter : List Char → Option (Option Level)
  | [] => some (some .trace)
  | '=' :: [] => some (some .trace)
  | '=' :: rest => bound? (String.ofList rest)
  | _ => none

/-- The directive that goes on behind an opening bracket. -/
def spanDirective? (target : Option String) (text : List Char) : Option Directive :=
  let isInner (c : Char) := c ≠ ']' && c ≠ '\x7b'
  let name := text.takeWhile isInner
  match text.dropWhile isInner with
  | ']' :: rest => do return ⟨target, none, true, ← levelAfter rest⟩
  | '\x7b' :: rest =>
    let field := rest.takeWhile (· ≠ '\x7d')
    match rest.dropWhile (· ≠ '\x7d') with
    | '\x7d' :: ']' :: rest =>
      if field.isEmpty then none
      else do
        let fieldName := String.ofList (field.takeWhile (· ≠ '='))
        return ⟨target, some fieldName, !name.isEmpty || field.contains '=', ← levelAfter rest⟩
    | _ => none
  | _ => none

/-- The directive that a text spells. -/
def directive? (text : String) : Option Directive :=
  let cs := text.toList
  let isHead (c : Char) := c ≠ '=' && c ≠ '['
  let head := String.ofList (cs.takeWhile isHead)
  if cs.head?.any mayStart then
    match cs.dropWhile isHead with
    | [] =>
      match bound? head with
      | some level => some ⟨none, none, false, level⟩
      | none => some ⟨some head, none, false, some .trace⟩
    | '[' :: rest => spanDirective? (some head) rest
    | rest => do return ⟨some head, none, false, ← levelAfter rest⟩
  else
    match cs with
    | '[' :: rest => spanDirective? none rest
    | _ => none

/-- The directives of a filter. -/
def filter? (text : String) : Option (List Directive) :=
  ((text.splitOn ",").filter (· ≠ "")).mapM directive?

/-! ## Filtering -/

/-- Whether a directive is about a record outside of spans. -/
def Directive.concerns (d : Directive) (record : Record) : Bool :=
  !d.inSpan && d.target.all (fun t => t.toList.isPrefixOf record.target.toList)
    && d.field.all (fun f => f = "message" || record.fields.any (·.1 = f))

/-- How specific a directive is: how long its target is, then whether it names a field. -/
def Directive.rank (d : Directive) : Nat :=
  2 * (d.target.map fun t => t.utf8ByteSize + 1).getD 0 + if d.field.isSome then 1 else 0

/-- Whether a record passes the level of a directive. -/
def Directive.passes (d : Directive) (record : Record) : Bool :=
  d.level.any fun level => record.level.number ≤ level.number

/-- The more specific of two directives; of equals, the second. -/
def moreSpecific : Option Directive → Directive → Option Directive
  | none, d => some d
  | some best, d => if best.rank ≤ d.rank then some d else some best

/-- The directive without a target that stands for a level. -/
def Directive.ofLevel (level : Level) : Directive :=
  ⟨none, none, false, some level⟩

/-- Whether a filter lets a record pass. -/
def admits (directives : List Directive) (record : Record) : Bool :=
  let directives := if directives.isEmpty then [Directive.ofLevel .error] else directives
  ((directives.filter (·.concerns record)).foldl moreSpecific none).any (·.passes record)

end RemoteCall.Logging

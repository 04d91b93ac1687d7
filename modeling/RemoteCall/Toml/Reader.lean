import RemoteCall.Toml.Document
import RemoteCall.Toml.Moment
import RemoteCall.Toml.Number

/-!
# Reading documents

A text is read into its lines with a meaning (`statements`), and these build up the document's table
(`read?`). Arrays and tables between braces go into one another at most `nestingLimit` deep, and the
recursion of `value` counts down from there.
-/

namespace RemoteCall.Toml

/-- How deep arrays and tables between braces go into one another. -/
def nestingLimit : Nat := 79

/-- The rest of an array: items with commas between them, and perhaps a comma at the end. The first
argument bounds their number. -/
def arrayUpTo (item : Reader Value) : Nat → Reader (List Value)
  | 0 => failure
  | bound + 1 => do
    skipLines
    if ← accept [']'] then return []
    let first ← item
    skipLines
    if ← accept [','] then return first :: (← arrayUpTo item bound)
    expect [']']
    return [first]

/-- The rest of an array. -/
def array (item : Reader Value) : Reader Value := fun cs =>
  (do return .array (← arrayUpTo item (cs.length + 1)) : Reader Value) cs

/-- A key and its value. -/
def assignment (item : Reader Value) : Reader Assignment := do
  let (path, key) ← key
  expect ['=']
  skipBlanks
  return ⟨path, key, ← item⟩

/-- The rest of a table between braces. -/
def braces (item : Reader Value) : Reader Value := do
  skipBlanks
  if ← accept ['\x7d'] then return .table .braces []
  let body ← items (do let a ← assignment item; skipBlanks; return a) [',']
  expect ['\x7d']
  return .table .braces (← Entries.assignAll [] body)

/-- A value that is no array and no table. -/
def plainValue : Reader Value := fun cs =>
  match cs with
  | '"' :: _ => (do return .scalar (.text (← string)) : Reader Value) cs
  | '\'' :: _ => (do return .scalar (.text (← string)) : Reader Value) cs
  | 't' :: _ => (do expect "true".toList; return .scalar (.boolean true) : Reader Value) cs
  | 'f' :: _ => (do expect "false".toList; return .scalar (.boolean false) : Reader Value) cs
  | _ => if startsDate cs || startsTime cs then moment cs else number cs

/-- A value in which arrays and tables go into one another at most so deep. -/
def value : Nat → Reader Value
  | 0 => plainValue
  | depth + 1 => do
    if ← accept ['['] then array (value depth)
    else if ← accept ['\x7b'] then braces (value depth)
    else plainValue

/-- A header, from its opening bracket on. -/
def header : Reader Header := do
  if ← accept ['[', '['] then
    let (path, key) ← key
    expect [']', ']']
    return .element path key
  else
    expect ['[']
    let (path, key) ← key
    expect [']']
    return .table path key

/-- The lines of a document; the first argument bounds their number. -/
def statementsUpTo : Nat → Reader (List Statement)
  | 0 => return []
  | bound + 1 => do
    skipLines
    match ← peek with
    | none => return []
    | some '[' =>
      let h ← header
      endLine
      return .header h :: (← statementsUpTo bound)
    | some _ =>
      let a ← assignment (value nestingLimit)
      endLine
      return .assignment a :: (← statementsUpTo bound)

/-- The lines with a meaning of a whole text. -/
def statements? (text : String) : Option (List Statement) := do
  let cs := text.toList
  let cs := if cs.head? = some '\ufeff' then cs.drop 1 else cs
  let (statements, rest) ← statementsUpTo (cs.length + 1) cs
  if rest.isEmpty then some statements else none

/-- The table of a document. -/
def read? (text : String) : Option Entries := do
  ofStatements (← statements? text)

end RemoteCall.Toml

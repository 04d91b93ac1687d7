import RemoteCall.Bytes
import RemoteCall.Toml.Value

/-!
# Writing documents

A document of sections, each a header with assignments of scalars. A blank line stands between two
sections.

A string is written in the first form of these that shows it without escapes: double quotes, single
quotes, three double quotes, three single quotes. Else it is written in double quotes with escapes,
three if it has more than one line. In three quotes a string of more than one line starts on a line of
its own.
-/

namespace RemoteCall.Toml

/-! ## What a string holds -/

/-- Whether a character can only be written as an escape. -/
def isControl (c : Char) : Bool :=
  (c < ' ' && c ≠ '\t' && c ≠ '\n') || c = '\x7f'

/-- The length of the longest run of a character, after a run of a length before it. -/
def longestRun (c : Char) (before : Nat) : List Char → Nat
  | [] => before
  | d :: rest => if d = c then longestRun c (before + 1) rest else max before (longestRun c 0 rest)

/-- The length of the longest run of a character. -/
def runOf (c : Char) (cs : List Char) : Nat := longestRun c 0 cs

/-! ## The forms of a string -/

/-- How a string is quoted. -/
inductive Form where
  | quoted
  | literal
  | longQuoted
  | longLiteral
  deriving DecidableEq, Repr

/-- The form in which a string is written. -/
def formOf (cs : List Char) : Form :=
  let escapes := cs.any isControl
  let backslash := cs.contains '\\'
  let lines := cs.contains '\n'
  if !escapes && !backslash && runOf '"' cs = 0 && !lines then .quoted
  else if !escapes && runOf '\'' cs = 0 && !lines then .literal
  else if !escapes && !backslash && runOf '"' cs ≤ 2 then .longQuoted
  else if !escapes && runOf '\'' cs ≤ 2 then .longLiteral
  else if lines then .longQuoted else .quoted

/-- Four digits of base 16, in capitals. -/
def hexDigits (n : Nat) : List Char :=
  ((Nat.toDigits 16 (n + 16 ^ 4)).drop 1).map Char.toUpper

/-- The escape for a character other than a double quote, if it needs one. -/
def escape? (long : Bool) (c : Char) : Option (List Char) :=
  if c = '\x08' then some ['\\', 'b']
  else if c = '\t' then some ['\\', 't']
  else if c = '\n' then if long then none else some ['\\', 'n']
  else if c = '\x0c' then some ['\\', 'f']
  else if c = '\x0d' then some ['\\', 'r']
  else if c = '\\' then some ['\\', '\\']
  else if isControl c then some ('\\' :: 'u' :: hexDigits c.toNat)
  else none

/-- The content of a string in double quotes; `run` counts the double quotes that were just written.
In three quotes, two may follow each other without an escape. -/
def escaped (long : Bool) (run : Nat) : List Char → List Char
  | [] => []
  | c :: rest =>
    if c = '"' then
      if run < (if long then 2 else 0) then c :: escaped long (run + 1) rest
      else '\\' :: c :: escaped long 0 rest
    else
      match escape? long c with
      | some spelling => spelling ++ escaped long 0 rest
      | none => c :: escaped long 0 rest

/-- The quotes of a form. -/
def Form.quotes : Form → List Char
  | .quoted => ['"']
  | .literal => ['\'']
  | .longQuoted => ['"', '"', '"']
  | .longLiteral => ['\'', '\'', '\'']

/-- A string in a form. -/
def Form.write (form : Form) (cs : List Char) : List Char :=
  let newline := if form.quotes.length = 3 && cs.contains '\n' then ['\n'] else []
  let content :=
    match form with
    | .quoted => escaped false 0 cs
    | .longQuoted => escaped true 0 cs
    | _ => cs
  form.quotes ++ newline ++ content ++ form.quotes

/-- A string with its quotes. -/
def quote (s : String) : String :=
  String.ofList ((formOf s.toList).write s.toList)

/-! ## Documents -/

/-- A value on a line. An integer beyond 64 bits has no written form. -/
def Scalar.write? : Scalar → Option String
  | .text s => some (quote s)
  | .integer n => if -2 ^ 63 ≤ n && n < 2 ^ 63 then some (toString n) else none
  | .boolean b => some (if b then "true" else "false")

/-- A line that gives a key its value. -/
def assignmentLine? (entry : String × Scalar) : Option String := do
  return entry.1 ++ " = " ++ (← entry.2.write?) ++ "\n"

/-- A header with its lines. -/
def sectionText? (s : String × List (String × Scalar)) : Option String := do
  return "[" ++ s.1 ++ "]\n" ++ String.join (← s.2.mapM assignmentLine?)

/-- A document of sections. -/
def write? (document : List (String × List (String × Scalar))) : Option String := do
  return "\n".intercalate (← document.mapM sectionText?)

end RemoteCall.Toml

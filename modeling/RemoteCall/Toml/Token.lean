/-!
# Reading the small parts of a TOML document

Blanks, comments, keys and strings. A reader takes a part off the front of a text, or fails; no cause
is told. Strings are read by functions on the list of characters that follows the opening quotes; they
give the content and what is behind the closing quotes.
-/

namespace RemoteCall.Toml

/-- A reader takes a part off the front of a text. -/
abbrev Reader (α : Type) : Type := StateT (List Char) Option α

/-- Shows the next character. -/
def peek : Reader (Option Char) := fun cs => some (cs.head?, cs)

/-- Whether the text goes on with these characters; it takes them if so. -/
def accept (expected : List Char) : Reader Bool := fun cs =>
  if expected.isPrefixOf cs then some (true, cs.drop expected.length) else some (false, cs)

/-- Takes the next character if it is one of these. -/
def acceptOne (choices : List Char) : Reader (Option Char) := fun cs =>
  match cs with
  | c :: rest => if choices.contains c then some (some c, rest) else some (none, c :: rest)
  | [] => some (none, [])

/-- Takes these characters. -/
def expect (expected : List Char) : Reader Unit := do
  unless ← accept expected do failure

/-- Takes the characters in front that fulfil a condition. -/
def takeAll (condition : Char → Bool) : Reader (List Char) := fun cs =>
  some (cs.takeWhile condition, cs.dropWhile condition)

/-- Items with a mark between them, at least one. The first argument bounds their number. -/
def itemsUpTo {α : Type} (item : Reader α) (mark : List Char) : Nat → Reader (List α)
  | 0 => failure
  | bound + 1 => do
    let first ← item
    if ← accept mark then return first :: (← itemsUpTo item mark bound) else return [first]

/-- Items with a mark between them, at least one. An item takes a character at least, so the length of
the text bounds their number. -/
def items {α : Type} (item : Reader α) (mark : List Char) : Reader (List α) := fun cs =>
  itemsUpTo item mark (cs.length + 1) cs

/-! ## Blanks, comments and the ends of lines -/

/-- Whether a character is a blank within a line. -/
def isBlank (c : Char) : Bool :=
  c = ' ' || c = '\t'

/-- Whether a character may stand in a comment, and anywhere in a text apart from quotes, backslashes
and the ends of lines. -/
def isPlain (c : Char) : Bool :=
  c = '\t' || (' ' ≤ c && c ≠ '\x7f')

/-- Skips blanks. -/
def skipBlanks : Reader Unit := do
  let _ ← takeAll isBlank

/-- Takes the end of a line, if there is one. -/
def acceptNewline : Reader Bool := do
  if ← accept ['\n'] then return true else accept ['\r', '\n']

/-- Skips a comment, if there is one. -/
def skipComment : Reader Unit := do
  if ← accept ['#'] then
    let _ ← takeAll isPlain

/-- Takes the rest of a line that holds nothing more than blanks and a comment. -/
def endLine : Reader Unit := do
  skipBlanks
  skipComment
  unless ← acceptNewline do
    if (← peek).isSome then failure

/-- Skips blanks, comments and the ends of lines; the first argument bounds the number of lines. -/
def skipLinesUpTo : Nat → Reader Unit
  | 0 => skipBlanks
  | bound + 1 => do
    skipBlanks
    if (← peek) = some '#' then
      endLine
      skipLinesUpTo bound
    else if ← acceptNewline then skipLinesUpTo bound

/-- Skips blanks, comments and the ends of lines. -/
def skipLines : Reader Unit := fun cs => skipLinesUpTo cs.length cs

/-! ## Strings -/

/-- The value of a hexadecimal digit. -/
def hexDigit? (c : Char) : Option Nat :=
  if '0' ≤ c && c ≤ '9' then some (c.toNat - '0'.toNat)
  else if 'a' ≤ c && c ≤ 'f' then some (c.toNat - 'a'.toNat + 10)
  else if 'A' ≤ c && c ≤ 'F' then some (c.toNat - 'A'.toNat + 10)
  else none

/-- The number of a run of hexadecimal digits. -/
def hexNumber? (digits : List Char) : Option Nat :=
  digits.foldlM (fun n c => (hexDigit? c).map (16 * n + ·)) 0

/-- The character with the number that hexadecimal digits spell. -/
def hexChar? (digits : List Char) : Option Char := do
  let n ← hexNumber? digits
  if n.isValidChar then some (Char.ofNat n) else none

/-- The character that a short escape stands for. -/
def shortEscape? : Char → Option Char
  | 'b' => some '\x08'
  | 't' => some '\t'
  | 'n' => some '\n'
  | 'f' => some '\x0c'
  | 'r' => some '\x0d'
  | '"' => some '"'
  | '\\' => some '\\'
  | _ => none

/-- Puts a character in front of what was read. -/
def withChar (c : Char) : Option (List Char × List Char) → Option (List Char × List Char) :=
  Option.map fun (content, rest) => (c :: content, rest)

/-- A string in double quotes on one line. -/
def quoted : List Char → Option (List Char × List Char)
  | '"' :: rest => some ([], rest)
  | '\\' :: 'u' :: a :: b :: c :: d :: rest => do
    withChar (← hexChar? [a, b, c, d]) (quoted rest)
  | '\\' :: 'U' :: a :: b :: c :: d :: e :: f :: g :: h :: rest => do
    withChar (← hexChar? [a, b, c, d, e, f, g, h]) (quoted rest)
  | '\\' :: c :: rest => do withChar (← shortEscape? c) (quoted rest)
  | c :: rest => if isPlain c && c ≠ '\\' then withChar c (quoted rest) else none
  | [] => none

/-- Whether a text goes on with the end of a line after blanks. -/
def endsLine (cs : List Char) : Bool :=
  match cs.dropWhile isBlank with
  | '\n' :: _ => true
  | '\r' :: '\n' :: _ => true
  | _ => false

/-- A string in three double quotes. A backslash at the end of a line drops the blanks and the ends of
lines that follow; the first argument says that such are being dropped. -/
def longQuoted (dropping : Bool) : List Char → Option (List Char × List Char)
  | '"' :: '"' :: '"' :: '"' :: '"' :: rest => some (['"', '"'], rest)
  | '"' :: '"' :: '"' :: '"' :: rest => some (['"'], rest)
  | '"' :: '"' :: '"' :: rest => some ([], rest)
  | '\\' :: 'u' :: a :: b :: c :: d :: rest => do
    withChar (← hexChar? [a, b, c, d]) (longQuoted false rest)
  | '\\' :: 'U' :: a :: b :: c :: d :: e :: f :: g :: h :: rest => do
    withChar (← hexChar? [a, b, c, d, e, f, g, h]) (longQuoted false rest)
  | '\\' :: c :: rest =>
    if endsLine (c :: rest) then longQuoted true (c :: rest)
    else do withChar (← shortEscape? c) (longQuoted false rest)
  | '\r' :: '\n' :: rest =>
    if dropping then longQuoted true rest else withChar '\n' (longQuoted false rest)
  | c :: rest =>
    if dropping && (c = '\n' || isBlank c) then longQuoted true rest
    else if (isPlain c && c ≠ '\\') || c = '\n' then withChar c (longQuoted false rest)
    else none
  | [] => none

/-- A string in single quotes on one line. -/
def literal : List Char → Option (List Char × List Char)
  | '\'' :: rest => some ([], rest)
  | c :: rest => if isPlain c then withChar c (literal rest) else none
  | [] => none

/-- A string in three single quotes. -/
def longLiteral : List Char → Option (List Char × List Char)
  | '\'' :: '\'' :: '\'' :: '\'' :: '\'' :: rest => some (['\'', '\''], rest)
  | '\'' :: '\'' :: '\'' :: '\'' :: rest => some (['\''], rest)
  | '\'' :: '\'' :: '\'' :: rest => some ([], rest)
  | '\r' :: '\n' :: rest => withChar '\n' (longLiteral rest)
  | c :: rest => if isPlain c || c = '\n' then withChar c (longLiteral rest) else none
  | [] => none

/-- A string, from its opening quotes on. The end of a line right behind three opening quotes does not
belong to the string. -/
def string : Reader String := do
  if ← accept ['"', '"', '"'] then
    let _ ← acceptNewline
    return String.ofList (← longQuoted false)
  else if ← accept ['"'] then return String.ofList (← quoted)
  else if ← accept ['\'', '\'', '\''] then
    let _ ← acceptNewline
    return String.ofList (← longLiteral)
  else
    expect ['\'']
    return String.ofList (← literal)

/-! ## Keys -/

/-- Whether a character may stand in a key without quotes. -/
def isBare (c : Char) : Bool :=
  c.isAlphanum || c = '-' || c = '_'

/-- A key with quotes or without. -/
def simpleKey : Reader String := do
  if ← accept ['"'] then return String.ofList (← quoted)
  else if ← accept ['\''] then return String.ofList (← literal)
  else
    let cs ← takeAll isBare
    if cs.isEmpty then failure else return String.ofList cs

/-- The number of keys that a path of keys stays below. -/
def depthLimit : Nat := 80

/-- Keys with dots between them: those of the tables on the way, and the last one. -/
def key : Reader (List String × String) := do
  let keys ← items (do skipBlanks; let k ← simpleKey; skipBlanks; return k) ['.']
  if keys.length < depthLimit then return (keys.dropLast, ← keys.getLast?) else failure

end RemoteCall.Toml

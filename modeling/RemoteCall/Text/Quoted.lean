import RemoteCall.Text.Category

/-!
# Quoted text in diagnostics

A text shown inside a diagnostic stands between double quotes. A quote and a backslash get a
backslash before them; tab, line feed, carriage return and the null character have their short
escapes; any other character without a visible form, and any mark that would attach to the character
before it, is written as `\u{…}` with its code point in lower-case hexadecimal.
-/

namespace RemoteCall.Text

/-- A character as it stands between the quotes. -/
def quotedChar (c : Char) : String :=
  match c with
  | '\x00' => "\\0"
  | '\t' => "\\t"
  | '\n' => "\\n"
  | '\x0d' => "\\r"
  | '"' => "\\\""
  | '\\' => "\\\\"
  | c =>
    if isPrintable c && !isExtending c then String.singleton c
    else "\\u\x7b" ++ String.ofList (Nat.toDigits 16 c.toNat) ++ "\x7d"

/-- A text between double quotes, with escapes. -/
def quoted (text : String) : String :=
  "\"" ++ String.join (text.toList.map quotedChar) ++ "\""

/-- A list of texts, each quoted, between square brackets. -/
def quotedList (texts : List String) : String :=
  "[" ++ ", ".intercalate (texts.map quoted) ++ "]"

/-- A list of bytes as decimal numbers between square brackets. -/
def byteList (bytes : List UInt8) : String :=
  "[" ++ ", ".intercalate (bytes.map fun b => toString b.toNat) ++ "]"

end RemoteCall.Text

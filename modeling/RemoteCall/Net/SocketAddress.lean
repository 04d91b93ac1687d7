/-!
# Socket addresses and their text

A socket address is a host address with a port. The host is four octets (`10.0.0.1`) or eight
groups of sixteen bits (`2001:db8::1`); the second kind stands between brackets before a port and may
carry a scope number.

`SocketAddress.ofText?` reads the text and `SocketAddress.text` writes it in its shortest form: the
longest run of at least two zero groups becomes `::`, the first of equally long runs.

The readers take a list of characters and return a value with the characters they left.
-/

namespace RemoteCall

/-- A host address: four octets or eight groups. -/
inductive HostAddress where
  | v4 (a b c d : UInt8)
  | v6 (groups : Vector UInt16 8)
  deriving DecidableEq, Repr

/-- A host address with a port; the scope is zero unless the text names one. -/
structure SocketAddress where
  host : HostAddress
  port : UInt16
  scope : UInt32
  deriving DecidableEq, Repr

namespace HostAddress

/-- The value of a digit in a base of at most sixteen. -/
def digit? (base : Nat) (c : Char) : Option Nat :=
  let value? :=
    if '0' ≤ c && c ≤ '9' then some (c.toNat - '0'.toNat)
    else if 'a' ≤ c && c ≤ 'f' then some (c.toNat - 'a'.toNat + 10)
    else if 'A' ≤ c && c ≤ 'F' then some (c.toNat - 'A'.toNat + 10)
    else none
  value?.filter (· < base)

/-- The digits at the front of a text as values, and what follows them. -/
def digits (base : Nat) : List Char → List Nat × List Char
  | [] => ([], [])
  | c :: rest =>
    match digit? base c with
    | some d => let (ds, left) := digits base rest; (d :: ds, left)
    | none => ([], c :: rest)

/-- A number below `bound`: at least one digit, and no leading zero unless `zeros` allows it. -/
def number? (base bound : Nat) (zeros : Bool) (text : List Char) : Option (Nat × List Char) :=
  let (ds, left) := digits base text
  let value := ds.foldl (fun n d => n * base + d) 0
  if ds.isEmpty || (!zeros && ds.length > 1 && ds.head? == some 0) || bound ≤ value then none
  else some (value, left)

/-- A number below `bound` of at most `width` digits. -/
def shortNumber? (base bound width : Nat) (zeros : Bool) (text : List Char) :
    Option (Nat × List Char) :=
  if (digits base text).1.length > width then none else number? base bound zeros text

/-- One character that has to be there. -/
def char? (c : Char) : List Char → Option (List Char)
  | d :: rest => if c = d then some rest else none
  | [] => none

/-- Four octets separated by points. -/
def octets? (text : List Char) : Option ((UInt8 × UInt8 × UInt8 × UInt8) × List Char) := do
  let (a, text) ← shortNumber? 10 256 3 false text
  let (b, text) ← shortNumber? 10 256 3 false (← char? '.' text)
  let (c, text) ← shortNumber? 10 256 3 false (← char? '.' text)
  let (d, text) ← shortNumber? 10 256 3 false (← char? '.' text)
  return ((UInt8.ofNat a, UInt8.ofNat b, UInt8.ofNat c, UInt8.ofNat d), text)

/-- The text after a colon, or the text itself where no colon is due. -/
def afterColon? (first : Bool) (text : List Char) : Option (List Char) :=
  if first then some text else char? ':' text

/-- At most `room` groups separated by colons, of which the last two may be written as four octets.
Returns the groups, whether octets ended them, and the rest. -/
def groups (first : Bool) : Nat → List Char → List UInt16 × Bool × List Char
  | 0, text => ([], false, text)
  | room + 1, text =>
    -- octets take the room of two groups, so the last group alone cannot be octets
    let embedded? := if room = 0 then none else (afterColon? first text).bind octets?
    match embedded? with
    | some ((a, b, c, d), rest) =>
      ([UInt16.ofNat (a.toNat * 256 + b.toNat), UInt16.ofNat (c.toNat * 256 + d.toNat)], true, rest)
    | none =>
      match (afterColon? first text).bind (shortNumber? 16 65536 4 true) with
      | some (n, rest) =>
        let (more, octets, left) := groups false room rest
        (UInt16.ofNat n :: more, octets, left)
      | none => ([], false, text)

/-- Eight groups from a list; missing ones are zero. -/
def ofGroups (gs : List UInt16) : HostAddress :=
  .v6 (Vector.ofFn fun i => gs.getD i.val 0)

/-- Eight groups, where one `::` stands for at least one zero group. -/
def v6? (text : List Char) : Option (HostAddress × List Char) := do
  let (head, octets, rest) := groups true 8 text
  if head.length = 8 then return (ofGroups head, rest)
  if octets then none
  let rest ← char? ':' (← char? ':' rest)
  -- the two colons stand for one group at least, which the tail has no room for
  let (tail, _, rest) := groups true (7 - head.length) rest
  return (ofGroups (head ++ List.replicate (8 - head.length - tail.length) 0 ++ tail), rest)

/-- Four octets as a host address. -/
def v4? (text : List Char) : Option (HostAddress × List Char) := do
  let ((a, b, c, d), rest) ← octets? text
  return (.v4 a b c d, rest)

/-- The host address that a whole text spells. -/
def ofText? (text : String) : Option HostAddress :=
  match (v4? text.toList).or (v6? text.toList) with
  | some (host, []) => some host
  | _ => none

/-- A number in lower-case hexadecimal. -/
def hex (n : UInt16) : String :=
  String.ofList (Nat.toDigits 16 n.toNat)

/-- The length of the run of zero groups at the front. -/
def zeroRun (gs : List UInt16) : Nat :=
  (gs.takeWhile (· == 0)).length

/-- Start and length of the first longest run of zero groups in `gs`, whose first group has number
`start`; a run has to be longer than `best` to count. -/
def longestZeroRun (start : Nat) (best : Nat × Nat) : List UInt16 → Nat × Nat
  | [] => best
  | g :: rest =>
    let run := zeroRun (g :: rest)
    longestZeroRun (start + 1) (if best.2 < run then (start, run) else best) rest

/-- Groups in hexadecimal, separated by colons. -/
def colonText (gs : List UInt16) : String :=
  ":".intercalate (gs.map hex)

/-- Four octets separated by points. -/
def pointText (a b c d : UInt8) : String :=
  ".".intercalate ([a, b, c, d].map fun o => toString o.toNat)

/-- The shortest text of eight groups; octets embedded behind `::ffff:` stay octets. -/
def groupsText (gs : List UInt16) : String :=
  match gs with
  | [0, 0, 0, 0, 0, 0xffff, high, low] =>
    "::ffff:" ++ pointText (UInt8.ofNat (high.toNat / 256)) (UInt8.ofNat high.toNat)
      (UInt8.ofNat (low.toNat / 256)) (UInt8.ofNat low.toNat)
  | gs =>
    let (start, run) := longestZeroRun 0 (0, 0) gs
    if run > 1 then colonText (gs.take start) ++ "::" ++ colonText (gs.drop (start + run))
    else colonText gs

/-- The text of a host address. -/
def text : HostAddress → String
  | .v4 a b c d => pointText a b c d
  | .v6 gs => groupsText gs.toList

end HostAddress

namespace SocketAddress

open HostAddress

/-- A colon and a port. -/
def readPort? (text : List Char) : Option (UInt16 × List Char) := do
  let (n, rest) ← number? 10 65536 true (← char? ':' text)
  return (UInt16.ofNat n, rest)

/-- A percent sign and a scope number; absent, the scope is zero. -/
def readScope (text : List Char) : UInt32 × List Char :=
  match (char? '%' text).bind (number? 10 4294967296 true) with
  | some (n, rest) => (UInt32.ofNat n, rest)
  | none => (0, text)

/-- Four octets, a colon and a port. -/
def octetForm? (text : List Char) : Option (SocketAddress × List Char) := do
  let (host, rest) ← v4? text
  let (port, rest) ← readPort? rest
  return (⟨host, port, 0⟩, rest)

/-- Groups and an optional scope between brackets, a colon and a port. -/
def groupForm? (text : List Char) : Option (SocketAddress × List Char) := do
  let (host, rest) ← v6? (← char? '[' text)
  let (scope, rest) := readScope rest
  let (port, rest) ← readPort? (← char? ']' rest)
  return (⟨host, port, scope⟩, rest)

/-- The socket address that a whole text spells. -/
def ofText? (text : String) : Option SocketAddress :=
  match (octetForm? text.toList).or (groupForm? text.toList) with
  | some (address, []) => some address
  | _ => none

/-- The text of a socket address. -/
def text (address : SocketAddress) : String :=
  let port := ":" ++ toString address.port.toNat
  match address.host with
  | .v4 a b c d => pointText a b c d ++ port
  | .v6 gs =>
    let scope := if address.scope = 0 then "" else "%" ++ toString address.scope.toNat
    "[" ++ groupsText gs.toList ++ scope ++ "]" ++ port

end SocketAddress

end RemoteCall

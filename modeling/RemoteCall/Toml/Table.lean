import RemoteCall.Toml.Value

/-!
# Putting entries into tables

A line of a document adds an entry to a table that is named by a path of keys. Tables on the path are
made when they are missing (`within`), but a table that was closed before may not be added to:

* nothing is added to a value, and a table between braces is a value;
* a dotted key adds nothing to a table that has a header of its own;
* a header takes over a table that was only implied so far, which then counts as written last;
* no key is given twice.
-/

namespace RemoteCall.Toml

namespace Entries

/-- The value of a key. -/
def get? (entries : Entries) (key : String) : Option Value :=
  entries.lookup key

/-- Gives a key that is there another value, in its place. -/
def replace (entries : Entries) (key : String) (value : Value) : Entries :=
  entries.map fun e => if e.1 = key then (key, value) else e

/-- Removes a key. -/
def erase (entries : Entries) (key : String) : Entries :=
  entries.filter fun e => e.1 ≠ key

/-- Adds a key at the end, unless it is there. -/
def add? (entries : Entries) (key : String) (value : Value) : Option Entries :=
  match entries.get? key with
  | none => some (entries ++ [(key, value)])
  | some _ => none

/-- Changes the table at the end of a path that starts in a table. The path goes through tables that
are open, making those that are missing, and through the last of tables written one by one. -/
def within (dotted : Bool) (change : Origin → Entries → Option Entries) (origin : Origin)
    (entries : Entries) (path : List String) : Option Entries :=
  match path with
  | [] => change origin entries
  | key :: path =>
    match entries.get? key with
    | none => do
      let made := if dotted then .dotted else .implied
      return entries ++ [(key, .table made (← within dotted change made [] path))]
    | some (.table found inner) =>
      if found = .braces || (dotted && found = .header) then none
      else do return entries.replace key (.table found (← within dotted change found inner path))
    | some (.tables elements) => do
      let last ← within dotted change .header (← elements.getLast?) path
      return entries.replace key (.tables (elements.dropLast ++ [last]))
    | some _ => none

end Entries

/-- A key, the keys of the tables that lead to it, and its value. -/
structure Assignment where
  path : List String
  key : String
  value : Value

namespace Entries

/-- Adds an assignment to a table that has a header, or that is between braces. A dotted key ends in a
table that dotted keys made. -/
def assign (entries : Entries) (a : Assignment) : Option Entries :=
  entries.within true (fun origin inner =>
    if a.path.isEmpty || origin = .dotted then inner.add? a.key a.value else none) .header a.path

/-- Adds assignments in their order. -/
def assignAll (entries : Entries) (body : List Assignment) : Option Entries :=
  body.foldlM assign entries

end Entries

end RemoteCall.Toml

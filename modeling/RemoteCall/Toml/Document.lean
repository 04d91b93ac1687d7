import RemoteCall.Toml.Table

/-!
# Documents

A document is a run of lines. Assignments in front of the first header belong to the document itself;
the others belong to the table or the element that the header before them opens (`Section`). A
document is the table that its sections build up one after another.
-/

namespace RemoteCall.Toml

/-- A header names a table, or a new element of tables written one by one. -/
inductive Header where
  | table (path : List String) (key : String)
  | element (path : List String) (key : String)

/-- A line with a meaning. -/
inductive Statement where
  | assignment (a : Assignment)
  | header (h : Header)

/-- A header and the assignments under it. -/
structure Section where
  header : Header
  body : List Assignment

/-- The assignments before the first header, and the sections. -/
def Section.split : List Statement → List Assignment × List Section
  | [] => ([], [])
  | .assignment a :: rest => (a :: (split rest).1, (split rest).2)
  | .header h :: rest => ([], ⟨h, (split rest).1⟩ :: (split rest).2)

/-- Adds a section. A table that was only implied goes on from what it holds. -/
def Entries.include (entries : Entries) (s : Section) : Option Entries :=
  match s.header with
  | .table path key =>
    entries.within false (fun _ inner =>
      match inner.get? key with
      | none => do return inner ++ [(key, .table .header (← Entries.assignAll [] s.body))]
      | some (.table .implied found) => do
        return inner.erase key ++ [(key, .table .header (← Entries.assignAll found s.body))]
      | some _ => none) .header path
  | .element path key =>
    entries.within false (fun _ inner =>
      match inner.get? key with
      | none => do return inner ++ [(key, .tables [← Entries.assignAll [] s.body])]
      | some (.tables elements) => do
        return inner.replace key (.tables (elements ++ [← Entries.assignAll [] s.body]))
      | some _ => none) .header path

/-- The table that a document's lines build up. -/
def ofStatements (statements : List Statement) : Option Entries := do
  let (body, rest) := Section.split statements
  rest.foldlM Entries.include (← Entries.assignAll [] body)

end RemoteCall.Toml

import RemoteCall.Fault
import RemoteCall.Settings.Field
import RemoteCall.Text.Utf8
import RemoteCall.Toml.Reader
import RemoteCall.Toml.Writer

/-!
# Settings as documents

A document has a table for each section, or an array that gives the fields in their order. What it
leaves out keeps its default, and what it has beyond the fields is ignored. The entries are taken in
the order of the document, and the first that is refused decides.

The text of a document is for a library to write and to read (`Library`); settings are kept in TOML.
-/

namespace RemoteCall.Settings

open Toml

/-- Sets a field to a value of a document. -/
def Field.read {σ : Type} (field : Field σ) (s : σ) : Value → Except Flaw σ
  | .scalar value => field.set value s
  | _ => .error .unsuited

/-- Sets fields by their names. -/
def readEntries (fields : List (Field Settings)) (s : Settings) (entries : Entries) :
    Except Flaw Settings :=
  entries.foldlM (fun s (name, value) =>
    match fields.find? (·.name = name) with
    | some field => field.read s value
    | none => .ok s) s

/-- Sets fields in their order. -/
def readItems (fields : List (Field Settings)) (s : Settings) (items : List Value) :
    Except Flaw Settings :=
  (fields.zip items).foldlM (fun s (field, value) => field.read s value) s

/-- Sets the fields of a section. A moment counts as a table without fields. -/
def readSection (fields : List (Field Settings)) (s : Settings) : Value → Except Flaw Settings
  | .table _ entries => readEntries fields s entries
  | .array items => readItems fields s items
  | .tables elements => readItems fields s (elements.map (.table .header))
  | .moment _ => .ok s
  | _ => .error .unsuited

/-- The settings that the table of a document gives. -/
def ofEntries (entries : Entries) : Except Flaw Settings :=
  entries.foldlM (fun s (name, value) =>
    match sections.lookup name with
    | some fields => readSection fields s value
    | none => .ok s) {}

/-- The fault of a document; it tells the cause only of a level that does not exist. -/
def documentFault : Option Flaw → Fault
  | some (.badLevel text) => .settings ("Failed to parse TOML: Invalid log level: " ++ text)
  | _ => .settings "Failed to parse TOML"

/-- A library for documents: it writes sections of scalars as a text, and reads a text as a table. -/
structure Library where
  write? : List (String × List (String × Scalar)) → Option String
  read? : String → Option Entries

/-- The library for TOML. -/
def Library.toml : Library := ⟨Toml.write?, Toml.read?⟩

/-- The fields of settings by sections. -/
def scalars (s : Settings) : List (String × List (String × Scalar)) :=
  sections.map fun (name, fields) => (name, fields.map fun f => (f.name, f.get s))

namespace Library

/-- The settings that a document gives. -/
def load (library : Library) (text : String) : Except Fault Settings :=
  match library.read? text with
  | none => .error (documentFault none)
  | some entries => (ofEntries entries).mapError fun flaw => documentFault (some flaw)

/-- The settings in a file, whose bytes are given if there is one. -/
def loadFile (library : Library) (bytes : Option Bytes) : Except Fault Settings :=
  match bytes.bind fun b => (Utf8.decode b).toOption with
  | some text => library.load text
  | none => .error (.settings "Failed to read config file")

/-- The document of settings. Numbers beyond the range of a document have no written form. -/
def save (library : Library) (s : Settings) : Except Fault String :=
  match library.write? s.scalars with
  | some text => .ok text
  | none => .error (.settings "Failed to serialize config")

end Library

/-- The settings that a document gives, in TOML. -/
def ofDocument (text : String) : Except Fault Settings :=
  Library.toml.load text

/-- The settings in a file, whose bytes are given if there is one, in TOML. -/
def ofFile (bytes : Option Bytes) : Except Fault Settings :=
  Library.toml.loadFile bytes

/-- The document of settings, in TOML. -/
def document (s : Settings) : Except Fault String :=
  Library.toml.save s

/-- The document of the default settings. -/
def exampleDocument : String :=
  match document {} with
  | .ok text => text
  | .error _ => "# Failed to generate example config"

end RemoteCall.Settings

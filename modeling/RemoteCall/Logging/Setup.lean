import RemoteCall.Json.Writer
import RemoteCall.Logging.Filter
import RemoteCall.Settings.Basic

/-!
# Setting the log up

The log of a process is set up once, by settings and by a filter from outside, which counts more than
the level in the settings unless it cannot be read. Setting it up is the first thing that it records.
-/

namespace RemoteCall.Logging

open Settings (Level)

/-- A log. -/
structure Log where
  isJson : Bool
  directives : List Directive

/-- A level in capitals. -/
def capitals (level : Level) : String := level.name.map Char.toUpper

/-- A level as it stands in a line: in capitals, and five characters wide. -/
def levelText (level : Level) : String :=
  let name := capitals level
  String.ofList (List.replicate (5 - name.length) ' ') ++ name

/-- A line that is meant for people. -/
def Record.line (record : Record) : String :=
  levelText record.level ++ " " ++ record.target ++ ": " ++ record.message
    ++ String.join (record.fields.map fun f => " " ++ f.1 ++ "=" ++ f.2)

/-- A line that is meant for programs, without the time. -/
def Record.object (record : Record) : Bytes :=
  Json.writeObject [
    ("level", Json.writeText (capitals record.level)),
    ("fields", Json.writeObject (("message", Json.writeText record.message)
      :: record.fields.map fun f => (f.1, Json.writeText f.2))),
    ("target", Json.writeText record.target)]

/-- The record of having set a log up. -/
def setUpRecord (settings : Settings.Logging) : Record :=
  ⟨.info, "netrpc::utils::logging", "Logging initialized", [("app", settings.appName)]⟩

/-- The directives of a log. -/
def directivesFor (settings : Settings.Logging) (outside : Option String) : List Directive :=
  (outside.bind filter?).getD [.ofLevel settings.level]

/-- Sets a log up, unless there is one. Returns whether it did, and what the log recorded. -/
def setUp (settings : Settings.Logging) (outside : Option String) :
    Option Log → Bool × List Record × Option Log
  | some log => (false, [], some log)
  | none =>
    let log : Log := ⟨settings.isJson, directivesFor settings outside⟩
    (true, [setUpRecord settings].filter (admits log.directives), some log)

end RemoteCall.Logging

/-
  QueryClient/Settings.lean
  =========================
  **Settings**: the JSON text that selects a driver and its options. No text at all
  means that nothing is set; members that are not known are passed over.
-/
import QueryClient.Driver.Basic
import QueryClient.Json.Typed

namespace QueryClient

/-- The settings of a run. The runtime is read and has no effect. -/
structure Settings where
  driver? : Option String
  runtime? : Option String
  bigNumbers : BigNumbers
  safeIntegers : Bool
deriving DecidableEq, Repr

/-- Why settings cannot be read: the bytes are no text, or the text is not what it
    should be. -/
inductive SettingsFault where
  | notText (fault : Text.Utf8Fault)
  | badText (source : Bytes) (fault : Json.Fault)
deriving DecidableEq, Repr

/-- Why settings select no driver. -/
inductive SelectionFault where
  | missing
  | unknown (name : String)
deriving DecidableEq, Repr

/-- The options of the MySQL driver. -/
def BigNumbers.record : Json.RecordType BigNumbers where
  name := "Mysql2Options"
  fields :=
    [⟨"supportBigNumbers", false, fun o => do
        let b ← Json.readBool
        pure { o with supported := b }⟩,
     ⟨"bigNumberStrings", false, fun o => do
        let b ← Json.readBool
        pure { o with asStrings := b }⟩]
  empty := ⟨false, false⟩

namespace Settings

/-- The options of the better-sqlite3 driver: does it hand back integers of any
    size? -/
def safeIntegersRecord : Json.RecordType Bool where
  name := "BetterSqlite3Options"
  fields := [⟨"safeIntegers", false, fun _ => Json.readBool⟩]
  empty := false

def none : Settings := ⟨.none, .none, ⟨false, false⟩, false⟩

def record : Json.RecordType Settings where
  name := "PluginOptions"
  fields :=
    [⟨"driver", false, fun s => do
        let d ← Json.readNullable Json.readText
        pure { s with driver? := d }⟩,
     ⟨"runtime", false, fun s => do
        let r ← Json.readNullable Json.readText
        pure { s with runtime? := r }⟩,
     ⟨"mysql2", false, fun s => do
        let o ← BigNumbers.record.read
        pure { s with bigNumbers := o }⟩,
     ⟨"better-sqlite3", false, fun s => do
        let b ← safeIntegersRecord.read
        pure { s with safeIntegers := b }⟩]
  empty := none

def parse (bs : Bytes) : Except SettingsFault Settings :=
  if bs.isEmpty then .ok none
  else
    match Text.text? bs with
    | .error f => .error (.notText f)
    | .ok _ =>
      match Json.readAll record.read bs with
      | .error f => .error (.badText bs f)
      | .ok s => .ok s

/-- The driver that the settings select, with its options. -/
def driver (s : Settings) : Except SelectionFault Driver :=
  match s.driver? with
  | .none => .error .missing
  | .some name =>
    if name = "" then .error .missing
    else
      match (Driver.all s.bigNumbers s.safeIntegers).find? (·.name == name) with
      | .some d => .ok d
      | .none => .error (.unknown name)

end Settings
end QueryClient

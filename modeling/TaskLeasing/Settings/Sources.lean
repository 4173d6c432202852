import TaskLeasing.Json.Reader
import TaskLeasing.Settings
import TaskLeasing.Settings.Value
import TaskLeasing.Toml.Reader

namespace TaskLeasing

/-- What one source sets, one name after the other. Some values set nothing. -/
abbrev SettingSource : Type := List (String × Option SettingValue)

/-- The values that sources have set so far, the latest first. -/
abbrev SettingTable : Type := List (String × SettingValue)

/-- The lower case of names: besides the letters of ASCII the Kelvin sign has one of them as its lower
case. -/
def lowerName (name : String) : String :=
  String.ofList (name.toList.map fun c => if c = '\u212A' then 'k' else c.toLower)

def isPathChar (c : Char) : Bool := c.isAlphanum || c == '_' || c == '-' || c == ' '

/-- What follows a place in brackets: an integer that blanks may enclose. -/
def dropPlace? (cs : List Char) : Option (List Char) := do
  let cs := dropGaps cs
  let sign := cs.takeWhile (· = '-')
  let ds := (cs.drop sign.length).takeWhile Char.isDigit
  let _ ← Numeral.int64? (sign ++ ds)
  match dropGaps (cs.drop (sign.length + ds.length)) with
  | ']' :: rest => some rest
  | _ => none

/-- Whether what follows a name leads to a part of its value: fields after points, places in
brackets. -/
def isPathTail : (fuel : Nat) → List Char → Bool
  | 0, _ => false
  | _, [] => true
  | fuel + 1, '.' :: rest =>
    let name := rest.takeWhile isPathChar
    ¬ name.isEmpty ∧ isPathTail fuel (rest.drop name.length)
  | fuel + 1, '[' :: rest => (dropPlace? rest).any (isPathTail fuel)
  | _, _ => false

/-- What a value sets under a name, if it sets anything. A name that leads to a part of another name's
value makes that composite. -/
def assignment? (name : String) (value : Option SettingValue) : Option (String × SettingValue) :=
  let cs := name.toList
  let head := cs.takeWhile isPathChar
  let tail := cs.drop head.length
  if ¬ head.isEmpty ∧ ¬ tail.isEmpty ∧ isPathTail (tail.length + 1) tail then
    some (String.ofList head, .composite)
  else value.map fun value => (name, value)

def SettingTable.set (table : SettingTable) (name : String) (value : Option SettingValue) : SettingTable :=
  (assignment? name value).toList ++ table

/-- What a source sets takes the place of what was set before. -/
def SettingTable.layer (table : SettingTable) (source : SettingSource) : SettingTable :=
  source.foldl (fun table entry => table.set entry.1 entry.2) table

/-- What the names of variables with settings start with, in lower case. -/
def environmentStem : String := "extask__"

/-- A name with its double underscores as points. -/
def dottedName : List Char → List Char
  | '_' :: '_' :: rest => '.' :: dottedName rest
  | c :: rest => c :: dottedName rest
  | [] => []

/-- The name of the setting in the name of a variable. -/
def variableSetting? (name : String) : Option String :=
  let name := (lowerName name).toList
  let stem := environmentStem.toList
  if stem.isPrefixOf name then some (String.ofList (dottedName (name.drop stem.length))) else none

/-- What the variables of an environment set. -/
def environmentSource (vars : List (String × String)) : SettingSource :=
  vars.filterMap fun entry => (variableSetting? entry.1).map fun name => (name, some (.ofText entry.2))

/-- What follows the last point of a file's name, unless the name starts with it. -/
def fileExtension (name : String) : String :=
  match splitAtLastPoint name.toList with
  | some (_ :: _, extension) => String.ofList extension
  | _ => ""
where
  splitAtLastPoint (cs : List Char) : Option (List Char × List Char) :=
    let extension := (cs.reverse.takeWhile (· ≠ '.')).reverse
    if extension.length < cs.length then
      some (cs.take (cs.length - extension.length - 1), extension)
    else none

/-- What a file sets, in the format that the end of its name tells. Numbers of a YAML document must be
numbers elsewhere too. -/
def fileEntries? (name content : String) : Option (List (String × Option SettingValue)) :=
  match fileExtension name with
  | "json" => match Json.read? content with
    | some (.object fields) => some (fields.map fun (key, value) => (key, SettingValue.ofJson? value))
    | _ => none
  | "toml" => (Toml.read? content).map fun fields =>
    fields.map fun (key, value) => (key, SettingValue.ofToml? value)
  | "yaml" | "yml" => match Yaml.read? content with
    | some (.mapping entries) =>
      if Yaml.entriesNumeric entries then
        some (entries.map fun (key, value) => (key.name, SettingValue.ofYaml? value))
      else none
    | _ => none
  | _ => none

/-- Where settings may come from besides the environment. -/
inductive SettingsFile
  | none
  | missing (path : String)
  | present (name content : String)
deriving DecidableEq

/-- What a file sets, if there is one. A file that is named must exist and be readable. -/
def SettingsFile.source : SettingsFile → Except SettingsError SettingSource
  | .none => .ok []
  | .missing path => .error (.fileNotFound path)
  | .present name content => (fileEntries? name content).elim (.error .unreadable) fun entries =>
    .ok (entries.map fun (key, value) => (lowerName key, value))

/-- What settings set when they are a source themselves. -/
def Settings.source (s : Settings) : SettingSource :=
  [("worker_id", some (.text s.workerId)),
    ("default_lock_timeout_ms", some (.integer s.lockTimeoutMs.toNat)),
    ("sweep_interval_ms", some (.integer s.sweepIntervalMs.toNat)),
    ("sweep_on_startup", some (.bool s.sweepOnStartup)),
    ("max_concurrent_processing", some (.integer s.maxConcurrent.toNat)),
    ("lease_per_definition_key", some (.bool s.leasePerDefinition)),
    ("default_retry_delay_ms", some (.integer s.retryDelayMs.toNat)),
    ("default_response_timeout_message", some (.text s.timeoutMessage))]

/-- The value under a name, if it can be read as it is to be read. -/
def SettingTable.read? {α : Type} (table : SettingTable) (read : SettingValue → Option α) (name : String) : Option α :=
  (table.lookup name).bind read

/-- Settings of the values under their names. -/
def Settings.ofTable? (table : SettingTable) : Option Settings := do
  let text := table.read? SettingValue.text?
  let word := table.read? SettingValue.word?
  let bool := table.read? SettingValue.bool?
  some ⟨← text "worker_id", ← word "default_lock_timeout_ms", ← word "sweep_interval_ms", ← bool "sweep_on_startup",
    ← word "max_concurrent_processing", ← bool "lease_per_definition_key", ← word "default_retry_delay_ms",
    ← text "default_response_timeout_message"⟩

/-- The values of all sources: the defaults first, then the file and the environment over them. -/
def layeredTable (defaults : Settings) (environment : List (String × String)) (entries : SettingSource) : SettingTable :=
  ((SettingTable.layer [] defaults.source).layer entries).layer (environmentSource environment)

/-- Loads settings from a file and the environment over defaults. Every value that is left must be of its
setting's type, and the settings must be valid. -/
def Settings.load (defaults : Settings) (environment : List (String × String)) (file : SettingsFile) :
    Except SettingsError Settings :=
  match file.source with
  | .error error => .error error
  | .ok entries => match Settings.ofTable? (layeredTable defaults environment entries) with
    | none => .error .unreadable
    | some settings => settings.validate

end TaskLeasing

import TaskLeasing.Json.Basic
import TaskLeasing.Time.Timestamp
import TaskLeasing.Variables

namespace TaskLeasing

/-- The fields of a record: those of an object by name, missing ones allowed and others passed over,
or the items of a list of just as many. -/
def Json.record? (names : List String) : Json → Option (List (Option Json))
  | .object fields => some (names.map fun name => lookupField name fields)
  | .list items => if items.length = names.length then some (items.map some) else none
  | _ => none

/-- A field that must be there. -/
def required {α : Type} (read : Json → Option α) (field : Option Json) : Option α := field.bind read

/-- A field that may be missing or null. -/
def optional {α : Type} (read : Json → Option α) : Option Json → Option (Option α)
  | none => some none
  | some .null => some none
  | some value => (read value).map some

def Json.texts? (value : Json) : Option (List String) := value.list?.bind (List.mapM Json.text?)

def Json.ofTexts (texts : List String) : Json := .list (texts.map Json.text)

/-- One of the names of an enumeration, alone or as the only field of an object, with null. -/
def Json.choice? {α : Type} (choices : List (String × α)) : Json → Option α
  | .text name => lookupField name choices
  | .object [(name, .null)] => lookupField name choices
  | _ => none

def Variables.encode (vars : Variables) : Json := .object vars.entries

def Variables.decode? : Json → Option Variables
  | .object fields => some (.ofFields fields)
  | _ => none

def Json.ofOption {α : Type} (encode : α → Json) (value : Option α) : Json := value.elim .null encode

def Instant.encode (t : Instant) : Json := .text t.stamp

def Instant.decode? (value : Json) : Option Instant := value.text?.bind Instant.ofStamp?

/-- Whole seconds and nanoseconds beside them. -/
def Span.encode (d : Span) : Json :=
  .ofFields [("secs", .whole d.seconds), ("nanos", .whole d.subsecond)]

def Span.ofFields? : List (Option Json) → Option Span
  | [secs, nanos] => do Span.ofParts (← required Json.word64? secs) (← required Json.word32? nanos)
  | _ => none

/-- Unlike other records a span has no fields beside its own. -/
def Span.decode? (value : Json) : Option Span :=
  match value with
  | .object fields =>
    if fields.all fun field => field.1 = "secs" ∨ field.1 = "nanos" then
      (value.record? ["secs", "nanos"]).bind Span.ofFields?
    else none
  | _ => (value.record? ["secs", "nanos"]).bind Span.ofFields?

def VariableScope.encode : VariableScope → Json
  | .all => .ofFields [("mode", .text "all")]
  | .none => .ofFields [("mode", .text "none")]
  | .names listed => .ofFields [("mode", .text "names"), ("names", .ofTexts listed)]

/-- The modes of a scope; the mode of named variables needs a list of names and the others have
none. -/
def VariableScope.ofParts? (mode : Option Json) (listed : Option Json) : Option VariableScope := do
  let mode ← required (Json.choice? [("all", "all"), ("none", "none"), ("names", "names")]) mode
  if mode = "names" then (required Json.texts? listed).map VariableScope.names
  else
    let scope := if mode = "all" then VariableScope.all else VariableScope.none
    if (listed.getD .null).isNull then some scope else Option.none

/-- A mode and the names that go with it, as fields or in a list, where the mode is its name alone. -/
def VariableScope.decode? : Json → Option VariableScope
  | .object fields => VariableScope.ofParts? (lookupField "mode" fields) (lookupField "names" fields)
  | .list [.text mode, listed] => VariableScope.ofParts? (some (.text mode)) (some listed)
  | _ => Option.none

end TaskLeasing

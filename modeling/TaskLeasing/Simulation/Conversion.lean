import TaskLeasing.Simulation.Script

namespace TaskLeasing

/-- What a value is called in the message that it has not the type asked for. -/
def Json.unexpected : Json → String
  | .null => "null"
  | .bool value => "boolean `" ++ toString value ++ "`"
  | .whole value => "integer `" ++ String.ofList (Numeral.signed value) ++ "`"
  | .double value =>
    let digits := value.display
    "floating point `" ++ digits ++ (if digits.toList.contains '.' then "" else ".0") ++ "`"
  | .text value => "string " ++ quoted value
  | .list _ => "sequence"
  | .object _ => "map"

def Json.mismatch (value : Json) (expected : String) : String :=
  "invalid type: " ++ value.unexpected ++ ", expected " ++ expected

def Json.checkText (value : Json) : Except String Json :=
  match value with
  | .text _ => .ok value
  | other => .error (other.mismatch "a string")

/-- Checks a response for a type. The first part of a list that does not fit is reported. -/
def Json.checkType (value : Json) (type : ResponseType) : Except String Json :=
  match type, value with
  | .integer, .whole n =>
    if fitsInt64 n then .ok value
    else .error ("invalid value: " ++ value.unexpected ++ ", expected i64")
  | .integer, other => .error (other.mismatch "i64")
  | .bool, .bool _ => .ok value
  | .bool, other => .error (other.mismatch "a boolean")
  | .texts, .list items => (items.mapM Json.checkText).map Json.list
  | .texts, other => .error (other.mismatch "a sequence")
  | .text, other => other.checkText

/-- A response converted to a type. -/
def StepResult.typed (result : StepResult) (type : ResponseType) : StepResult :=
  match result with
  | .response value => match value.checkType type with
    | .ok value => .response value
    | .error reason => .responseError (.conversion reason)
  | other => other

end TaskLeasing

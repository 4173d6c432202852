import TaskLeasing.Json.Basic
import TaskLeasing.Text.Numeral
import TaskLeasing.Text.Quoted

namespace TaskLeasing

def escapeJson (c : Char) : List Char :=
  if c = '"' then ['\\', '"']
  else if c = '\\' then ['\\', '\\']
  else if c.toNat < 0x20 then "\\u".toList ++ (Numeral.hex4 c.toNat)
  else [c]

def renderText (s : String) : String :=
  "\"" ++ String.ofList (s.toList.flatMap escapeJson) ++ "\""

mutual

/-- A value on one line, without spaces between its parts. -/
def Json.render : Json → String
  | .null => "null"
  | .bool true => "true"
  | .bool false => "false"
  | .whole value => String.ofList (Numeral.signed value)
  | .double value => value.compact
  | .text value => renderText value
  | .list items => "[" ++ renderItems items ++ "]"
  | .object fields => "\x7b" ++ renderFields fields ++ "\x7d"

def renderItems : List Json → String
  | [] => ""
  | [item] => item.render
  | item :: next :: rest => item.render ++ "," ++ renderItems (next :: rest)

def renderFields : List (String × Json) → String
  | [] => ""
  | [(name, value)] => renderText name ++ ":" ++ value.render
  | (name, value) :: next :: rest =>
    renderText name ++ ":" ++ value.render ++ "," ++ renderFields (next :: rest)

end

mutual

/-- A value with the kind of each part named, for the details of incidents. -/
def Json.inspect : Json → String
  | .null => "Null"
  | .bool true => "Bool(true)"
  | .bool false => "Bool(false)"
  | .whole value => "Number(" ++ String.ofList (Numeral.signed value) ++ ")"
  | .double value => "Number(" ++ value.compact ++ ")"
  | .text value => "String(" ++ quoted value ++ ")"
  | .list items => "Array [" ++ inspectItems items ++ "]"
  | .object fields => "Object \x7b" ++ inspectFields fields ++ "\x7d"

def inspectItems : List Json → String
  | [] => ""
  | [item] => item.inspect
  | item :: next :: rest => item.inspect ++ ", " ++ inspectItems (next :: rest)

def inspectFields : List (String × Json) → String
  | [] => ""
  | [(name, value)] => quoted name ++ ": " ++ value.inspect
  | (name, value) :: next :: rest =>
    quoted name ++ ": " ++ value.inspect ++ ", " ++ inspectFields (next :: rest)

end

end TaskLeasing

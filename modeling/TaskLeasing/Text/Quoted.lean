import TaskLeasing.Text.Hidden

namespace TaskLeasing

/-- How a quotation writes one character. -/
def Quoted.escape (c : Char) : List Char :=
  if c = '"' then ['\\', '"']
  else if c = '\\' then ['\\', '\\']
  else if c = '\n' then ['\\', 'n']
  else if c = '\r' then ['\\', 'r']
  else if c = '\t' then ['\\', 't']
  else if c.toNat = 0 then ['\\', '0']
  else if isHidden c then "\\u\x7b".toList ++ Nat.toDigits 16 c.toNat ++ "\x7d".toList
  else [c]

/-- A text in double quotes, with what would be misread or not seen escaped. -/
def quoted (s : String) : String :=
  "\"" ++ String.ofList (s.toList.flatMap Quoted.escape) ++ "\""

end TaskLeasing

import TaskLeasing.Toml.Scalar

namespace TaskLeasing

namespace Toml

def isBareKeyChar (c : Char) : Bool := c.isAlphanum || c == '_' || c == '-'

/-- One part of a key: bare, or quoted on one line. -/
def scanKeyPart (cs : List Char) : Option (String × List Char) :=
  match cs with
  | '"' :: rest => scanQuoted (cs.length + 1) [] rest
  | '\'' :: rest => scanLiteral rest
  | _ =>
    let name := cs.takeWhile isBareKeyChar
    if name.isEmpty then none else some (String.ofList name, cs.drop name.length)

/-- How many parts a key may have, and how many lists and tables may stand in each other. -/
def depthLimit : Nat := 79

/-- Parts of a key that points and blanks part, the last one apart from the path to it. -/
def scanKeyParts (limit : Nat) (path : List String) (cs : List Char) :
    Option ((List String × String) × List Char) :=
  match limit with
  | 0 => none
  | limit + 1 => do
    let (part, rest) ← scanKeyPart (dropGaps cs)
    match dropGaps rest with
    | '.' :: rest => scanKeyParts limit (part :: path) rest
    | rest => some ((path.reverse, part), rest)

def scanKey (cs : List Char) : Option ((List String × String) × List Char) :=
  scanKeyParts depthLimit [] cs

/-- What follows blanks, comments and line ends. A comment must have a line end. -/
def dropFiller (fuel : Nat) (cs : List Char) : List Char :=
  match fuel with
  | 0 => cs
  | fuel + 1 =>
    let cs := dropGaps cs
    let line := match cs with
      | '#' :: rest => rest.dropWhile isTomlChar
      | rest => rest
    match dropLineEnd? line with
    | some rest => dropFiller fuel rest
    | none => cs

mutual

/-- A value at the front. -/
def scanValue (fuel depth : Nat) (cs : List Char) : Option (Toml × List Char) :=
  match fuel with
  | 0 => none
  | fuel + 1 => match cs with
    | '"' :: _ | '\'' :: _ => (scanText cs).map fun (value, rest) => (.text value, rest)
    | '[' :: rest => if depth = 0 then none else scanItems fuel (depth - 1) [] rest
    | '\x7b' :: rest =>
      if depth = 0 then none
      else match dropGaps rest with
        | '\x7d' :: rest => some (.closed [], rest)
        | rest => scanFields fuel (depth - 1) [] rest
    | _ => scanWord cs

/-- The rest of a list, which may end in a comma. -/
def scanItems (fuel depth : Nat) (done : List Toml) (cs : List Char) : Option (Toml × List Char) :=
  match fuel with
  | 0 => none
  | fuel + 1 => match dropFiller cs.length cs with
    | ']' :: rest => some (.list done.reverse, rest)
    | cs => do
      let (item, rest) ← scanValue fuel depth cs
      match dropFiller rest.length rest with
      | ',' :: rest => scanItems fuel depth (item :: done) rest
      | ']' :: rest => some (.list (item :: done).reverse, rest)
      | _ => none

/-- The rest of a table on one line. -/
def scanFields (fuel depth : Nat) (done : TomlFields) (cs : List Char) : Option (Toml × List Char) :=
  match fuel with
  | 0 => none
  | fuel + 1 => do
    let ((path, key), rest) ← scanKey cs
    match rest with
    | '=' :: rest => do
      let (value, rest) ← scanValue fuel depth (dropGaps rest)
      let done ← done.set? path key value
      match dropGaps rest with
      | ',' :: rest => scanFields fuel depth done rest
      | '\x7d' :: rest => some (.closed done, rest)
      | _ => none
    | _ => none

end

/-- The end of a line after blanks and perhaps a comment, and the lines after it. -/
def dropLineRest? (cs : List Char) : Option (List Char) :=
  let line := match dropGaps cs with
    | '#' :: rest => rest.dropWhile isTomlChar
    | rest => rest
  if line.isEmpty then some [] else dropLineEnd? line

/-- The lines of a document, with the path of the table that their keys go into. -/
def scanDocument (fuel : Nat) (table : List String) (fields : TomlFields) (cs : List Char) :
    Option TomlFields :=
  match fuel with
  | 0 => none
  | fuel + 1 => match dropGaps cs with
    | [] => some fields
    | '#' :: rest => (dropLineRest? ('#' :: rest)).bind (scanDocument fuel table fields)
    | '[' :: '[' :: rest => do
      match ← scanKey rest with
      | ((path, key), ']' :: ']' :: rest) => do
        scanDocument fuel (path ++ [key]) (← fields.openElement? path key) (← dropLineRest? rest)
      | _ => none
    | '[' :: rest => do
      match ← scanKey rest with
      | ((path, key), ']' :: rest) => do
        scanDocument fuel (path ++ [key]) (← fields.openTable? path key) (← dropLineRest? rest)
      | _ => none
    | cs => match dropLineEnd? cs with
      | some rest => scanDocument fuel table fields rest
      | none => do
        match ← scanKey cs with
        | ((path, key), '=' :: rest) => do
          let (value, rest) ← scanValue (2 * rest.length + 2) depthLimit (dropGaps rest)
          let change (_ : TableOrigin) (inner : TomlFields) : Option TomlFields := inner.set? path key value
          scanDocument fuel table (← fields.changeAt .passed change table .opened) (← dropLineRest? rest)
        | _ => none

end Toml

/-- Reads a TOML document. A byte order mark may stand before it. -/
def Toml.read? (text : String) : Option TomlFields :=
  let cs := match text.toList with
    | '\uFEFF' :: rest => rest
    | rest => rest
  Toml.scanDocument (cs.length + 1) [] [] cs

end TaskLeasing

import TaskLeasing.Json.Basic
import TaskLeasing.Text.Numeral

namespace TaskLeasing

def dropJsonSpace (cs : List Char) : List Char :=
  cs.dropWhile fun c => c = ' ' || c = '\n' || c = '\r' || c = '\t'

def hexUnit? : List Char → Option (Nat × List Char)
  | a :: b :: c :: d :: rest => do
    some (((← hexDigit? a) * 16 + (← hexDigit? b)) * 256 + (← hexDigit? c) * 16 + (← hexDigit? d), rest)
  | _ => none

/-- The character of the hexadecimal digits after `\u`. A high surrogate needs its low one in the
escape that follows, and no surrogate stands alone. -/
def escapedChar? (cs : List Char) : Option (Char × List Char) := do
  let (unit, rest) ← hexUnit? cs
  if unit < 0xD800 ∨ 0xDFFF < unit then some (Char.ofNat unit, rest)
  else if unit < 0xDC00 then
    match rest with
    | '\\' :: 'u' :: rest => do
      let (low, rest) ← hexUnit? rest
      if 0xDC00 ≤ low ∧ low ≤ 0xDFFF then
        some (Char.ofNat (0x10000 + (unit - 0xD800) * 0x400 + (low - 0xDC00)), rest)
      else none
    | _ => none
  else none

/-- The rest of a string after its opening quote, given what was read of it in reverse. -/
def scanText : Nat → List Char → List Char → Option (String × List Char)
  | 0, _, _ => none
  | fuel + 1, done, cs => match cs with
    | '"' :: rest => some (String.ofList done.reverse, rest)
    | '\\' :: e :: rest => match e with
      | '"' => scanText fuel ('"' :: done) rest
      | '\\' => scanText fuel ('\\' :: done) rest
      | '/' => scanText fuel ('/' :: done) rest
      | 'b' => scanText fuel ('\x08' :: done) rest
      | 'f' => scanText fuel ('\x0c' :: done) rest
      | 'n' => scanText fuel ('\n' :: done) rest
      | 'r' => scanText fuel ('\r' :: done) rest
      | 't' => scanText fuel ('\t' :: done) rest
      | 'u' => (escapedChar? rest).bind fun (c, rest) => scanText fuel (c :: done) rest
      | _ => none
    | c :: rest => if c.toNat < 0x20 ∨ c = '\\' then none else scanText fuel (c :: done) rest
    | [] => none

/-- The digits of a whole part: a zero alone, or digits that start with another one. -/
def scanWhole (cs : List Char) : Option (List Char × List Char) :=
  let ds := cs.takeWhile Char.isDigit
  match ds with
  | [] => none
  | '0' :: _ :: _ => none
  | ds => some (ds, cs.drop ds.length)

/-- The digits after a point; without the point there are none. -/
def scanFractionPart : List Char → Option (List Char × List Char)
  | '.' :: cs =>
    let ds := cs.takeWhile Char.isDigit
    if ds.isEmpty then none else some (ds, cs.drop ds.length)
  | cs => some ([], cs)

/-- The power of ten after an `e`, if there is one. -/
def scanExponentPart : List Char → Option (Option Int × List Char)
  | e :: cs =>
    if e = 'e' ∨ e = 'E' then
      let sign := (cs.take 1).filter fun c => c = '+' || c = '-'
      let digits := (cs.drop sign.length).takeWhile Char.isDigit
      (Numeral.integer? (sign ++ digits)).map fun power =>
        (some power, cs.drop (sign.length + digits.length))
    else some (none, e :: cs)
  | [] => some (none, [])

/-- A number: whole if it has neither fraction nor exponent and fits 64 bits. A zero with a minus sign
is a double. -/
def scanNumber (cs : List Char) : Option (Json × List Char) := do
  let (negative, cs) := match cs with
    | '-' :: rest => (true, rest)
    | rest => (false, rest)
  let (ds, cs) ← scanWhole cs
  let (fraction, cs) ← scanFractionPart cs
  let (exponent, cs) ← scanExponentPart cs
  let double := (Double.ofDigits? negative ds fraction (exponent.getD 0)).map fun d => (Json.double d, cs)
  if fraction.isEmpty ∧ exponent.isNone then
    let size ← Numeral.natural? ds
    let value : Int := if negative then -(size : Int) else size
    if (negative ∧ size = 0) ∨ ¬ (fitsInt64 value ∨ fitsWord64 value) then double
    else some (.whole value, cs)
  else double

def scanWord (word : String) (value : Json) (cs : List Char) : Option (Json × List Char) :=
  if word.toList.isPrefixOf cs then some (value, cs.drop word.length) else none

mutual

/-- A value at the front of the input. Containers may stand in each other up to a depth. -/
def scanValue (fuel depth : Nat) (cs : List Char) : Option (Json × List Char) :=
  match fuel with
  | 0 => none
  | fuel + 1 => match dropJsonSpace cs with
    | 'n' :: rest => scanWord "null" .null ('n' :: rest)
    | 't' :: rest => scanWord "true" (.bool true) ('t' :: rest)
    | 'f' :: rest => scanWord "false" (.bool false) ('f' :: rest)
    | '"' :: rest => (scanText (rest.length + 1) [] rest).map fun (s, rest) => (.text s, rest)
    | '[' :: rest =>
      if depth ≤ 1 then none
      else match dropJsonSpace rest with
        | ']' :: rest => some (.list [], rest)
        | rest => (scanItems fuel (depth - 1) [] rest).map fun (items, rest) => (.list items, rest)
    | '{' :: rest =>
      if depth ≤ 1 then none
      else match dropJsonSpace rest with
        | '}' :: rest => some (.object [], rest)
        | rest => (scanFields fuel (depth - 1) [] rest).map fun (fields, rest) =>
            (Json.ofFields fields, rest)
    | rest => scanNumber rest

def scanItems (fuel depth : Nat) (done : List Json) (cs : List Char) :
    Option (List Json × List Char) :=
  match fuel with
  | 0 => none
  | fuel + 1 => do
    let (item, rest) ← scanValue fuel depth cs
    match dropJsonSpace rest with
    | ',' :: rest => scanItems fuel depth (item :: done) rest
    | ']' :: rest => some ((item :: done).reverse, rest)
    | _ => none

def scanFields (fuel depth : Nat) (done : List (String × Json)) (cs : List Char) :
    Option (List (String × Json) × List Char) :=
  match fuel with
  | 0 => none
  | fuel + 1 => match dropJsonSpace cs with
    | '"' :: rest => do
      let (name, rest) ← scanText (rest.length + 1) [] rest
      match dropJsonSpace rest with
      | ':' :: rest => do
        let (value, rest) ← scanValue fuel depth rest
        match dropJsonSpace rest with
        | ',' :: rest => scanFields fuel depth ((name, value) :: done) rest
        | '}' :: rest => some (((name, value) :: done).reverse, rest)
        | _ => none
      | _ => none
    | _ => none

end

/-- Reads one JSON value that fills the whole text but for space around it. -/
def Json.read? (text : String) : Option Json :=
  let cs := text.toList
  match scanValue (2 * cs.length + 2) 128 cs with
  | some (value, rest) => if (dropJsonSpace rest).isEmpty then some value else none
  | none => none

end TaskLeasing

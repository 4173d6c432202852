import TaskLeasing.Text.Blank
import TaskLeasing.Time.Calendar
import TaskLeasing.Toml.Basic

namespace TaskLeasing

/-- The characters that stand for themselves on a line: all but controls other than tabs. -/
def isTomlChar (c : Char) : Bool := c == '\t' || (0x20 ≤ c.toNat && c.toNat != 0x7F)

/-- What follows a line end at the front, if there is one. -/
def dropLineEnd? : List Char → Option (List Char)
  | '\n' :: rest => some rest
  | '\r' :: '\n' :: rest => some rest
  | _ => none

namespace Toml

/-- The character that the front of what follows a backslash stands for. -/
def escaped? : List Char → Option (Char × List Char)
  | 'b' :: rest => some ('\x08', rest)
  | 't' :: rest => some ('\t', rest)
  | 'n' :: rest => some ('\n', rest)
  | 'f' :: rest => some ('\x0c', rest)
  | 'r' :: rest => some ('\r', rest)
  | '"' :: rest => some ('"', rest)
  | '\\' :: rest => some ('\\', rest)
  | 'u' :: rest => Numeral.character? 4 rest
  | 'U' :: rest => Numeral.character? 8 rest
  | _ => none

/-- The rest of a text after its opening quote, given what was read of it in reverse. -/
def scanQuoted : (fuel : Nat) → (done : List Char) → List Char → Option (String × List Char)
  | 0, _, _ => none
  | fuel + 1, done, cs => match cs with
    | '"' :: rest => some (String.ofList done.reverse, rest)
    | '\\' :: rest => (escaped? rest).bind fun (c, rest) => scanQuoted fuel (c :: done) rest
    | c :: rest => if isTomlChar c then scanQuoted fuel (c :: done) rest else none
    | [] => none

/-- The rest of a text between single quotes. -/
def scanLiteral (cs : List Char) : Option (String × List Char) :=
  let front := cs.takeWhile fun c => isTomlChar c && c != '\''
  match cs.drop front.length with
  | '\'' :: rest => some (String.ofList front, rest)
  | _ => none

/-- What follows a line end and all blanks and line ends after it. -/
def dropLines (cs : List Char) : (fuel : Nat) → List Char
  | 0 => cs
  | fuel + 1 =>
    let cs := dropGaps cs
    match dropLineEnd? cs with
    | some rest => dropLines rest fuel
    | none => cs

/-- The rest of a text of many lines after its three opening quotes. Up to two quotes may stand right
before the three that end it. With escapes a backslash at the end of a line takes the blanks and line
ends after it away. -/
def scanLines (quote : Char) (escapes : Bool) :
    (fuel : Nat) → (done : List Char) → List Char → Option (String × List Char)
  | 0, _, _ => none
  | fuel + 1, done, cs => match cs with
    | [] => none
    | c :: rest =>
      if c = quote then
        let count := (cs.takeWhile (· = quote)).length
        if count < 3 then scanLines quote escapes fuel (List.replicate count quote ++ done) (cs.drop count)
        else
          let inside := min (count - 3) 2
          some (String.ofList (List.replicate inside quote ++ done).reverse, cs.drop (inside + 3))
      else if c = '\\' ∧ escapes then
        match dropLineEnd? (dropGaps rest) with
        | some next => scanLines quote escapes fuel done (dropLines next next.length)
        | none => (escaped? rest).bind fun (c, rest) => scanLines quote escapes fuel (c :: done) rest
      else match dropLineEnd? cs with
        | some rest => scanLines quote escapes fuel ('\n' :: done) rest
        | none => if isTomlChar c then scanLines quote escapes fuel (c :: done) rest else none

/-- A text at the front, of one line or many. A line end right after three opening quotes is not part
of it. -/
def scanText (cs : List Char) : Option (String × List Char) :=
  let lines (quote : Char) (escapes : Bool) (rest : List Char) : Option (String × List Char) :=
    scanLines quote escapes (cs.length + 1) [] ((dropLineEnd? rest).getD rest)
  match cs with
  | '"' :: '"' :: '"' :: rest => lines '"' true rest
  | '\'' :: '\'' :: '\'' :: rest => lines '\'' false rest
  | '"' :: rest => scanQuoted (cs.length + 1) [] rest
  | '\'' :: rest => scanLiteral rest
  | _ => none

/-- Digits that single underscores may part, without the underscores. -/
def digits? (isDigit : Char → Bool) (cs : List Char) : Option (List Char) :=
  let apart := (cs.zip (cs.drop 1)).all fun (a, b) => a != '_' || b != '_'
  let ds := cs.filter (· ≠ '_')
  let bounded := cs.head? ≠ some '_' ∧ cs.getLast? ≠ some '_'
  if ds ≠ [] ∧ ds.all isDigit ∧ apart ∧ bounded then some ds else none

/-- Decimal digits without a zero in front of others, after an optional sign. -/
def whole? (cs : List Char) : Option (List Char) :=
  let sign := (cs.take 1).filter fun c => c = '+' || c = '-'
  (digits? Char.isDigit (cs.drop sign.length)).bind fun ds =>
    if 1 < ds.length ∧ ds.head? = some '0' then none else some (sign ++ ds)

def integer? (cs : List Char) : Option Int :=
  let value : Option Int := match cs with
    | '0' :: 'x' :: ds => (digits? Char.isAlphanum ds).bind (Numeral.integerIn? 16)
    | '0' :: 'o' :: ds => (digits? Char.isAlphanum ds).bind (Numeral.integerIn? 8)
    | '0' :: 'b' :: ds => (digits? Char.isAlphanum ds).bind (Numeral.integerIn? 2)
    | cs => (whole? cs).bind Numeral.integer?
  value.filter fitsInt64

/-- A number with a fraction, an exponent or both, or the name of a value that is not finite. Too large
a number is refused unless it is negative. -/
def double? (cs : List Char) : Option Double :=
  let unsigned := match cs with
    | '+' :: rest | '-' :: rest => rest
    | rest => rest
  if unsigned = "inf".toList ∨ unsigned = "nan".toList then Double.read? cs
  else do
    let front := cs.takeWhile fun c => c != '.' && c != 'e' && c != 'E'
    let tail := cs.drop front.length
    let fraction := tail.takeWhile fun c => c != 'e' && c != 'E'
    let exponent := tail.drop fraction.length
    let whole ← whole? front
    let fraction ← match fraction with
      | '.' :: ds => (digits? Char.isDigit ds).map ('.' :: ·)
      | _ => some []
    let exponent ← match exponent with
      | [] => some []
      | _ :: ds =>
        let sign := (ds.take 1).filter fun c => c = '+' || c = '-'
        (digits? Char.isDigit (ds.drop sign.length)).map fun ds => 'e' :: sign ++ ds
    if fraction = [] ∧ exponent = [] then none
    else (Double.read? (whole ++ fraction ++ exponent)).filter (· ≠ .infinite false)

/-- Two digits, no more than a limit. -/
def pair? (limit : Nat) : List Char → Option (Nat × List Char)
  | a :: b :: rest =>
    (Numeral.natural? [a, b]).bind fun n => if n ≤ limit then some (n, rest) else none
  | _ => none

/-- A date such as `2023-11-14`, and what follows it. -/
def date? (cs : List Char) : Option (String × List Char) := do
  let year ← Numeral.natural? (cs.take 4)
  match cs.drop 4 with
  | '-' :: rest => do
    let (month, rest) ← pair? 12 rest
    match rest with
    | '-' :: rest => do
      let (day, rest) ← pair? 31 rest
      if (⟨year, month, day⟩ : Date).Valid then some (String.ofList (cs.take 10), rest) else none
    | _ => none
  | _ => none

/-- A time such as `22:13:20.5`, and what follows it. Of a fraction nine digits count, and zeros at its
end are left out. -/
def time? (cs : List Char) : Option (String × List Char) := do
  match ← pair? 23 cs with
  | (_, ':' :: rest) => match ← pair? 59 rest with
    | (_, ':' :: rest) => do
      let (_, rest) ← pair? 60 rest
      let clock := String.ofList (cs.take 8)
      match rest with
      | '.' :: rest =>
        let ds := rest.takeWhile Char.isDigit
        let kept := ((ds.take 9).reverse.dropWhile (· = '0')).reverse
        let fraction := if kept.isEmpty then "" else "." ++ String.ofList kept
        if ds.isEmpty then none else some (clock ++ fraction, rest.drop ds.length)
      | rest => some (clock, rest)
    | _ => none
  | _ => none

/-- The offset after a time; it may be missing. -/
def offset? : List Char → Option String
  | [] => some ""
  | ['Z'] | ['z'] => some "Z"
  | sign :: rest => do
    if sign ≠ '+' ∧ sign ≠ '-' then none
    let (hours, rest) ← pair? 23 rest
    match rest with
    | ':' :: rest => do
      let (minutes, rest) ← pair? 59 rest
      let sign := if hours = 0 ∧ minutes = 0 then '+' else sign
      if rest.isEmpty then
        some (String.singleton sign ++ Numeral.padded 2 hours ++ ":" ++ Numeral.padded 2 minutes)
      else none
    | _ => none

/-- A time with an offset that may be missing. -/
def zonedTime? (cs : List Char) : Option String := do
  let (clock, rest) ← time? cs
  (offset? rest).map (clock ++ ·)

/-- A date, a time, or a date and a time with an offset or without. -/
def moment? (cs : List Char) : Option String :=
  match date? cs with
  | some (day, []) => some day
  | some (day, mark :: rest) =>
    if mark = 'T' ∨ mark = 't' then (zonedTime? rest).map fun clock => day ++ "T" ++ clock else none
  | none => match time? cs with
    | some (clock, []) => some clock
    | _ => none

/-- The characters of numbers, dates and truth values. -/
def isWordChar (c : Char) : Bool := c.isAlphanum || "_+-.:".toList.contains c

/-- A number, date or truth value at the front. A blank may part a date from its time. -/
def scanWord (cs : List Char) : Option (Toml × List Char) :=
  let word := cs.takeWhile isWordChar
  let rest := cs.drop word.length
  let joined : Option (Toml × List Char) := match date? word, rest with
    | some (day, []), ' ' :: after =>
      let second := after.takeWhile isWordChar
      (zonedTime? second).map fun clock => (.text (day ++ "T" ++ clock), after.drop second.length)
    | _, _ => none
  let single : Option Toml :=
    if word = "true".toList then some (.bool true)
    else if word = "false".toList then some (.bool false)
    else ((moment? word).map .text).or (((double? word).map .double).or ((integer? word).map .integer))
  joined.or (single.map fun value => (value, rest))

end Toml

end TaskLeasing

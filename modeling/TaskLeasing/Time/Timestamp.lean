import TaskLeasing.Text.Blank
import TaskLeasing.Text.Numeral
import TaskLeasing.Time.Calendar

namespace TaskLeasing

/-- Years 0 to 9999 have four digits; any other has its sign before them. -/
def Timestamp.year (year : Int) : String :=
  if 0 ≤ year ∧ year ≤ 9999 then Numeral.padded 4 year.natAbs
  else (if year < 0 then "-" else "+") ++ Numeral.padded 4 year.natAbs

/-- The part after the second: nothing, or a point and the fewest of three, six and nine digits
that lose nothing. -/
def Timestamp.fraction (nanos : Nat) : String :=
  if nanos = 0 then ""
  else if nanos % 1000000 = 0 then "." ++ Numeral.padded 3 (nanos / 1000000)
  else if nanos % 1000 = 0 then "." ++ Numeral.padded 6 (nanos / 1000)
  else "." ++ Numeral.padded 9 nanos

def Timestamp.date (d : Date) : String :=
  Timestamp.year d.year ++ "-" ++ Numeral.padded 2 d.month ++ "-" ++ Numeral.padded 2 d.day

def Timestamp.time (t : TimeOfDay) : String :=
  Numeral.padded 2 t.hour ++ ":" ++ Numeral.padded 2 t.minute ++ ":" ++ Numeral.padded 2 t.second ++
    Timestamp.fraction t.nanos

/-- An instant for people: `2023-11-14 22:13:20.100 UTC`. -/
def Instant.display (t : Instant) : String :=
  Timestamp.date t.civil.1 ++ " " ++ Timestamp.time t.civil.2 ++ " UTC"

/-- An instant for documents: `2023-11-14T22:13:20.100Z`. -/
def Instant.stamp (t : Instant) : String :=
  Timestamp.date t.civil.1 ++ "T" ++ Timestamp.time t.civil.2 ++ "Z"

/-- One digit up to the given number of them, after blanks. -/
def Timestamp.scanNumber (width : Nat) (cs : List Char) : Option (Nat × List Char) :=
  let cs := dropBlanks cs
  let ds := (cs.take width).takeWhile Char.isDigit
  (Numeral.natural? ds).map fun n => (n, cs.drop ds.length)

/-- A year has up to four digits, or a sign and any number of them. -/
def Timestamp.scanYear (cs : List Char) : Option (Int × List Char) :=
  match dropBlanks cs with
  | '-' :: ds => (Timestamp.scanNumber ds.length ds).bind fun (n, rest) =>
      if ds.head?.any Char.isDigit then some (-(n : Int), rest) else none
  | '+' :: ds => (Timestamp.scanNumber ds.length ds).bind fun (n, rest) =>
      if ds.head?.any Char.isDigit then some ((n : Int), rest) else none
  | ds => (Timestamp.scanNumber 4 ds).map fun (n, rest) => ((n : Int), rest)

/-- A mark that blanks may precede. -/
def Timestamp.scanMark (mark : Char) (cs : List Char) : Option (List Char) :=
  match dropBlanks cs with
  | c :: rest => if c = mark then some rest else none
  | [] => none

/-- A fraction of a second in nanoseconds; digits after the ninth are read and dropped. -/
def Timestamp.scanFraction : List Char → Option (Nat × List Char)
  | '.' :: cs =>
    let ds := cs.takeWhile Char.isDigit
    (Numeral.natural? ((ds ++ List.replicate 9 '0').take 9)).bind fun n =>
      if ds.isEmpty then none else some (n, cs.drop ds.length)
  | cs => some (0, cs)

def Timestamp.twoDigits : List Char → Option (Nat × List Char)
  | a :: b :: rest => (Numeral.natural? [a, b]).map fun n => (n, rest)
  | _ => none

/-- An offset from universal time in seconds: `Z`, `UTC`, or a sign, two digits of hours and two
of minutes, which colons and blanks may part. -/
def Timestamp.scanOffset (cs : List Char) : Option (Int × List Char) :=
  let signed (sign : Int) (cs : List Char) : Option (Int × List Char) := do
    let (hours, cs) ← Timestamp.twoDigits cs
    let (minutes, cs) ← Timestamp.twoDigits (cs.dropWhile fun c => c = ':' || isBlank c)
    if hours < 24 ∧ minutes < 60 then some (sign * (hours * 3600 + minutes * 60), cs) else none
  match cs with
  | 'Z' :: rest | 'z' :: rest => some (0, rest)
  | '+' :: rest => signed 1 rest
  | '-' :: rest | '−' :: rest => signed (-1) rest
  | a :: b :: c :: rest =>
    if a.toUpper = 'U' ∧ b.toUpper = 'T' ∧ c.toUpper = 'C' then some (0, rest) else none
  | _ => none

/-- Reads a date, `T` or a space, a time and an offset. Blanks may stand between the parts and
numbers may lack leading zeros. -/
def Instant.ofStamp? (text : String) : Option Instant := do
  let (year, cs) ← Timestamp.scanYear text.toList
  let (month, cs) ← Timestamp.scanNumber 2 (← Timestamp.scanMark '-' cs)
  let (day, cs) ← Timestamp.scanNumber 2 (← Timestamp.scanMark '-' cs)
  let cs ← match cs with
    | 'T' :: rest | 't' :: rest | ' ' :: rest => some rest
    | _ => none
  let (hour, cs) ← Timestamp.scanNumber 2 cs
  let (minute, cs) ← Timestamp.scanNumber 2 (← Timestamp.scanMark ':' cs)
  let (second, cs) ← Timestamp.scanNumber 2 (← Timestamp.scanMark ':' cs)
  let (nanos, cs) ← Timestamp.scanFraction cs
  let (offset, cs) ← Timestamp.scanOffset (dropBlanks cs)
  if (dropBlanks cs).isEmpty then
    Instant.ofCivil? ⟨year, month, day⟩ ⟨hour, minute, second, nanos⟩ offset
  else none

/-- A span for people, in the largest of seconds, milliseconds, microseconds and nanoseconds that
it reaches, with the fraction's trailing zeros left out: `1.5s`, `999ms`. -/
def Span.display (d : Span) : String :=
  let decimal (whole rest width : Nat) : String :=
    let ds := (Numeral.padded width rest).toList.reverse.dropWhile (· = '0')
    toString whole ++ if ds.isEmpty then "" else "." ++ String.ofList ds.reverse
  if 1000000000 ≤ d.nanos then decimal (d.nanos / 1000000000) (d.nanos % 1000000000) 9 ++ "s"
  else if 1000000 ≤ d.nanos then decimal (d.nanos / 1000000) (d.nanos % 1000000) 6 ++ "ms"
  else if 1000 ≤ d.nanos then decimal (d.nanos / 1000) (d.nanos % 1000) 3 ++ "µs"
  else toString d.nanos ++ "ns"

end TaskLeasing

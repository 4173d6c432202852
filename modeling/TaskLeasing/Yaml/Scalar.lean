import TaskLeasing.Text.Numeral
import TaskLeasing.Yaml.Cursor

namespace TaskLeasing

namespace Yaml

open YamlCursor

/-- Line ends in the midst of a text: a single one stands for a blank, and of several the first is
left out. -/
def foldedBreaks (more : Nat) : List Char := if more = 0 then [' '] else List.replicate more '\n'

/-! Plain texts. -/

/-- Whether a plain text goes on with the character at a place. -/
def continuesPlain (flow : Bool) (cursor : YamlCursor) : Bool :=
  let next := cursor.ahead 1
  if isWordEnd cursor.head then false
  else if cursor.head = ':' ∧ (isWordEnd next ∨ (flow ∧ isFlowMark next)) then false
  else ¬ (flow ∧ isFlowMark cursor.head)

/-- One word of a plain text, in reverse. -/
def scanPlainWord (flow : Bool) :
    (fuel : Nat) → (done : List Char) → YamlCursor → List Char × YamlCursor
  | 0, done, cursor => (done, cursor)
  | fuel + 1, done, cursor =>
    if continuesPlain flow cursor then scanPlainWord flow fuel (cursor.head :: done) (cursor.take 1)
    else (done, cursor)

/-- What stands between two words of a plain text: blanks in reverse, or line ends, of which the number
after the first is given. -/
structure PlainGap where
  blanks : List Char
  breaks : Option Nat

def PlainGap.none : PlainGap := ⟨[], Option.none⟩

/-- Over blanks and line ends after a word. A tab may not stand in for the indent of a line. -/
def scanPlainGap (indent : Int) : (fuel : Nat) → PlainGap → YamlCursor → Option (PlainGap × YamlCursor)
  | 0, gap, cursor => some (gap, cursor)
  | fuel + 1, gap, cursor =>
    if isGap cursor.head then
      if ¬ cursor.fresh then
        scanPlainGap indent fuel { gap with blanks := cursor.head :: gap.blanks } cursor.pass
      else if cursor.column < indent ∧ cursor.head = '\t' then do
        let (_, cursor) ← cursor.passGaps true
        if isBreakOrEnd cursor.head then scanPlainGap indent fuel gap cursor else Option.none
      else scanPlainGap indent fuel gap cursor.pass
    else if isBreak cursor.head then
      let breaks := if cursor.fresh then gap.breaks.map (· + 1) else some 0
      scanPlainGap indent fuel ⟨[], breaks⟩ cursor.passBreak
    else some (gap, cursor)

/-- The words of a plain text from a place on, given what was read in reverse. Words on further lines
must stand in as far as the indent. -/
def scanPlainWords (flow : Bool) (indent : Int) :
    (fuel : Nat) → (done : List Char) → PlainGap → YamlCursor → Option (List Char × YamlCursor)
  | 0, _, _, _ => none
  | fuel + 1, done, gap, cursor =>
    if cursor.atDocumentMark ∨ cursor.head = '#' then some (done, cursor)
    else if flow ∧ cursor.head = '-' ∧ isFlowMark (cursor.ahead 1) then none
    else
      let joint := (gap.breaks.map foldedBreaks).getD gap.blanks
      let (word, next) := scanPlainWord flow cursor.rest.length [] cursor
      let done := if word.isEmpty then done else word ++ joint ++ done
      if ¬ (isGap next.head ∨ isBreak next.head) then some (done, next)
      else do
        let (gap, next) ← scanPlainGap indent (next.rest.length + 1) .none next
        if ¬ flow ∧ next.column < indent then some (done, next)
        else scanPlainWords flow indent fuel done gap next

def scanPlain (flow : Bool) (indent : Int) (cursor : YamlCursor) : Option (String × YamlCursor) := do
  let (text, next) ← scanPlainWords flow indent (cursor.rest.length + 1) [] .none cursor
  some (String.ofList text.reverse, next)

/-! Texts in quotes. -/

/-- The character that the front of what follows a backslash stands for, and what follows it. -/
def escaped? : List Char → Option (Char × List Char)
  | [] => none
  | c :: rest =>
    let plain := [('0', '\x00'), ('a', '\x07'), ('b', '\x08'), ('t', '\t'), ('\t', '\t'), ('n', '\n'),
      ('v', '\x0b'), ('f', '\x0c'), ('r', '\r'), ('e', '\x1b'), (' ', ' '), ('"', '"'), ('/', '/'),
      ('\\', '\\'), ('N', '\u0085'), ('_', '\u00A0'), ('L', '\u2028'), ('P', '\u2029')]
    match plain.lookup c with
    | some value => some (value, rest)
    | none =>
      if c = 'x' then Numeral.character? 2 rest
      else if c = 'u' then Numeral.character? 4 rest
      else if c = 'U' then Numeral.character? 8 rest
      else none

/-- A run of characters in quotes up to a blank, a line end or the closing quote, in reverse, and
whether a backslash at the end of a line ended it. -/
def scanQuotedRun (single : Bool) :
    (fuel : Nat) → (done : List Char) → YamlCursor → Option (List Char × Bool × YamlCursor)
  | 0, done, cursor => some (done, false, cursor)
  | fuel + 1, done, cursor =>
    let c := cursor.head
    if isWordEnd c then some (done, false, cursor)
    else if single then
      if c = '\'' then
        if cursor.ahead 1 = '\'' then scanQuotedRun single fuel ('\'' :: done) (cursor.take 2)
        else some (done, false, cursor)
      else scanQuotedRun single fuel (c :: done) (cursor.take 1)
    else if c = '"' then some (done, false, cursor)
    else if c = '\\' then
      if isBreak (cursor.ahead 1) then some (done, true, (cursor.take 1).passBreak)
      else do
        let (value, rest) ← escaped? (cursor.rest.drop 1)
        scanQuotedRun single fuel (value :: done) (cursor.take (cursor.rest.length - rest.length))
    else scanQuotedRun single fuel (c :: done) (cursor.take 1)

/-- Over blanks and line ends in quotes. Once a line has ended, blanks do not count. -/
def scanQuotedGap (indent : Int) (ended : Bool) :
    (fuel : Nat) → PlainGap → YamlCursor → Option (PlainGap × YamlCursor)
  | 0, gap, cursor => some (gap, cursor)
  | fuel + 1, gap, cursor =>
    let leading := ended || gap.breaks.isSome
    if isGap cursor.head then
      if ¬ leading then
        scanQuotedGap indent ended fuel { gap with blanks := cursor.head :: gap.blanks } cursor.pass
      else if cursor.head = '\t' ∧ cursor.column < indent then none
      else scanQuotedGap indent ended fuel gap cursor.pass
    else if isBreak cursor.head then
      let breaks := if leading then (gap.breaks.getD 0) + 1 else 0
      scanQuotedGap indent ended fuel ⟨[], some breaks⟩ cursor.passBreak
    else some (gap, cursor)

/-- The text from after the opening quote up to the closing one, in reverse. -/
def scanQuotedParts (single : Bool) (indent : Int) :
    (fuel : Nat) → (done : List Char) → YamlCursor → Option (List Char × YamlCursor)
  | 0, _, _ => none
  | fuel + 1, done, cursor =>
    if cursor.atDocumentMark ∨ cursor.rest.isEmpty ∨ cursor.column < indent then none
    else do
      let (done, ended, next) ← scanQuotedRun single cursor.rest.length done cursor
      if next.head = (if single then '\'' else '"') then some (done, next.take 1)
      else
        let (gap, next) ← scanQuotedGap indent ended (next.rest.length + 1) .none next
        let joint := match gap.breaks with
          | none => gap.blanks
          | some more => if ended then List.replicate more '\n' else foldedBreaks more
        scanQuotedParts single indent fuel (joint ++ done) next

/-- A text in quotes. After it the line must end, or what may follow a value or a key. -/
def scanQuoted (flow single : Bool) (indent : Int) (cursor : YamlCursor) :
    Option (String × YamlCursor) := do
  let (text, next) ← scanQuotedParts single indent (cursor.rest.length + 1) [] (cursor.take 1)
  let (_, next) ← next.passGaps true
  let c := next.head
  let closes := flow ∧ (c = ',' ∨ c = ']' ∨ c = '\x7d')
  let isKey := c = ':' ∧ (flow ∨ cursor.line = next.line)
  if closes ∨ isBreakOrEnd c ∨ isKey then some (String.ofList text.reverse, next) else none

/-! Texts in blocks of lines. -/

/-- What becomes of the line ends at the end of a block: all but the first go, all go, or all stay. -/
inductive Chomping
  | clip
  | strip
  | keep
deriving DecidableEq

/-- The marks after the one that opens a block: how it ends and how far in its lines stand, in either
order. -/
def scanBlockHeader (cursor : YamlCursor) : Option (Chomping × Nat × YamlCursor) :=
  let chomping? (c : Char) : Option Chomping :=
    if c = '+' then some .keep else if c = '-' then some .strip else none
  let digit? (c : Char) : Option Nat := if c.isDigit then some (c.toNat - '0'.toNat) else none
  let (first, second) := (cursor.head, cursor.ahead 1)
  let (chomping, inset, width) : Chomping × Option Nat × Nat := match chomping? first, digit? first with
    | some chomping, _ => match digit? second with
      | some n => (chomping, some n, 2)
      | none => (chomping, none, 1)
    | none, some n => match chomping? second with
      | some chomping => (chomping, some n, 2)
      | none => (.clip, some n, 1)
    | none, none => (.clip, none, 0)
  if inset = some 0 then none else some (chomping, inset.getD 0, cursor.take width)

/-- Over empty lines and the indent of the next line with something on it; the number of empty lines is
added to the one given. Without a limit all blanks in front count as indent, and the widest is told. -/
def scanBlockIndent (limit : Option Nat) :
    (fuel : Nat) → (widest empties : Nat) → YamlCursor → Nat × Nat × YamlCursor
  | 0, widest, empties, cursor => (widest, empties, cursor)
  | fuel + 1, widest, empties, cursor =>
    let spaces := (cursor.rest.takeWhile (· = ' ')).length
    let inside := (limit.map fun limit => min spaces (limit - cursor.column)).getD spaces
    let next := (List.range inside).foldl (fun cursor _ => cursor.pass) cursor
    let widest := max widest next.column
    if isBreak next.head then scanBlockIndent limit fuel widest (empties + 1) next.passBreak
    else (widest, empties, next)

/-- The lines of a block from a line with something on it, given what was read in reverse: the text, the
line end after it, and the number of empty lines after that. -/
def scanBlockLines (literal : Bool) (indent : Nat) :
    (fuel : Nat) → (done : List Char) → (ended inset : Bool) → (empties : Nat) → YamlCursor →
      List Char × Bool × Nat × YamlCursor
  | 0, done, ended, _, empties, cursor => (done, ended, empties, cursor)
  | fuel + 1, done, ended, inset, empties, cursor =>
    if cursor.column ≠ indent ∨ cursor.rest.isEmpty ∨ (indent = 0 ∧ cursor.atDocumentMark) then
      (done, ended, empties, cursor)
    else
      let blank := isGap cursor.head
      let joint :=
        if ¬ literal ∧ ended ∧ ¬ inset ∧ ¬ blank then foldedBreaks empties
        else List.replicate ((if ended then 1 else 0) + empties) '\n'
      let line := cursor.rest.takeWhile fun c => ¬ isBreakOrEnd c
      let done := line.reverse ++ joint ++ done
      let next := cursor.passLine
      if next.rest.isEmpty then (done, false, 0, next)
      else
        let (_, empties, next) := scanBlockIndent (some indent) (next.rest.length + 1) 0 0 next.passBreak
        scanBlockLines literal indent fuel done true blank empties next

/-- A text in a block of lines that stand further in than the outer indent. -/
def scanBlock (literal : Bool) (outer : Int) (cursor : YamlCursor) : Option (String × YamlCursor) := do
  let (chomping, inset, next) ← scanBlockHeader (cursor.take 1)
  let (_, next) ← next.passGaps true
  if ¬ isBreakOrEnd next.head then none
  let opened := isBreak next.head
  let next := if opened then next.passBreak else next
  if next.head = '\t' then none
  let fixed : Option Nat := if inset = 0 then none else some (outer.toNat + inset)
  let (widest, empties, next) := scanBlockIndent fixed (next.rest.length + 1) 0 0 next
  let indent := fixed.getD (max widest (outer + 1).toNat)
  let breaks (count : Nat) : String := String.ofList (List.replicate count '\n')
  if next.rest.isEmpty then
    let count := match chomping with
      | .strip => 0
      | .clip => if opened then 1 else 0
      | .keep => if empties = 0 then (if opened then 1 else 0) else empties
    some (breaks count, next)
  else if next.column < indent ∧ outer < next.column then none
  else
    let (text, ended, empties, next) :=
      scanBlockLines literal indent (next.rest.length + 1) [] false false empties next
    let text := String.ofList text.reverse
    let atEnd := next.rest.isEmpty ∧ max indent 1 ≤ next.column
    let tail := match chomping with
      | .strip => 0
      | .clip => (if ended then 1 else 0) + (if atEnd then 1 else 0)
      | .keep => (if ended then 1 else 0) + (if atEnd then 1 else 0) + empties
    some (text ++ breaks tail, next)

end Yaml

end TaskLeasing

import TaskLeasing.Text.Blank

namespace TaskLeasing

/-- A place in a YAML document. -/
structure YamlCursor where
  rest : List Char
  index : Nat
  line : Nat
  column : Nat
  /-- Whether only blanks stand before the place on its line. -/
  fresh : Bool

namespace Yaml

def isBreak (c : Char) : Bool := c == '\n' || c == '\r'

/-- What a cursor sees at the end of the document. -/
def endMark : Char := '\x00'

def isBreakOrEnd (c : Char) : Bool := isBreak c || c == endMark

/-- Whether a word ends before a character. -/
def isWordEnd (c : Char) : Bool := isGap c || isBreakOrEnd c

/-- The characters that part and enclose what is written in brackets and braces. -/
def isFlowMark (c : Char) : Bool := c == ',' || c == '[' || c == ']' || c == '\x7b' || c == '\x7d'

def isNameChar (c : Char) : Bool := c.isAlphanum || c == '_' || c == '-'

end Yaml

namespace YamlCursor

open Yaml

def start (cs : List Char) : YamlCursor := ⟨cs, 0, 0, 0, true⟩

def head (cursor : YamlCursor) : Char := cursor.rest.headD endMark

def ahead (cursor : YamlCursor) (distance : Nat) : Char := cursor.rest.getD distance endMark

/-- Over one blank. -/
def pass (cursor : YamlCursor) : YamlCursor :=
  { cursor with rest := cursor.rest.drop 1, index := cursor.index + 1, column := cursor.column + 1 }

/-- Over characters that are not blank. -/
def take (count : Nat) (cursor : YamlCursor) : YamlCursor :=
  { cursor with
    rest := cursor.rest.drop count
    index := cursor.index + count
    column := cursor.column + count
    fresh := false }

/-- Over blanks. -/
def passBlanks (cursor : YamlCursor) : YamlCursor :=
  (cursor.rest.takeWhile isGap).foldl (fun cursor _ => cursor.pass) cursor

/-- Over a line end. -/
def passBreak (cursor : YamlCursor) : YamlCursor :=
  let width := if cursor.head = '\r' ∧ cursor.ahead 1 = '\n' then 2 else 1
  ⟨cursor.rest.drop width, cursor.index + width, cursor.line + 1, 0, true⟩

/-- To the end of the line. -/
def passLine (cursor : YamlCursor) : YamlCursor :=
  cursor.take (cursor.rest.takeWhile fun c => ¬ isBreakOrEnd c).length

/-- Whether three marks that start or end a document stand at the start of a line. -/
def atDocumentMark (cursor : YamlCursor) : Bool :=
  let mark := cursor.rest.take 3
  cursor.column = 0 ∧ (mark = "---".toList ∨ mark = "...".toList) ∧ isWordEnd (cursor.ahead 3)

/-- Which blanks were passed. -/
structure Gaps where
  tabs : Bool
  spaces : Bool

/-- Over blanks and a comment, which must have a blank before it. -/
def passGaps (tabsToo : Bool) (cursor : YamlCursor) : Option (Gaps × YamlCursor) :=
  let gaps := cursor.rest.takeWhile fun c => c = ' ' ∨ (c = '\t' ∧ tabsToo)
  let cursor := gaps.foldl (fun cursor _ => cursor.pass) cursor
  let passed : Gaps := ⟨gaps.contains '\t', gaps.contains ' '⟩
  if cursor.head = '#' then
    if gaps.isEmpty then none else some (passed, cursor.passLine)
  else some (passed, cursor)

end YamlCursor

end TaskLeasing

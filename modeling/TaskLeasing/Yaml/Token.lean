import TaskLeasing.Text.Numeral
import TaskLeasing.Yaml.Cursor

namespace TaskLeasing

/-- What a YAML document is made of. Collections in blocks end by indent, those in brackets and braces
by their closing mark. -/
inductive YamlToken
  | version
  | handle (name stem : String)
  | documentStart
  | documentEnd
  | blockSequence
  | blockMapping
  | blockEnd
  | blockEntry
  | flowSequence
  | flowSequenceEnd
  | flowMapping
  | flowMappingEnd
  | flowEntry
  | key
  | value
  | anchor (name : String)
  | reference (name : String)
  | tag (handle suffix : String)
  | scalar (plain : Bool) (text : String)
deriving DecidableEq

namespace Yaml

open YamlCursor

/-! Tags. -/

def isUriChar (c : Char) : Bool := isNameChar c || "#;/?:@&=+$,.!~*'()[]%".toList.contains c

def isTagChar (c : Char) : Bool := isUriChar c && !isFlowMark c && c != '!'

/-- The octet that a percent sign and two hexadecimal digits give. -/
def octet? (cs : List Char) : Option Nat :=
  match cs with
  | '%' :: a :: b :: _ => Numeral.naturalIn? 16 [a, b]
  | _ => none

/-- A character given by octets. Two octets give the character whose number they make as they are, and
more give none. -/
def scanOctets (cursor : YamlCursor) : Option (Char × YamlCursor) := do
  let first ← octet? cursor.rest
  if first < 0x80 then some (Char.ofNat first, cursor.take 3)
  else
    let second ← octet? (cursor.rest.drop 3)
    let n := first * 256 + second
    let paired := 0xC0 ≤ first ∧ first < 0xE0 ∧ 0x80 ≤ second ∧ second < 0xC0
    if paired ∧ n.isValidChar then some (Char.ofNat n, cursor.take 6) else none

/-- Characters of a kind, in reverse, with their octets undone. -/
def scanUri (allowed : Char → Bool) :
    (fuel : Nat) → (done : List Char) → YamlCursor → Option (List Char × YamlCursor)
  | 0, done, cursor => some (done, cursor)
  | fuel + 1, done, cursor =>
    if ¬ allowed cursor.head then some (done, cursor)
    else if cursor.head = '%' then do
      let (c, next) ← scanOctets cursor
      scanUri allowed fuel (c :: done) next
    else scanUri allowed fuel (cursor.head :: done) (cursor.take 1)

/-- The exclamation mark that a tag starts with, and a name up to another one if there is one. -/
def scanHandle (cursor : YamlCursor) : Option (List Char × Bool × YamlCursor) :=
  let name := (cursor.rest.drop 1).takeWhile isNameChar
  let closed := cursor.ahead (name.length + 1) = '!'
  let handle := '!' :: name ++ (if closed then ['!'] else [])
  if cursor.head = '!' then some (handle, closed, cursor.take handle.length) else none

def scanTag (flow : Bool) (cursor : YamlCursor) : Option (YamlToken × YamlCursor) := do
  let fuel := cursor.rest.length
  let (handle, suffix, next) ←
    if cursor.ahead 1 = '<' then do
      let (uri, next) ← scanUri isUriChar fuel [] (cursor.take 2)
      if next.head = '>' then some ([], uri.reverse, next.take 1) else none
    else do
      let (handle, closed, next) ← scanHandle cursor
      let (uri, next) ← scanUri isTagChar fuel [] next
      let suffix := handle.drop 1 ++ uri.reverse
      if closed then if uri.isEmpty then none else some (handle, uri.reverse, next)
      else if suffix.isEmpty then some ([], ['!'], next)
      else some (['!'], suffix, next)
  if isWordEnd next.head ∨ (flow ∧ isFlowMark next.head) then
    some (.tag (String.ofList handle) (String.ofList suffix), next)
  else none

/-! Directives. -/

/-- What handles of tags stand for, after the name of the directive. -/
def scanHandleDirective (cursor : YamlCursor) : Option (YamlToken × YamlCursor) := do
  let (handle, closed, next) ← scanHandle cursor.passBlanks
  if ¬ closed ∧ handle ≠ ['!'] then none
  let next := next.passBlanks
  let (first, rest) ←
    if next.head = '!' then some ('!', next.take 1)
    else if ¬ isTagChar next.head then none
    else if next.head = '%' then scanOctets next
    else some (next.head, next.take 1)
  let (stem, next) ← scanUri isUriChar rest.rest.length [first] rest
  if isWordEnd next.head then
    some (.handle (String.ofList handle) (String.ofList stem.reverse), next)
  else none

/-- Up to nine digits. -/
def scanVersionPart (cursor : YamlCursor) : Option YamlCursor :=
  let count := (cursor.rest.takeWhile Char.isDigit).length
  if count = 0 ∨ 9 < count then none else some (cursor.take count)

def scanVersion (cursor : YamlCursor) : Option (YamlToken × YamlCursor) := do
  let next ← scanVersionPart cursor.passBlanks
  if next.head ≠ '.' then none
  let next ← scanVersionPart (next.take 1)
  some (.version, next)

/-- A line that tells about the document. One with a name that means nothing counts as a handle that no
tag has. -/
def scanDirective (cursor : YamlCursor) : Option (YamlToken × YamlCursor) := do
  let name := (cursor.rest.drop 1).takeWhile isNameChar
  let next := cursor.take (name.length + 1)
  if name.isEmpty ∨ ¬ isWordEnd next.head then none
  let (token, next) ←
    if name = "YAML".toList then scanVersion next
    else if name = "TAG".toList then scanHandleDirective next
    else some (.handle "" "", next.passLine)
  let (_, next) ← next.passGaps true
  if next.rest.isEmpty then some (token, next)
  else if isBreak next.head then some (token, next.passBreak)
  else none

/-- The name of an anchor after its mark. -/
def scanAnchorName (cursor : YamlCursor) : Option (String × YamlCursor) :=
  let name := (cursor.rest.drop 1).takeWhile fun c =>
    !isWordEnd c && !isFlowMark c && c != '\uFEFF'
  if name.isEmpty then none else some (String.ofList name, cursor.take (name.length + 1))

end Yaml

end TaskLeasing

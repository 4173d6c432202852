import TaskLeasing.Yaml.Scalar
import TaskLeasing.Yaml.Token

namespace TaskLeasing

/-- A place where a key may have started, which only what follows it tells. -/
structure YamlKeyPlace where
  /-- Whether nothing but a key can stand there. -/
  required : Bool
  /-- How many tokens stand before it. -/
  tokens : Nat
  cursor : YamlCursor

/-- The tokens of a document up to a place, and what they leave open. -/
structure YamlTokens where
  cursor : YamlCursor
  /-- The latest first. -/
  tokens : List YamlToken
  /-- The column of the innermost block. -/
  indent : Int
  /-- The columns of the blocks around it, and of each whether the block inside it has to be closed. -/
  indents : List (Int × Bool)
  /-- Whether a key may start here. -/
  keyAllowed : Bool
  key : Option YamlKeyPlace
  /-- The keys that may have started around the brackets and braces that are open. -/
  outerKeys : List (Option YamlKeyPlace)
  /-- Whether a value in brackets belongs to a mapping that is already open. -/
  mappingOpen : Bool
  /-- Whether each of the brackets that are open holds a mapping of one entry without braces. -/
  brackets : List Bool
  /-- The index right after a text in quotes or a closed bracket, where a value needs no blank. -/
  adjacent : Nat

namespace YamlTokens

open Yaml YamlCursor

def start (cs : List Char) : YamlTokens :=
  ⟨.start cs, [], -1, [], true, none, [], false, [], 0⟩

def inFlow (found : YamlTokens) : Bool := ¬ found.outerKeys.isEmpty

def push (token : YamlToken) (found : YamlTokens) : YamlTokens :=
  { found with tokens := token :: found.tokens }

/-- Puts a token after so many. -/
def insertAfter (count : Nat) (token : YamlToken) (found : YamlTokens) : YamlTokens :=
  let later := found.tokens.length - count
  { found with tokens := found.tokens.take later ++ token :: found.tokens.drop later }

def take (count : Nat) (found : YamlTokens) : YamlTokens :=
  { found with cursor := found.cursor.take count }

def passGaps (found : YamlTokens) : Option YamlTokens :=
  (found.cursor.passGaps true).map fun (_, cursor) => { found with cursor }

def allowKey (allowed : Bool) (found : YamlTokens) : YamlTokens :=
  { found with keyAllowed := allowed }

/-! Keys. -/

/-- Notes that a key may start here. -/
def noteKey (found : YamlTokens) : YamlTokens :=
  let required := ¬ found.inFlow ∧ found.indent = found.cursor.column ∧
    found.indents.head?.any Prod.snd
  if found.keyAllowed then
    { found with key := some ⟨required, found.tokens.length, found.cursor⟩ }
  else found

/-- Gives up the key that may have started. -/
def dropKey (found : YamlTokens) : Option YamlTokens :=
  if found.key.any YamlKeyPlace.required then none else some { found with key := none }

/-- Outside brackets and braces a key ends on its line and within so many characters. -/
def dropPastKey (found : YamlTokens) : Option YamlTokens :=
  let cursor := found.cursor
  let past := found.key.any fun place =>
    place.cursor.line < cursor.line ∨ place.cursor.index + 1024 < cursor.index
  if ¬ found.inFlow ∧ past then found.dropKey else some found

/-! Indents. -/

/-- Leaves the blocks that stand further in than a column. -/
def leaveFrom (column : Int) : List (Int × Bool) → YamlTokens → YamlTokens
  | [], found => found
  | (outer, closes) :: indents, found =>
    if column < found.indent then
      let found := { found with indent := outer, indents }
      leaveFrom column indents (if closes then found.push .blockEnd else found)
    else found

def leaveBlocks (column : Int) (found : YamlTokens) : YamlTokens :=
  if found.inFlow then found else leaveFrom column found.indents found

def leaveOpenFrom : List (Int × Bool) → YamlTokens → YamlTokens
  | (outer, false) :: indents, found => leaveOpenFrom indents { found with indent := outer, indents }
  | _, found => found

/-- Leaves the indents that no block has come to stand at. -/
def leaveOpen (found : YamlTokens) : YamlTokens := leaveOpenFrom found.indents found

/-- Opens a block at a column unless one is open there; its token comes after so many, or last. -/
def enterBlock (column : Int) (place : Option Nat) (token : YamlToken) (found : YamlTokens) : YamlTokens :=
  if found.inFlow then found
  else
    let found := match found.indents with
      | (outer, false) :: indents =>
        if found.indent ≤ column then { found with indent := outer, indents } else found
      | _ => found
    if found.indent < column then
      let found :=
        { found with indent := column, indents := (found.indent, true) :: found.indents }
      match place with
      | some count => found.insertAfter count token
      | none => found.push token
    else found

/-- What stands in a block stands at least one column further in than it. -/
def indentContent (found : YamlTokens) : YamlTokens :=
  if ¬ found.inFlow ∧ found.indents.head?.any Prod.snd then
    { found with
      indent := found.indent + 1
      indents := (found.indent, false) :: found.indents }
  else found

/-! What stands between tokens. -/

/-- Over blanks, comments and line ends up to the next token. In blocks a tab is no indent. -/
def passFiller : (fuel : Nat) → YamlTokens → Option YamlTokens
  | 0, found => some found
  | fuel + 1, found =>
    let cursor := found.cursor
    let inBlock := ¬ found.indents.isEmpty ∧ cursor.fresh ∧ cursor.column < found.indent
    if cursor.head = '\t' ∧ inBlock then do
      let found ← found.passGaps
      if isBreakOrEnd found.cursor.head then passFiller fuel found else none
    else if isGap cursor.head then passFiller fuel { found with cursor := cursor.pass }
    else if isBreak cursor.head then
      let keyAllowed := found.keyAllowed ∨ ¬ found.inFlow
      passFiller fuel { found with cursor := cursor.passBreak, keyAllowed }
    else if cursor.head = '#' then passFiller fuel { found with cursor := cursor.passLine }
    else some found

def toToken (found : YamlTokens) : Option YamlTokens :=
  found.passFiller (found.cursor.rest.length + 1)

/-! The tokens. -/

def scanDirective (found : YamlTokens) : Option YamlTokens := do
  let found ← (found.leaveBlocks (-1)).dropKey
  let (token, cursor) ← Yaml.scanDirective found.cursor
  some (({ found with cursor }.allowKey false).push token)

def scanDocumentMark (found : YamlTokens) : Option YamlTokens := do
  let closes := found.cursor.head = '.'
  let found ← (found.leaveBlocks (-1)).dropKey
  let found := ((found.allowKey false).take 3).push (if closes then .documentEnd else .documentStart)
  if closes then
    let found ← found.passGaps
    if isBreakOrEnd found.cursor.head then some found else none
  else some found

/-- A mapping of one entry without braces ends with its entry of the list. -/
def closeEntry (found : YamlTokens) : YamlTokens :=
  match found.brackets with
  | true :: outer => { found with mappingOpen := false, brackets := false :: outer }.push .flowMappingEnd
  | _ => found

/-- An opening bracket or brace. They nest up to a limit. -/
def scanFlowStart (found : YamlTokens) : Option YamlTokens := do
  let braces := found.cursor.head = '\x7b'
  let found := (found.noteKey.indentContent.allowKey true).take 1
  if 255 ≤ found.outerKeys.length then none
  let found := { found with key := none, outerKeys := found.key :: found.outerKeys }
  let found ← passGaps (if braces then { found with mappingOpen := true }
    else { found with brackets := false :: found.brackets })
  some (found.push (if braces then .flowMapping else .flowSequence))

def scanFlowEnd (found : YamlTokens) : Option YamlTokens := do
  let braces := found.cursor.head = '\x7d'
  let found ← found.dropKey
  let found := match found.outerKeys with
    | key :: outerKeys => { found with key, outerKeys }
    | [] => found
  let closed := if braces then found else
    { found.closeEntry with brackets := found.brackets.drop 1 }
  let found ← ((closed.allowKey false).take 1).passGaps
  let adjacent := if found.inFlow then found.cursor.index else found.adjacent
  some ({ found with adjacent }.push (if braces then .flowMappingEnd else .flowSequenceEnd))

def scanFlowEntry (found : YamlTokens) : Option YamlTokens := do
  let found ← found.dropKey
  let found ← ((found.allowKey true).closeEntry.take 1).passGaps
  some (found.push .flowEntry)

def scanBlockEntry (found : YamlTokens) : Option YamlTokens := do
  if found.inFlow ∨ ¬ found.keyAllowed then none
  let column := found.cursor.column
  let found := (found.take 1).enterBlock column none .blockSequence
  let (gaps, cursor) ← found.cursor.passGaps true
  if gaps.tabs ∧ cursor.head = '-' ∧ isWordEnd (cursor.ahead 1) then none
  let found := { found with cursor }
  let found := if isBreak cursor.head ∨ isFlowMark cursor.head then found.indentContent else found
  let found ← found.dropKey
  some ((found.allowKey true).push .blockEntry)

/-- Over blanks, line ends and comments, but no tabs, after the mark of a key. -/
def passKeyFiller : (fuel : Nat) → YamlTokens → YamlTokens
  | 0, found => found
  | fuel + 1, found =>
    let cursor := found.cursor
    if cursor.head = ' ' then passKeyFiller fuel { found with cursor := cursor.pass }
    else if isBreak cursor.head then
      let keyAllowed := found.keyAllowed ∨ ¬ found.inFlow
      passKeyFiller fuel { found with cursor := cursor.passBreak, keyAllowed }
    else if cursor.head = '#' then passKeyFiller fuel { found with cursor := cursor.passLine }
    else found

/-- The mark of a key of any kind. -/
def scanKey (found : YamlTokens) : Option YamlTokens := do
  if ¬ found.inFlow ∧ ¬ found.keyAllowed then none
  let found := if found.inFlow then { found with mappingOpen := true }
    else found.enterBlock found.cursor.column none .blockMapping
  let found ← found.dropKey
  let found := (found.allowKey (¬ found.inFlow)).take 1
  let next := found.cursor.head
  if ¬ (next = ' ' ∨ isBreak next) then none
  let found := found.passKeyFiller (found.cursor.rest.length + 1)
  if found.cursor.head = '\t' then none else some (found.push .key)

/-- The mark of a value. If a key may have started before it, it did, and so did the mapping that the
key belongs to unless it is already open. -/
def scanValue (found : YamlTokens) : Option YamlTokens := do
  let mark := found.cursor
  let opens := ¬ found.brackets.isEmpty ∧ ¬ found.mappingOpen
  let found := if opens then { found with brackets := true :: found.brackets.drop 1 } else found
  let cursor := mark.take 1
  let (gaps, cursor) ← if cursor.head = '\t' then cursor.passGaps true else some (⟨false, true⟩, cursor)
  if ¬ gaps.spaces ∧ (cursor.head = '-' ∨ isNameChar cursor.head) then none
  let found := { found with cursor }
  match found.key with
  | some place => do
    if opens ∧ place.cursor.line < mark.line then none
    let found := found.insertAfter place.tokens .key
    let found := if opens then found.insertAfter place.tokens .flowMapping else found
    let found := (found.enterBlock place.cursor.column (some place.tokens) .blockMapping).indentContent
    some (({ found with key := none }.allowKey false).push .value)
  | none =>
    let found := if opens then found.push .flowMapping else found
    if ¬ found.inFlow ∧ ¬ found.keyAllowed then none
    else
      let found := (found.enterBlock mark.column none .blockMapping).indentContent
      some ((found.allowKey (¬ found.inFlow)).push .value)

def scanAnchor (found : YamlTokens) : Option YamlTokens := do
  let refers := found.cursor.head = '*'
  let found := found.noteKey.allowKey false
  let (name, cursor) ← scanAnchorName found.cursor
  some ({ found with cursor }.push (if refers then .reference name else .anchor name))

def scanTag (found : YamlTokens) : Option YamlTokens := do
  let found := found.noteKey.allowKey false
  let (token, cursor) ← Yaml.scanTag found.inFlow found.cursor
  some ({ found with cursor }.push token)

def scanBlock (found : YamlTokens) : Option YamlTokens := do
  let literal := found.cursor.head = '|'
  let found := (found.noteKey.allowKey true).leaveOpen
  let (text, cursor) ← Yaml.scanBlock literal found.indent found.cursor
  some ({ found with cursor }.push (.scalar false text))

def scanQuoted (found : YamlTokens) : Option YamlTokens := do
  let single := found.cursor.head = '\''
  let found := found.noteKey.allowKey false
  let (text, cursor) ← Yaml.scanQuoted found.inFlow single found.indent found.cursor
  let found ← { found with cursor }.toToken
  some ({ found with adjacent := found.cursor.index }.push (.scalar false text))

def scanPlain (found : YamlTokens) : Option YamlTokens := do
  let found := (found.noteKey.allowKey false).leaveOpen
  let indent := found.indent + 1
  if found.inFlow ∧ found.cursor.column < indent then none
  let (text, cursor) ← Yaml.scanPlain found.inFlow indent found.cursor
  some (({ found with cursor }.allowKey cursor.fresh).push (.scalar true text))

/-- The token at the cursor. -/
def scanToken (found : YamlTokens) : Option YamlTokens :=
  let cursor := found.cursor
  let (c, next) := (cursor.head, cursor.ahead 1)
  if cursor.column = 0 ∧ c = '%' then found.scanDirective
  else if cursor.atDocumentMark then found.scanDocumentMark
  else if cursor.column < found.indent then none
  else if c = '[' ∨ c = '\x7b' then found.scanFlowStart
  else if c = ']' ∨ c = '\x7d' then found.scanFlowEnd
  else if c = ',' then found.scanFlowEntry
  else if c = '-' ∧ isWordEnd next then found.scanBlockEntry
  else if c = '?' ∧ isWordEnd next then found.scanKey
  else if c = ':' ∧ (isWordEnd next ∨
      (found.inFlow ∧ (isFlowMark next ∨ cursor.index = found.adjacent))) then found.scanValue
  else if c = '*' ∨ c = '&' then found.scanAnchor
  else if c = '!' then found.scanTag
  else if (c = '|' ∨ c = '>') ∧ ¬ found.inFlow then found.scanBlock
  else if c = '\'' ∨ c = '"' then found.scanQuoted
  else if c = '%' ∨ c = '@' ∨ c = '\x60' then none
  else found.scanPlain

/-- The tokens up to the end of the document, in order. -/
def scanAll : (fuel : Nat) → YamlTokens → Option (List YamlToken)
  | 0, _ => none
  | fuel + 1, found => do
    let found ← (← found.toToken).dropPastKey
    let found := found.leaveBlocks found.cursor.column
    if found.cursor.rest.isEmpty then
      if (found.key :: found.outerKeys).any (·.any YamlKeyPlace.required) then none
      else some (found.leaveBlocks (-1)).tokens.reverse
    else scanAll fuel (← found.scanToken)

end YamlTokens

/-- The tokens of a text, which ends at a null character if it holds one. -/
def Yaml.tokens? (text : String) : Option (List YamlToken) :=
  let cs := text.toList.takeWhile (· ≠ endMark)
  (YamlTokens.start cs).scanAll (cs.length + 1)

end TaskLeasing

import TaskLeasing.Number.Double
import TaskLeasing.Yaml.Tokens

namespace TaskLeasing

/-- A value of a YAML document that has no parts. Numbers that are no integers keep their text. -/
inductive YamlScalar
  | null
  | bool (value : Bool)
  | integer (value : Int)
  | real (text : String)
  | text (value : String)
deriving DecidableEq

/-- A value of a YAML document. A value that is not what its tag says, or that stands in itself, is
unread. -/
inductive Yaml
  | scalar (value : YamlScalar)
  | unread
  | list (items : List Yaml)
  | mapping (entries : List (YamlScalar × Yaml))

instance : Inhabited Yaml := ⟨.unread⟩

/-- Where a value is left out. -/
def Yaml.absent : Yaml := .scalar .null

/-- A key as a name. -/
def YamlScalar.name : YamlScalar → String
  | .null => "null"
  | .bool value => toString value
  | .integer value => String.ofList (Numeral.signed value)
  | .real value | .text value => value

mutual

/-- Whether every number in a value is written as numbers are elsewhere. -/
def Yaml.numeric : Yaml → Bool
  | .scalar (.real text) => (Double.read? text.toList).isSome
  | .scalar _ | .unread => true
  | .list items => Yaml.itemsNumeric items
  | .mapping entries => Yaml.entriesNumeric entries

def Yaml.itemsNumeric : List Yaml → Bool
  | [] => true
  | item :: items => item.numeric && Yaml.itemsNumeric items

def Yaml.entriesNumeric : List (YamlScalar × Yaml) → Bool
  | [] => true
  | (_, value) :: entries => value.numeric && Yaml.entriesNumeric entries

end

namespace Yaml

/-! Scalars. -/

/-- Whether a text is a number or a name of one that is not finite. -/
def isReal (text : String) : Bool :=
  [".inf", ".Inf", ".INF", "+.inf", "+.Inf", "+.INF", "-.inf", "-.Inf", "-.INF", ".nan", "NaN",
    ".NAN"].contains text || (Double.read? text.toList).isSome

/-- The integer that a text with a mark in front stands for. -/
def markedInteger? (text : String) : Option Int :=
  let value := match text.toList with
    | '0' :: 'x' :: ds => Numeral.integerIn? 16 ds
    | '0' :: 'o' :: ds => Numeral.integerIn? 8 ds
    | '+' :: ds => Numeral.integer? ds
    | _ => none
  value.filter fitsInt64

/-- What a plain text stands for. -/
def resolve (text : String) : YamlScalar :=
  match (markedInteger? text).or (Numeral.int64? text.toList) with
  | some value => .integer value
  | none =>
    if text = "~" ∨ text = "null" then .null
    else if text = "true" then .bool true
    else if text = "false" then .bool false
    else if isReal text then .real text
    else .text text

/-- What a plain text with a tag stands for. -/
def resolveTagged (handle suffix text : String) : Yaml :=
  if handle ≠ "tag:yaml.org,2002:" then .scalar (.text text)
  else if suffix = "bool" then
    if text = "true" then .scalar (.bool true)
    else if text = "false" then .scalar (.bool false)
    else .unread
  else if suffix = "int" then
    (Numeral.int64? text.toList).elim .unread fun value => .scalar (.integer value)
  else if suffix = "float" then if isReal text then .scalar (.real text) else .unread
  else if suffix = "null" then if text = "~" ∨ text = "null" then .absent else .unread
  else .scalar (.text text)

/-! Nodes. -/

/-- The tokens that are left, what the handles of tags stand for, and the nodes with names, the latest
first. -/
structure Reading where
  tokens : List YamlToken
  handles : List (String × String)
  anchors : List (String × Yaml)

/-- The name that a node is given before it, and its tag with what its handle stands for. -/
structure Properties where
  anchor : Option String
  tag : Option (String × String)

/-- What the handle of a tag stands for. Only one with a mark at its end has to be declared. -/
def resolveHandle? (handles : List (String × String)) (handle : String) : Option String :=
  match handles.lookup handle with
  | some stem => some stem
  | none =>
    if handle = "!!" then some "tag:yaml.org,2002:"
    else if handle = "" ∨ handle = "!" then some handle
    else none

def readProperties (reading : Reading) : Option (Properties × Reading) := do
  let (anchor, tag, tokens) := match reading.tokens with
    | .anchor name :: .tag handle suffix :: rest => (some name, some (handle, suffix), rest)
    | .tag handle suffix :: .anchor name :: rest => (some name, some (handle, suffix), rest)
    | .anchor name :: rest => (some name, none, rest)
    | .tag handle suffix :: rest => (none, some (handle, suffix), rest)
    | rest => (none, none, rest)
  let reading := { reading with tokens }
  match tag with
  | none => some (⟨anchor, none⟩, reading)
  | some (handle, suffix) => do
    let stem ← resolveHandle? reading.handles handle
    some (⟨anchor, some (stem, suffix)⟩, reading)

/-- A scalar with its tag. Only a plain one stands for anything but its text. -/
def scalarOf (properties : Properties) (plain : Bool) (text : String) : Yaml :=
  if ¬ plain then .scalar (.text text)
  else match properties.tag with
    | some (handle, suffix) => resolveTagged handle suffix text
    | none => .scalar (resolve text)

/-- Nodes by twos as keys and values. An unread key is passed over, so that what follows it counts as
the key. Keys are scalars but not null, and no two are the same. -/
def entries? : (done : List (YamlScalar × Yaml)) → List Yaml → Option (List (YamlScalar × Yaml))
  | done, .unread :: rest => entries? done rest
  | done, [] | done, [_] => some done.reverse
  | done, .scalar key :: value :: rest =>
    if key = .null ∨ done.any fun entry => entry.1 = key then none
    else entries? ((key, value) :: done) rest
  | _, _ => none

/-- A mapping of keys and values that come in turn, the latest first. -/
def mappingOf? (nodes : List Yaml) : Option Yaml := (entries? [] nodes.reverse).map .mapping

/-- Whether the value of a key, or the key, is left out before a token. -/
def endsPart (block : Bool) (token : YamlToken) : Bool :=
  if block then token = .key ∨ token = .value ∨ token = .blockEnd
  else token = .flowEntry ∨ token = .flowMappingEnd ∨ token = .flowSequenceEnd

/-- The tokens of the next part of a collection in brackets or braces: what follows a comma, unless it
is the first or none follows. -/
def nextPart? (first : Bool) (closing : YamlToken) (tokens : List YamlToken) : Option (List YamlToken) :=
  match tokens with
  | token :: rest =>
    if first ∨ token = closing then some tokens
    else if token = .flowEntry then some rest
    else none
  | [] => none

mutual

/-- A node. Blocks may start only in blocks, and lists without an indent of their own only as parts of
mappings. -/
def readNode (fuel : Nat) (block unindented : Bool) (reading : Reading) : Option (Yaml × Reading) :=
  match fuel with
  | 0 => none
  | fuel + 1 => match reading.tokens with
    | .reference name :: tokens =>
      (reading.anchors.lookup name).map fun node => (node, { reading with tokens })
    | _ => do
      let (properties, reading) ← readProperties reading
      match properties.anchor with
      | none => readContent fuel block unindented properties reading
      | some name => do
        let before := reading.anchors.length
        let reading := { reading with anchors := (name, .unread) :: reading.anchors }
        let (node, reading) ← readContent fuel block unindented properties reading
        let place := reading.anchors.length - 1 - before
        some (node, { reading with anchors := reading.anchors.set place (name, node) })

/-- A node after its properties. With properties it may be empty. -/
def readContent (fuel : Nat) (block unindented : Bool) (properties : Properties) (reading : Reading) :
    Option (Yaml × Reading) :=
  let empty : Option (Yaml × Reading) :=
    if properties.anchor.isSome ∨ properties.tag.isSome then some (scalarOf properties true "", reading)
    else none
  match fuel with
  | 0 => none
  | fuel + 1 => match reading.tokens with
    | .scalar plain text :: tokens => some (scalarOf properties plain text, { reading with tokens })
    | .flowSequence :: tokens => readItems fuel true [] { reading with tokens }
    | .flowMapping :: tokens => readFlowFields fuel true [] { reading with tokens }
    | .blockEntry :: _ => if unindented then readEntries fuel false [] reading else empty
    | .blockSequence :: tokens =>
      if block then readEntries fuel true [] { reading with tokens } else empty
    | .blockMapping :: tokens =>
      if block then readBlockFields fuel [] { reading with tokens } else empty
    | _ => empty

/-- A key or a value, which may be left out. -/
def readPart (fuel : Nat) (block : Bool) (reading : Reading) : Option (Yaml × Reading) :=
  match fuel with
  | 0 => none
  | fuel + 1 =>
    if reading.tokens.head?.any (endsPart block) then some (.absent, reading)
    else readNode fuel block block reading

/-- The value of a key, which may be left out together with its mark. -/
def readValue (fuel : Nat) (block : Bool) (reading : Reading) : Option (Yaml × Reading) :=
  match fuel with
  | 0 => none
  | fuel + 1 => match reading.tokens with
    | .value :: tokens => readPart fuel block { reading with tokens }
    | _ => some (.absent, reading)

/-- The entries of a list in a block. A list with an indent of its own ends with it, and any other
where its entries do. -/
def readEntries (fuel : Nat) (indented : Bool) (done : List Yaml) (reading : Reading) :
    Option (Yaml × Reading) :=
  match fuel with
  | 0 => none
  | fuel + 1 => match reading.tokens with
    | .blockEntry :: tokens =>
      let reading := { reading with tokens }
      let empty := match tokens with
        | .blockEntry :: _ | .blockEnd :: _ => true
        | .key :: _ | .value :: _ => ¬ indented
        | _ => false
      if empty then readEntries fuel indented (.absent :: done) reading
      else do
        let (item, reading) ← readNode fuel true false reading
        readEntries fuel indented (item :: done) reading
    | .blockEnd :: tokens =>
      some (.list done.reverse, if indented then { reading with tokens } else reading)
    | _ => if indented then none else some (.list done.reverse, reading)

/-- The fields of a mapping in a block. -/
def readBlockFields (fuel : Nat) (done : List Yaml) (reading : Reading) : Option (Yaml × Reading) :=
  match fuel with
  | 0 => none
  | fuel + 1 => match reading.tokens with
    | .blockEnd :: tokens => (mappingOf? done).map fun node => (node, { reading with tokens })
    | .key :: tokens => do
      let (key, reading) ← readPart fuel true { reading with tokens }
      let (value, reading) ← readValue fuel true reading
      readBlockFields fuel (value :: key :: done) reading
    | .value :: _ => do
      let (value, reading) ← readValue fuel true reading
      readBlockFields fuel (value :: .absent :: done) reading
    | _ => none

/-- The items of a list in brackets. An item may be a mapping of one field with its key marked. -/
def readItems (fuel : Nat) (first : Bool) (done : List Yaml) (reading : Reading) :
    Option (Yaml × Reading) :=
  match fuel with
  | 0 => none
  | fuel + 1 => do
    match ← nextPart? first .flowSequenceEnd reading.tokens with
    | .flowSequenceEnd :: tokens => some (.list done.reverse, { reading with tokens })
    | .key :: tokens => do
      let (key, reading) ← match tokens with
        | .value :: tokens | .flowEntry :: tokens | .flowSequenceEnd :: tokens =>
          some (.absent, { reading with tokens })
        | tokens => readNode fuel false false { reading with tokens }
      let (value, reading) ← readValue fuel false reading
      readItems fuel false ((← mappingOf? [value, key]) :: done) reading
    | tokens => do
      let (item, reading) ← readNode fuel false false { reading with tokens }
      readItems fuel false (item :: done) reading

/-- The fields of a mapping in braces. A key without a mark has no value. -/
def readFlowFields (fuel : Nat) (first : Bool) (done : List Yaml) (reading : Reading) :
    Option (Yaml × Reading) :=
  match fuel with
  | 0 => none
  | fuel + 1 => do
    match ← nextPart? first .flowMappingEnd reading.tokens with
    | .flowMappingEnd :: tokens => (mappingOf? done).map fun node => (node, { reading with tokens })
    | .key :: tokens => do
      let (key, reading) ← match tokens with
        | .value :: _ => some (.absent, { reading with tokens })
        | tokens => readPart fuel false { reading with tokens }
      let (value, reading) ← readValue fuel false reading
      readFlowFields fuel false (value :: key :: done) reading
    | .value :: tokens => do
      let (value, reading) ← readValue fuel false { reading with tokens := .value :: tokens }
      readFlowFields fuel false (value :: .absent :: done) reading
    | tokens => do
      let (key, reading) ← readNode fuel false false { reading with tokens }
      readFlowFields fuel false (.absent :: key :: done) reading

end

/-! Documents. -/

/-- The directives before a document. Its version may be told once, and of handles the last counts. -/
def readDirectives (versioned : Bool) (handles : List (String × String)) :
    List YamlToken → Option Reading
  | .version :: tokens => if versioned then none else readDirectives true [] tokens
  | .handle name stem :: tokens => readDirectives versioned [(name, stem)] tokens
  | tokens => some ⟨tokens, handles, []⟩

/-- The node of a document. One that starts with a mark may be empty. -/
def readDocument (tokens : List YamlToken) : Option (Yaml × List YamlToken) := do
  let fuel := 4 * tokens.length + 8
  let explicit : Bool := match tokens with
    | .version :: _ | .handle _ _ :: _ | .documentStart :: _ => true
    | _ => false
  let reading ← readDirectives false [] tokens
  let (node, reading) ←
    if ¬ explicit then readNode fuel true false reading
    else match reading.tokens with
      | .documentStart :: tokens => match tokens with
        | [] | .version :: _ | .handle _ _ :: _ | .documentStart :: _ | .documentEnd :: _ =>
          some (.absent, { reading with tokens })
        | _ => readNode fuel true false { reading with tokens }
      | _ => none
  some (node, reading.tokens)

end Yaml

/-- Reads the one document of a text. A text without any has an empty mapping. -/
def Yaml.read? (text : String) : Option Yaml := do
  let tokens := (← Yaml.tokens? text).dropWhile (· = .documentEnd)
  if tokens.isEmpty then some (.mapping [])
  else
    let (node, rest) ← Yaml.readDocument tokens
    if rest.all (· = .documentEnd) then some node else none

end TaskLeasing

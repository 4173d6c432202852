import TaskLeasing.Toml.Basic
import TaskLeasing.Yaml.Node

namespace TaskLeasing

/-- A value that a source has for a setting. Lists and tables are no setting's value. -/
inductive SettingValue
  | null
  | bool (value : Bool)
  | integer (value : Int)
  | double (value : Double)
  | text (value : String)
  | composite
deriving DecidableEq

def lowerCase (s : String) : String := String.ofList (s.toList.map Char.toLower)

def truthWord? (s : String) : Option Bool :=
  let word := lowerCase s
  if word = "true" ∨ word = "on" ∨ word = "yes" then some true
  else if word = "false" ∨ word = "off" ∨ word = "no" then some false
  else none

/-- A value as text: numbers in their shortest form. -/
def SettingValue.text? : SettingValue → Option String
  | .bool value => some (toString value)
  | .integer value => some (String.ofList (Numeral.signed value))
  | .double value => some value.display
  | .text value => some value
  | .null | .composite => none

/-- A value as a word: truth values count as one and zero, and fractions are rounded. -/
def SettingValue.word? : SettingValue → Option UInt64
  | .bool value => some (if value then 1 else 0)
  | .integer value => if 0 ≤ value then some (UInt64.ofNat value.toNat) else none
  | .double value => some (UInt64.ofNat value.toWord)
  | .text value => match truthWord? value with
    | some truth => some (if truth then 1 else 0)
    | none => (Numeral.word? value.toList).map UInt64.ofNat
  | .null | .composite => none

/-- A value as a truth value: a number is true unless it is zero. -/
def SettingValue.bool? : SettingValue → Option Bool
  | .bool value => some value
  | .integer value => some (value ≠ 0)
  | .double value => some value.isNonzero
  | .text value =>
    if value = "1" then some true else if value = "0" then some false else truthWord? value
  | .null | .composite => none

/-- The value that a text stands for where texts alone can be given: a truth value, an integer or a
number if it reads as one. -/
def SettingValue.ofText (text : String) : SettingValue :=
  let word := lowerCase text
  if word = "true" then .bool true
  else if word = "false" then .bool false
  else match Numeral.int64? text.toList with
    | some n => .integer n
    | none => match Double.read? text.toList with
      | some d => .double d
      | none => .text text

/-- A value of a JSON document. An object without fields sets nothing. -/
def SettingValue.ofJson? : Json → Option SettingValue
  | .null => some .null
  | .bool value => some (.bool value)
  | .whole value =>
    some (if fitsInt64 value then .integer value else .double (Double.ofDecimal false value.toNat 0))
  | .double value => some (.double value)
  | .text value => some (.text value)
  | .list _ => some .composite
  | .object [] => none
  | .object _ => some .composite

/-- A value of a TOML document. A table without entries sets nothing. -/
def SettingValue.ofToml? : Toml → Option SettingValue
  | .bool value => some (.bool value)
  | .integer value => some (.integer value)
  | .double value => some (.double value)
  | .text value => some (.text value)
  | .closed [] | .table _ [] => none
  | .closed _ | .table _ _ | .list _ | .tables _ => some .composite

/-- A value of a YAML document. A mapping without entries sets nothing. -/
def SettingValue.ofYaml? : Yaml → Option SettingValue
  | .scalar .null | .unread => some .null
  | .scalar (.bool value) => some (.bool value)
  | .scalar (.integer value) => some (.integer value)
  | .scalar (.real value) => (Double.read? value.toList).map .double
  | .scalar (.text value) => some (.text value)
  | .mapping [] => none
  | .mapping _ | .list _ => some .composite

end TaskLeasing

import TaskLeasing.Json.Basic

namespace TaskLeasing

/-- How a table of a TOML document came to be: a header opened it, it was passed on the way to another
table, or dotted keys named it. -/
inductive TableOrigin
  | opened
  | passed
  | dotted
deriving DecidableEq

/-- A value of a TOML document. Dates and times are texts in their normal form. Tables can grow until
the document ends, and so can the latest of an array of tables, which comes first here; a table that is
written as a value is closed. -/
inductive Toml
  | bool (value : Bool)
  | integer (value : Int)
  | double (value : Double)
  | text (value : String)
  | list (items : List Toml)
  | closed (fields : List (String × Toml))
  | table (origin : TableOrigin) (fields : List (String × Toml))
  | tables (elements : List (List (String × Toml)))

abbrev TomlFields : Type := List (String × Toml)

/-- Changes the table at a path. Tables that are missing on the way come to be. Dotted keys lead through
no table that a header opened. -/
def TomlFields.changeAt (missing : TableOrigin) (change : TableOrigin → TomlFields → Option TomlFields) :
    List String → TableOrigin → TomlFields → Option TomlFields
  | [], origin, fields => change origin fields
  | key :: path, _, fields =>
    let put (value : Toml) : TomlFields := insertField key value fields
    match lookupField key fields with
    | none => (changeAt missing change path missing []).map fun inner => put (.table missing inner)
    | some (.table origin inner) =>
      if missing = .dotted ∧ origin = .opened then none
      else (changeAt missing change path origin inner).map fun inner => put (.table origin inner)
    | some (.tables (latest :: before)) =>
      (changeAt missing change path .opened latest).map fun latest => put (.tables (latest :: before))
    | some _ => none

/-- Sets what a dotted key names. No key is set twice, and keys go into no table that has come to be
in another way. -/
def TomlFields.set? (path : List String) (key : String) (value : Toml) (fields : TomlFields) :
    Option TomlFields :=
  let change (origin : TableOrigin) (inner : TomlFields) : Option TomlFields :=
    if (path ≠ [] ∧ origin ≠ .dotted) ∨ (lookupField key inner).isSome then none
    else some (insertField key value inner)
  fields.changeAt .dotted change path .opened

/-- Opens a table, which must not have been opened or named by dotted keys before. -/
def TomlFields.openTable? (path : List String) (key : String) (fields : TomlFields) :
    Option TomlFields :=
  let change (_ : TableOrigin) (inner : TomlFields) : Option TomlFields :=
    match lookupField key inner with
    | none => some (insertField key (.table .opened []) inner)
    | some (.table .passed known) => some (insertField key (.table .opened known) inner)
    | some _ => none
  fields.changeAt .passed change path .opened

/-- Opens one more table of an array of tables. -/
def TomlFields.openElement? (path : List String) (key : String) (fields : TomlFields) :
    Option TomlFields :=
  let change (_ : TableOrigin) (inner : TomlFields) : Option TomlFields :=
    match lookupField key inner with
    | none => some (insertField key (.tables [[]]) inner)
    | some (.tables elements) => some (insertField key (.tables ([] :: elements)) inner)
    | some _ => none
  fields.changeAt .passed change path .opened

end TaskLeasing

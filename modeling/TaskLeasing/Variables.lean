import TaskLeasing.Json.Printer

namespace TaskLeasing

/-- The variables of a process instance or of a task: names in order, each with its value. -/
structure Variables where
  entries : List (String × Json)
  ordered : FieldsOrdered entries

theorem Variables.ext_entries {a b : Variables} (same : a.entries = b.entries) : a = b := by
  cases a; cases b; simp_all

def Variables.empty : Variables := ⟨[], List.Pairwise.nil⟩

instance : Inhabited Variables := ⟨.empty⟩

def Variables.ofFields (fields : List (String × Json)) : Variables :=
  ⟨orderFields fields, orderFields_ordered fields⟩

def Variables.get? (vars : Variables) (name : String) : Option Json := lookupField name vars.entries

def Variables.insert (vars : Variables) (name : String) (value : Json) : Variables :=
  ⟨insertField name value vars.entries, insertField_ordered vars.ordered⟩

def Variables.isEmpty (vars : Variables) : Bool := vars.entries.isEmpty

/-- Lays variables over others of the same names. -/
def Variables.extend (vars others : Variables) : Variables :=
  others.entries.foldl (fun done field => done.insert field.1 field.2) vars

@[simp] theorem Variables.get?_empty (name : String) : Variables.empty.get? name = none := rfl

theorem Variables.get?_insert (vars : Variables) (name other : String) (value : Json) :
    (vars.insert name value).get? other = if name = other then some value else vars.get? other :=
  lookupField_insertField

/-- Which variables of its instance a task is leased with. -/
inductive VariableScope
  | all
  | none
  | names (names : List String)
deriving DecidableEq

instance : Inhabited VariableScope := ⟨.all⟩

/-- The variables within a scope; names without a variable are passed over. -/
def VariableScope.select (scope : VariableScope) (vars : Variables) : Variables :=
  match scope with
  | .all => vars
  | .none => .empty
  | .names listed =>
    listed.foldl (fun chosen name => (vars.get? name).elim chosen (chosen.insert name)) .empty

/-- Variables as an incident's details show them. -/
def Variables.inspect (vars : Variables) : String := "\x7b" ++ inspectFields vars.entries ++ "\x7d"

end TaskLeasing

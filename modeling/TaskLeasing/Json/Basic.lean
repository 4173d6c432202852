import TaskLeasing.Number.Double

namespace TaskLeasing

/-- Puts a field into an ordered list of fields, in place of one of the same name. -/
def insertField {α : Type} (name : String) (value : α) : List (String × α) → List (String × α)
  | [] => [(name, value)]
  | (n, v) :: rest =>
    if name < n then (name, value) :: (n, v) :: rest
    else if name = n then (name, value) :: rest
    else (n, v) :: insertField name value rest

/-- Fields in the order of their names; of several of one name the last stays. -/
def orderFields {α : Type} (fields : List (String × α)) : List (String × α) :=
  fields.foldl (fun done field => insertField field.1 field.2 done) []

def lookupField {α : Type} (name : String) : List (String × α) → Option α
  | [] => none
  | (n, v) :: rest => if n = name then some v else lookupField name rest

abbrev FieldsOrdered {α : Type} (fields : List (String × α)) : Prop :=
  fields.Pairwise fun a b => a.1 < b.1

theorem mem_insertField {α : Type} {name : String} {value : α} {fields : List (String × α)}
    {field : String × α} (inside : field ∈ insertField name value fields) :
    field = (name, value) ∨ field ∈ fields := by
  induction fields with
  | nil => simpa [insertField] using inside
  | cons head rest ih =>
    simp only [insertField] at inside
    split at inside
    · simpa using inside
    · split at inside <;> simp only [List.mem_cons] at inside ⊢
      · rcases inside with same | inside <;> simp [*]
      · rcases inside with same | inside
        · exact Or.inr (Or.inl same)
        · rcases ih inside with same | inside <;> simp [*]

theorem insertField_ordered {α : Type} {name : String} {value : α} {fields : List (String × α)}
    (ordered : FieldsOrdered fields) : FieldsOrdered (insertField name value fields) := by
  induction fields with
  | nil => exact List.pairwise_singleton _ _
  | cons head rest ih =>
    obtain ⟨above, tail⟩ := List.pairwise_cons.mp ordered
    simp only [insertField]
    split
    · next before =>
      exact List.pairwise_cons.mpr ⟨fun field inside => by
        rcases List.mem_cons.mp inside with rfl | inside
        · exact before
        · exact String.lt_trans before (above field inside), ordered⟩
    · next notBefore =>
      split
      · next same => exact List.pairwise_cons.mpr ⟨fun field inside => same ▸ above field inside, tail⟩
      · next other =>
        refine List.pairwise_cons.mpr ⟨fun field inside => ?_, ih tail⟩
        rcases mem_insertField inside with rfl | inside
        · exact Std.lt_of_le_of_ne (Std.not_lt.mp notBefore) fun same => other same.symm
        · exact above field inside

theorem lookupField_insertField {α : Type} {name other : String} {value : α}
    {fields : List (String × α)} :
    lookupField other (insertField name value fields) =
      if name = other then some value else lookupField other fields := by
  induction fields with
  | nil => rfl
  | cons head rest ih =>
    simp only [insertField]
    split
    · rfl
    · split
      · next same =>
        simp only [lookupField, ← same]
        split <;> rfl
      · next differs =>
        simp only [lookupField, ih]
        by_cases here : head.1 = other
        · have apart : name ≠ other := fun same => differs (same.trans here.symm)
          simp [here, apart]
        · simp [here]

theorem orderFields_ordered {α : Type} (fields : List (String × α)) :
    FieldsOrdered (orderFields fields) := by
  have general : ∀ (fields done : List (String × α)), FieldsOrdered done →
      FieldsOrdered (fields.foldl (fun done field => insertField field.1 field.2 done) done) := by
    intro fields
    induction fields with
    | nil => exact fun _ ordered => ordered
    | cons _ _ ih => exact fun _ ordered => ih _ (insertField_ordered ordered)
  exact general fields [] List.Pairwise.nil

/-- A JSON value. Whole numbers are exact; one with a fraction or an exponent, or too large for 64
bits, is a double. -/
inductive Json
  | null
  | bool (value : Bool)
  | whole (value : Int)
  | double (value : Double)
  | text (value : String)
  | list (items : List Json)
  | object (fields : List (String × Json))

instance : Inhabited Json := ⟨.null⟩

/-- An object of the given fields; of several of one name the last stays. -/
def Json.ofFields (fields : List (String × Json)) : Json := .object (orderFields fields)

def Json.field? (name : String) : Json → Option Json
  | .object fields => lookupField name fields
  | _ => none

def Json.text? : Json → Option String
  | .text value => some value
  | _ => none

def Json.bool? : Json → Option Bool
  | .bool value => some value
  | _ => none

def Json.list? : Json → Option (List Json)
  | .list items => some items
  | _ => none

/-- A whole number of the range of 64-bit words. -/
def Json.word64? : Json → Option UInt64
  | .whole value => if fitsWord64 value then some (UInt64.ofNat value.toNat) else none
  | _ => none

/-- A whole number of the range of 32-bit words. -/
def Json.word32? : Json → Option UInt32
  | .whole value => if fitsWord32 value then some (UInt32.ofNat value.toNat) else none
  | _ => none

def Json.isNull : Json → Bool
  | .null => true
  | _ => false

def Json.ofText? (value : Option String) : Json := (value.map Json.text).getD .null

def Json.ofWord64 (value : UInt64) : Json := .whole value.toNat

def Json.ofWord32 (value : UInt32) : Json := .whole value.toNat

end TaskLeasing

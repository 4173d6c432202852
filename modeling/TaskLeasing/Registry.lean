import TaskLeasing.Registration

namespace TaskLeasing

/-- The registrations of a dispatcher in the order of their keys. -/
structure Registry where
  entries : List Registration

def Registry.empty : Registry := ⟨[]⟩

def Registry.lookup (registry : Registry) (key : RegistrationKey) : Option Registration :=
  registry.entries.find? fun entry => entry.key = key

def Registry.contains (registry : Registry) (key : RegistrationKey) : Bool :=
  (registry.lookup key).isSome

/-- Puts a registration before the first one of a greater key. -/
def insertRegistration (entry : Registration) : List Registration → List Registration
  | [] => [entry]
  | head :: rest =>
    if entry.key.before head.key then entry :: head :: rest else head :: insertRegistration entry rest

/-- Adds a registration under a key that is valid and not taken yet. -/
def Registry.register (registry : Registry) (definitionKey topic : String) (lockTimeout : Option Span)
    (vars : VariableScope) (contract : Contract) :
    Except RegistrationError (Registration × Registry) :=
  match RegistrationKey.ofParts definitionKey topic with
  | .error fault => .error fault
  | .ok key =>
    if registry.contains key then .error (.alreadyRegistered key.text)
    else
      let entry : Registration := ⟨key, lockTimeout, vars, contract⟩
      .ok (entry, ⟨insertRegistration entry registry.entries⟩)

def Registry.size (registry : Registry) : Nat := registry.entries.length

/-- How many registrations have an asynchronous contract. -/
def Registry.asyncCount (registry : Registry) : Nat :=
  registry.entries.countP fun entry => entry.contract.isAsync

def Registry.syncCount (registry : Registry) : Nat :=
  registry.entries.countP fun entry => !entry.contract.isAsync

end TaskLeasing

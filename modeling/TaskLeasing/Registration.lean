import TaskLeasing.Text.Blank
import TaskLeasing.Text.Quoted
import TaskLeasing.Time.Timestamp
import TaskLeasing.Variables

namespace TaskLeasing

/-- The tasks a registration serves: those of one topic in instances of one definition. -/
structure RegistrationKey where
  definitionKey : String
  topic : String
deriving DecidableEq

/-- What a registration or the lookup of one is refused for. -/
inductive RegistrationError
  | invalidKey (reason : String)
  | alreadyRegistered (key : String)
deriving DecidableEq

def RegistrationError.message : RegistrationError → String
  | .invalidKey reason => "Invalid registration key: " ++ reason
  | .alreadyRegistered key => "Already registered: " ++ key

/-- The character between the parts of a key and of a watchdog payload. -/
def keySeparator : Char := '#'

/-- The key as one text, its parts on either side of the separator. -/
def RegistrationKey.text (key : RegistrationKey) : String :=
  key.definitionKey ++ String.singleton keySeparator ++ key.topic

/-- Why a text cannot be a part of a key, if it cannot. -/
def RegistrationKey.partFault? (field part : String) : Option String :=
  if isBlankText part then some (field ++ " must not be empty")
  else if part.toList.contains keySeparator then
    some (field ++ " '" ++ part ++ "' must not contain '" ++ String.singleton keySeparator ++ "'")
  else none

/-- A key of two parts, neither of them blank nor holding the separator; the definition key is
looked at first. -/
def RegistrationKey.ofParts (definitionKey topic : String) : Except RegistrationError RegistrationKey :=
  match RegistrationKey.partFault? "process definition key" definitionKey with
  | some reason => .error (.invalidKey reason)
  | none => match RegistrationKey.partFault? "topic" topic with
    | some reason => .error (.invalidKey reason)
    | none => .ok ⟨definitionKey, topic⟩

/-- Keys go by their definition key, those of one definition by their topic. -/
def RegistrationKey.before (a b : RegistrationKey) : Prop :=
  a.definitionKey < b.definitionKey ∨ a.definitionKey = b.definitionKey ∧ a.topic < b.topic

instance (a b : RegistrationKey) : Decidable (a.before b) :=
  inferInstanceAs (Decidable (_ ∨ _ ∧ _))

/-- How the tasks of a registration are processed: by one call that returns their variables, or by
a request whose response arrives later, within a time if one is set. -/
inductive Contract
  | sync
  | async (responseTimeout : Option Span) (timeoutMessage : Option String)
deriving DecidableEq

def Contract.isAsync : Contract → Bool
  | .sync => false
  | .async .. => true

def Contract.kind (contract : Contract) : String := if contract.isAsync then "async" else "sync"

/-- An optional part of a contract as its description shows it. -/
def describeOption (value : Option String) : String :=
  match value with
  | none => "None"
  | some shown => "Some(" ++ shown ++ ")"

def Contract.describe : Contract → String
  | .sync => "Sync"
  | .async timeout message =>
    "Async \x7b response_timeout: " ++ describeOption (timeout.map Span.display) ++
      ", response_timeout_message: " ++ describeOption (message.map quoted) ++ " \x7d"

/-- A contract for a key, with the terms its tasks are leased on. -/
structure Registration where
  key : RegistrationKey
  lockTimeout : Option Span
  vars : VariableScope
  contract : Contract
deriving DecidableEq

/-- How long the registration's tasks are locked: its own timeout, or else the worker's. -/
def Registration.effectiveLock (registration : Registration) (workerDefault : Span) : Span :=
  registration.lockTimeout.getD workerDefault

end TaskLeasing

import TaskLeasing.Text.Quoted
import TaskLeasing.Time.Span
import TaskLeasing.Variables

namespace TaskLeasing

/-- An error and what caused it, the nearest cause first. -/
structure ErrorChain where
  error : String
  causes : List String
deriving DecidableEq

/-- A text whose further lines start with a margin. -/
def indentLines (margin : List Char) (text : String) : String :=
  String.ofList (text.toList.flatMap fun c => if c = '\n' then '\n' :: margin else [c])

/-- A numbered cause: its place right-aligned in five columns, further lines below its text. -/
def numberedCause (place : Nat) (cause : String) : String :=
  let ds := Numeral.digits place
  String.ofList (List.replicate (5 - ds.length) ' ' ++ ds) ++ ": " ++
    indentLines (List.replicate 7 ' ') cause

/-- A chain with every message: the error, then its causes below it, indented if there is one and
numbered from zero if there are more. -/
def ErrorChain.layout (chain : ErrorChain) : String :=
  match chain.causes with
  | [] => chain.error
  | [cause] =>
    chain.error ++ "\n\nCaused by:\n    " ++ indentLines (List.replicate 4 ' ') cause
  | causes =>
    chain.error ++ "\n\nCaused by:" ++
      String.join (causes.zipIdx.map fun (cause, place) => "\n" ++ numberedCause place cause)

/-- An outcome that the process models as an error of its own, with variables for the instance and
an answer for the sender of a response. -/
structure BusinessError where
  code : String
  message : String
  vars : Option Variables
  result : Option Json

/-- A failure that may be gone at another attempt: how many attempts it is worth and the waits
between them. -/
structure RetryableFailure where
  message : String
  maxAttempts : UInt32
  delays : List Span
  cause : Option ErrorChain
deriving DecidableEq

/-- What a processor can end with instead of a result. -/
inductive ProcessorError
  | business (error : BusinessError)
  | retryable (failure : RetryableFailure)
  | failure (chain : ErrorChain)

def ProcessorError.plain (message : String) : ProcessorError := .failure ⟨message, []⟩

/-- The text an error is shown with. -/
def ProcessorError.display : ProcessorError → String
  | .business error => "Business error '" ++ error.code ++ "': " ++ error.message
  | .retryable fault => fault.message
  | .failure chain => chain.error

/-- The message that a failure is reported with. -/
def ProcessorError.message : ProcessorError → String
  | .business error => error.message
  | .retryable fault => fault.message
  | .failure chain => chain.error

def BusinessError.inspect (error : BusinessError) : String :=
  let optional (shown : Option String) : String := shown.elim "None" fun text => "Some(" ++ text ++ ")"
  "BusinessError \x7b code: " ++ quoted error.code ++ ", message: " ++ quoted error.message ++
    ", variables: " ++ optional (error.vars.map Variables.inspect) ++
    ", result: " ++ optional (error.result.map Json.inspect) ++ " \x7d"

/-- The separator between the messages of an error and of its cause. -/
def causedBy : String := "\n\nCaused by: "

/-- The details that an incident keeps of a failure: all that is known of its causes. -/
def ProcessorError.incidentDetails : ProcessorError → String
  | .business error => error.inspect
  | .retryable fault => match fault.cause with
    | some cause => fault.message ++ causedBy ++ cause.layout
    | none => fault.message
  | .failure chain => chain.layout

/-- The messages of an error and of what it came from, the error's own first. The cause of a
retryable failure is reported with its details and is no part of them. -/
def ProcessorError.messages : ProcessorError → List String
  | .business error => [(ProcessorError.business error).display]
  | .retryable fault => [fault.message]
  | .failure chain => chain.error :: chain.causes

/-- The incident details of an error of the library, given its message and those of what it came from: each
source is told of after what it led to. -/
def incidentDetails : List String → String
  | [] => ""
  | message :: sources => sources.foldl (fun details source => details ++ causedBy ++ source) message

end TaskLeasing

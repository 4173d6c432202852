import TaskLeasing.System.State

namespace TaskLeasing

/-- The first private character that a text does not have. Names that start with it are told from all
names in the text. -/
def unusedMark (text : String) : Char :=
  let used := text.toList
  let candidates := (List.range 6400).map fun place => Char.ofNat (0xE000 + place)
  (candidates.find? fun mark => ¬ used.contains mark).getD (Char.ofNat 0xF8FF)

def shownName (stem : String) (number : Nat) : String := stem ++ "-" ++ toString number

/-- A name issued in a simulation. It starts with a mark that names from outside do not have, so that
no name is known before it has been issued. -/
def issuedName (mark : Char) (stem : String) (number : Nat) : String :=
  String.singleton mark ++ shownName stem number

def simulatedNames (mark : Char) : Naming where
  instanceId := issuedName mark "pi"
  execution := issuedName mark "exec"
  task := issuedName mark "task"
  job := issuedName mark "job"
  incident := issuedName mark "incident"

/-- A text as it is shown, with the marks of the names in it left out. -/
def shownText (mark : Char) (text : String) : String := String.ofList (text.toList.filter (· ≠ mark))

/-- The name that a shown name stands for: the issued one if something of that number has been
created, or else the name itself. -/
def Engine.nameFor (e : Engine) (mark : Char) (shown : String) : String :=
  let known (stem : String) (count : Nat) : Bool :=
    let front := stem ++ "-"
    match Numeral.natural? (shown.toList.drop front.length) with
    | some number => shown = shownName stem number ∧ 1 ≤ number ∧ number ≤ count
    | none => false
  if known "task" e.sequence ∨ known "pi" e.instances.length ∨ known "exec" e.instances.length ∨
      known "job" e.jobs.length then
    String.singleton mark ++ shown
  else shown

end TaskLeasing

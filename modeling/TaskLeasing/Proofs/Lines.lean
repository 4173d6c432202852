import TaskLeasing.Failure
import Mathlib.Data.List.Forall2

namespace TaskLeasing

/-- The lines of a text, one more than it has line breaks. -/
def linesOf (text : String) : List (List Char) := text.toList.splitOn '\n'

/-- A text shows lines if lines of its own end with them, one after the other. -/
def Shows (text : String) (lines : List (List Char)) : Prop :=
  List.SublistForall₂ (fun line own => line <:+ own) lines (linesOf text)

/-- The messages of a chain, each before what caused it. -/
def ErrorChain.messages (chain : ErrorChain) : List String := chain.error :: chain.causes

/-- All messages that a failure comes with, each before what caused it. -/
def ProcessorError.account : ProcessorError → List String
  | .business error => [error.message]
  | .retryable fault => fault.message :: fault.cause.elim [] ErrorChain.messages
  | .failure chain => chain.messages

theorem SublistForall₂.append {α β : Type} {R : α → β → Prop} {a b : List α} {c d : List β}
    (first : List.SublistForall₂ R a c) (second : List.SublistForall₂ R b d) :
    List.SublistForall₂ R (a ++ b) (c ++ d) := by
  obtain ⟨within, related, sublist⟩ := List.sublistForall₂_iff.mp first
  obtain ⟨within', related', sublist'⟩ := List.sublistForall₂_iff.mp second
  exact List.sublistForall₂_iff.mpr ⟨within ++ within', List.rel_append related related', sublist.append sublist'⟩

/-- A text below another one has its lines below the other's. -/
theorem linesOf_below (text below : String) : linesOf (text ++ "\n" ++ below) = linesOf text ++ linesOf below := by
  rw [linesOf, String.toList_append, String.toList_append, List.append_assoc]
  exact List.splitOn_append_cons_self text.toList below.toList

/-- What stands before a text stands before its first line, and the margin before each further line. -/
theorem splitOn_indented {margin : List Char} (narrow : '\n' ∉ margin) {front : List Char} (free : '\n' ∉ front)
    (text : List Char) : ∃ first further, text.splitOn '\n' = first :: further ∧
      (front ++ text.flatMap fun c => if c = '\n' then '\n' :: margin else [c]).splitOn '\n' =
        (front ++ first) :: further.map (margin ++ ·) := by
  induction text generalizing front with
  | nil => exact ⟨[], [], rfl, by simpa using List.splitOn_eq_singleton free⟩
  | cons c rest ih =>
    by_cases newline : c = '\n'
    · subst newline
      obtain ⟨first, further, lines, indented⟩ := ih narrow
      refine ⟨[], first :: further, ?_, ?_⟩
      · rw [← lines, List.splitOn_cons_eq_if_modifyHead, if_pos (beq_self_eq_true _)]
      · rw [List.flatMap_cons, if_pos rfl, List.cons_append, List.splitOn_append_cons_self_of_not_mem free, indented,
          List.append_nil, List.map_cons]
    · have free' : '\n' ∉ front ++ [c] := by simpa [free] using Ne.symm newline
      obtain ⟨first, further, lines, indented⟩ := ih free'
      refine ⟨c :: first, further, ?_, ?_⟩
      · rw [List.splitOn_cons_eq_if_modifyHead, if_neg (by simpa using newline), lines, List.modifyHead_cons]
      · rw [List.flatMap_cons, if_neg newline, ← List.append_assoc, indented, List.append_assoc, List.singleton_append]

namespace Shows

variable {text lower : String} {lines others : List (List Char)}

theorem self (text : String) : Shows text (linesOf text) :=
  List.sublistForall₂_iff.mpr ⟨linesOf text, List.forall₂_same.mpr fun _ _ => List.suffix_rfl, .refl _⟩

theorem below (first : Shows text lines) (second : Shows lower others) :
    Shows (text ++ "\n" ++ lower) (lines ++ others) := by
  unfold Shows
  rw [linesOf_below]
  exact SublistForall₂.append first second

/-- Lines that are indented are shown behind their margins. -/
theorem indented (margin front : List Char) (narrow : '\n' ∉ margin) (free : '\n' ∉ front) (text : String) :
    Shows (String.ofList front ++ indentLines margin text) (linesOf text) := by
  obtain ⟨first, further, lines, split⟩ := splitOn_indented narrow free text.toList
  rw [Shows, linesOf, linesOf, indentLines, String.toList_append, String.toList_ofList, String.toList_ofList, lines, split]
  refine .cons (List.suffix_append ..) ?_
  rw [List.sublistForall₂_map_right_iff]
  exact List.sublistForall₂_iff.mpr ⟨further, List.forall₂_same.mpr fun _ _ => List.suffix_append .., .refl _⟩

/-- A text goes on showing lines when something is put before it. -/
theorem behind {front : List Char} (free : '\n' ∉ front) (shows : Shows text lines) :
    Shows (String.ofList front ++ text) lines := by
  obtain ⟨first, further, own, split⟩ := splitOn_indented List.not_mem_nil free text.toList
  have plain : (text.toList.flatMap fun c => if c = '\n' then ['\n'] else [c]) = text.toList := by
    have each : (fun c : Char => if c = '\n' then ['\n'] else [c]) = List.singleton := by
      funext c
      split
      · next newline => exact newline ▸ rfl
      · rfl
    rw [each]
    exact List.flatMap_singleton' _
  rw [plain, List.map_congr_left fun _ _ => List.nil_append _, List.map_id'] at split
  rw [Shows, linesOf, own] at shows
  rw [Shows, linesOf, String.toList_append, String.toList_ofList, split]
  cases shows with
  | nil => exact .nil
  | cons suffix rest => exact .cons (suffix.trans (List.suffix_append ..)) rest
  | cons_right rest => exact .cons_right rest

/-- What stands below a text is shown below it, also at a distance of some lines. -/
theorem beneath (first : Shows text lines) (front : List Char) (free : '\n' ∉ front) (second : Shows lower others) :
    Shows (text ++ "\n\n" ++ String.ofList front ++ lower) (lines ++ others) := by
  have blank : Shows "" [] := .nil
  have apart := (first.below blank).below (second.behind free)
  rw [List.append_nil] at apart
  have same : text ++ "\n\n" ++ String.ofList front ++ lower =
      text ++ "\n" ++ "" ++ "\n" ++ (String.ofList front ++ lower) := by
    simp [← String.toList_inj]
  exact same ▸ apart

end Shows

/-- The number of a cause stands on its first line, and its further lines are indented. -/
theorem shows_numberedCause (place : Nat) (cause : String) : Shows (numberedCause place cause) (linesOf cause) := by
  have free : '\n' ∉ List.replicate (5 - (Numeral.digits place).length) ' ' ++ Numeral.digits place ++ [':', ' '] := by
    have digits : '\n' ∉ Numeral.digits place := fun inside =>
      absurd (Nat.isDigit_of_mem_toDigits (by decide) (by decide) inside) (by decide)
    simp [digits]
  have shown := Shows.indented (List.replicate 7 ' ') _ (by decide) free cause
  rw [String.ofList_append] at shown
  exact shown

/-- Causes that are listed one below the other are all shown. -/
theorem Shows.causes {text : String} {lines : List (List Char)} (shows : Shows text lines) (causes : List (String × Nat)) :
    Shows (text ++ String.join (causes.map fun (cause, place) => "\n" ++ numberedCause place cause))
      (lines ++ causes.flatMap fun cause => linesOf cause.1) := by
  induction causes generalizing text lines with
  | nil => simpa [String.join] using shows
  | cons cause rest ih =>
    have further := ih (shows.below (shows_numberedCause cause.2 cause.1))
    rw [List.map_cons, String.join_cons, List.flatMap_cons, ← String.append_assoc, ← String.append_assoc,
      ← List.append_assoc]
    exact further

/-- The layout of a chain shows every line of every message in it, each message before its cause. -/
theorem ErrorChain.shows_layout (chain : ErrorChain) : Shows chain.layout (chain.messages.flatMap linesOf) := by
  obtain ⟨error, causes⟩ := chain
  have heading : Shows (error ++ "\n\nCaused by:") (linesOf error) := by
    have apart := (Shows.self error).beneath "Caused by:".toList (by decide) (.nil : Shows "" [])
    rw [List.append_nil, String.ofList_toList, String.append_empty, String.append_assoc] at apart
    exact apart
  rw [ErrorChain.messages, List.flatMap_cons]
  match causes with
  | [] =>
    rw [List.flatMap_nil, List.append_nil]
    exact .self error
  | [cause] =>
    have shown := heading.below (.indented (List.replicate 4 ' ') "    ".toList (by decide) (by decide) cause)
    have same : (ErrorChain.mk error [cause]).layout = error ++ "\n\nCaused by:" ++ "\n" ++
        (String.ofList "    ".toList ++ indentLines (List.replicate 4 ' ') cause) := by
      simp [ErrorChain.layout, ← String.toList_inj]
    rw [same, List.flatMap_singleton]
    exact shown
  | first :: second :: rest =>
    have shown := heading.causes (first :: second :: rest).zipIdx
    rw [← List.flatMap_map Prod.fst linesOf, List.zipIdx_map_fst] at shown
    exact shown

/-- The details of a failure show every line of every message that it comes with, each message before its cause. -/
theorem ProcessorError.shows_details {error : ProcessorError} (reported : ∀ business, error ≠ .business business) :
    Shows error.incidentDetails (error.account.flatMap linesOf) := by
  cases error with
  | business error => exact absurd rfl (reported error)
  | failure chain => exact chain.shows_layout
  | retryable fault =>
    obtain ⟨message, maxAttempts, delays, cause⟩ := fault
    cases cause with
    | none => simpa [account, incidentDetails] using Shows.self message
    | some cause =>
      have shown := (Shows.self message).beneath "Caused by: ".toList (by decide) cause.shows_layout
      have same : message ++ causedBy ++ cause.layout =
          message ++ "\n\n" ++ String.ofList "Caused by: ".toList ++ cause.layout := by
        simp [causedBy, ← String.toList_inj]
      change Shows (message ++ causedBy ++ cause.layout) _
      rw [same]
      exact shown

/-- The incident details of an error of the library are its messages, one after the other between separators. -/
theorem incidentDetails_eq (messages : List String) : incidentDetails messages = causedBy.intercalate messages := by
  cases messages with
  | nil => rfl
  | cons message sources =>
    change sources.foldl (fun details source => details ++ causedBy ++ source) message = _
    induction sources generalizing message with
    | nil => simp
    | cons source rest ih =>
      rw [List.foldl_cons, ih]
      cases rest <;> simp [String.append_assoc]

end TaskLeasing

import TaskLeasing.Text.Numeral
import Mathlib.Data.List.Induction

namespace TaskLeasing

/-- What may stand before the digits of an integer. -/
inductive NumeralSign
  | none
  | plus
  | minus
deriving DecidableEq

def NumeralSign.text : NumeralSign → List Char
  | .none => []
  | .plus => ['+']
  | .minus => ['-']

/-- A way to write an integer: at most one sign, and one ASCII digit or more. -/
structure IntegerLiteral where
  sign : NumeralSign
  digits : List Char
  some_digit : digits ≠ []
  decimal : ∀ c ∈ digits, c.isDigit = true

namespace IntegerLiteral

def text (literal : IntegerLiteral) : List Char := literal.sign.text ++ literal.digits

/-- What the digits count, the sign apart. -/
def magnitude (literal : IntegerLiteral) : Nat := Nat.ofDigitChars 10 literal.digits 0

def value (literal : IntegerLiteral) : Int :=
  match literal.sign with
  | .minus => -(literal.magnitude : Int)
  | _ => literal.magnitude

end IntegerLiteral

namespace Numeral

theorem isDigit_toNat {c : Char} (digit : c.isDigit = true) : 48 ≤ c.toNat ∧ c.toNat ≤ 57 := by
  simpa [Char.isDigit, UInt32.le_iff_toNat_le] using digit

theorem natural?_eq_some_iff {cs : List Char} {n : Nat} :
    natural? cs = some n ↔ (cs ≠ [] ∧ ∀ c ∈ cs, c.isDigit = true) ∧ Nat.ofDigitChars 10 cs 0 = n := by
  unfold natural?
  rw [Option.ite_none_right_eq_some, Option.some.injEq, List.all_eq_true]

/-- Integers are read from their literals, and from nothing else. -/
theorem integer?_eq_some_iff {cs : List Char} {n : Int} :
    integer? cs = some n ↔ ∃ literal : IntegerLiteral, literal.text = cs ∧ literal.value = n := by
  constructor
  · intro read
    unfold integer? at read
    split at read
    all_goals
      obtain ⟨m, digits, rfl⟩ := Option.map_eq_some_iff.mp read
      obtain ⟨⟨some', decimal⟩, rfl⟩ := natural?_eq_some_iff.mp digits
    · exact ⟨⟨.minus, _, some', decimal⟩, rfl, rfl⟩
    · exact ⟨⟨.plus, _, some', decimal⟩, rfl, rfl⟩
    · exact ⟨⟨.none, _, some', decimal⟩, rfl, rfl⟩
  · rintro ⟨⟨sign, digits, some', decimal⟩, rfl, rfl⟩
    have read : natural? digits = some (Nat.ofDigitChars 10 digits 0) :=
      natural?_eq_some_iff.mpr ⟨⟨some', decimal⟩, rfl⟩
    cases sign with
    | minus => simp [IntegerLiteral.text, NumeralSign.text, integer?, read, IntegerLiteral.value, IntegerLiteral.magnitude]
    | plus => simp [IntegerLiteral.text, NumeralSign.text, integer?, read, IntegerLiteral.value, IntegerLiteral.magnitude]
    | none =>
      change integer? digits = some (Nat.ofDigitChars 10 digits 0 : Int)
      unfold integer?
      split
      · exact absurd (decimal '-' (List.mem_cons_self ..)) (by decide)
      · exact absurd (decimal '+' (List.mem_cons_self ..)) (by decide)
      · rw [read]
        rfl

theorem int64?_eq_some_iff {cs : List Char} {n : Int} :
    int64? cs = some n ↔ integer? cs = some n ∧ -9223372036854775808 ≤ n ∧ n ≤ 9223372036854775807 := by
  have range : n < 9223372036854775808 ↔ n ≤ 9223372036854775807 := by omega
  rw [int64?, Option.filter_eq_some_iff, fitsInt64, decide_eq_true_iff, range]

end Numeral

end TaskLeasing

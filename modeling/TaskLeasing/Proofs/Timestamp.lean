import Mathlib.Data.List.TakeWhile
import TaskLeasing.Proofs.Calendar
import TaskLeasing.Proofs.Numeral
import TaskLeasing.Time.Timestamp

namespace TaskLeasing

/-- Digits of a certain width that are read as a number. -/
structure Numeral.Figures (ds : List Char) (width n : Nat) : Prop where
  length : ds.length = width
  decimal : ∀ c ∈ ds, c.isDigit = true
  value : Nat.ofDigitChars 10 ds 0 = n

namespace Numeral

theorem ofDigitChars_zeros (count : Nat) (init : Nat) :
    Nat.ofDigitChars 10 (List.replicate count '0') init = init * 10 ^ count := by
  induction count generalizing init with
  | zero => simp
  | succ count ih =>
    rw [List.replicate_succ, Nat.ofDigitChars_cons, ih, Nat.sub_self, Nat.add_zero, Nat.pow_succ, Nat.mul_comm 10,
      Nat.mul_assoc, Nat.mul_comm 10]

/-- A number is padded to figures of the width if it has no more digits than that. -/
theorem figures_padded {width n : Nat} (positive : 0 < width) (fits : n < 10 ^ width) :
    Figures (padded width n).toList width n := by
  have short : (digits n).length ≤ width := (Nat.length_toDigits_le_iff (by decide) positive).mpr fits
  refine ⟨?_, fun c inside => ?_, ?_⟩
  · simp [padded, short]
  · rw [padded, String.toList_ofList, List.mem_append, List.mem_replicate] at inside
    rcases inside with ⟨_, rfl⟩ | inside
    · decide
    · exact Nat.isDigit_of_mem_toDigits (by decide) (by decide) inside
  · rw [padded, String.toList_ofList, Nat.ofDigitChars_append, ofDigitChars_zeros, Nat.zero_mul]
    exact Nat.ofDigitChars_toDigits (by decide) (by decide)

/-- Zeros behind figures count as many tens. -/
theorem Figures.scale {ds : List Char} {width n : Nat} (figures : Figures ds width n) (count : Nat) :
    Figures (ds ++ List.replicate count '0') (width + count) (n * 10 ^ count) := by
  refine ⟨by simp [figures.length], fun c inside => ?_, ?_⟩
  · rcases List.mem_append.mp inside with own | zero
    · exact figures.decimal c own
    · rw [(List.mem_replicate.mp zero).2]
      decide
  · rw [Nat.ofDigitChars_append, figures.value, ofDigitChars_zeros]

namespace Figures

variable {ds : List Char} {width n : Nat}

theorem cons (figures : Figures ds width n) (positive : 0 < width) : ∃ c cs, ds = c :: cs ∧ c.isDigit = true := by
  cases ds with
  | nil =>
    have length := figures.length
    rw [List.length_nil] at length
    omega
  | cons c cs => exact ⟨c, cs, rfl, figures.decimal c List.mem_cons_self⟩

theorem natural? (figures : Figures ds width n) (positive : 0 < width) : Numeral.natural? ds = some n := by
  obtain ⟨c, cs, rfl, _⟩ := figures.cons positive
  exact natural?_eq_some_iff.mpr ⟨⟨List.cons_ne_nil c cs, figures.decimal⟩, figures.value⟩

end Figures

end Numeral

theorem isBlank_of_isDigit {c : Char} (digit : c.isDigit = true) : isBlank c = false := by
  obtain ⟨low, high⟩ := Numeral.isDigit_toNat digit
  simp only [isBlank, Bool.or_eq_false_iff, Bool.and_eq_false_iff, decide_eq_false_iff_not, beq_eq_false_iff_ne]
  omega

theorem dropBlanks_of_mark {c : Char} (mark : isBlank c = false) (rest : List Char) : dropBlanks (c :: rest) = c :: rest :=
  List.dropWhile_cons_of_neg (by simp [mark])

theorem Date.Valid.bounds {d : Date} (valid : d.Valid) : d.month ≤ 12 ∧ d.day ≤ 31 := by
  obtain ⟨_, _, length, found, last⟩ := valid
  obtain ⟨place, own⟩ := List.getElem?_eq_some_iff.mp found
  have longest : ∀ length ∈ monthLengths (isLeapYear d.year), length ≤ 31 := by
    cases isLeapYear d.year <;> decide
  have size : (monthLengths (isLeapYear d.year)).length = 12 := rfl
  have short := longest length (own ▸ List.getElem_mem place)
  omega

namespace Timestamp

/-- Figures are read as their number, whatever stands behind them. -/
theorem scanNumber_padded {width n : Nat} (positive : 0 < width) (fits : n < 10 ^ width) (rest : List Char) :
    scanNumber width ((Numeral.padded width n).toList ++ rest) = some (n, rest) := by
  have figures := Numeral.figures_padded positive fits
  have front : dropBlanks ((Numeral.padded width n).toList ++ rest) = (Numeral.padded width n).toList ++ rest := by
    obtain ⟨c, cs, shape, digit⟩ := figures.cons positive
    rw [shape]
    exact dropBlanks_of_mark (isBlank_of_isDigit digit) _
  simp only [scanNumber]
  rw [front, List.take_left' figures.length, List.takeWhile_eq_self_iff.mpr figures.decimal, figures.natural? positive,
    List.drop_left, Option.map_some]

theorem scanMark_self {mark : Char} (free : isBlank mark = false) (rest : List Char) :
    scanMark mark (mark :: rest) = some rest := by
  rw [scanMark, dropBlanks_of_mark free]
  exact if_pos rfl

theorem scanYear_year {year : Int} (nonneg : 0 ≤ year) (le : year ≤ 9999) (rest : List Char) :
    scanYear ((Timestamp.year year).toList ++ rest) = some (year, rest) := by
  have fits : year.natAbs < 10 ^ 4 := by omega
  have read := scanNumber_padded (by decide) fits rest
  rw [Timestamp.year, if_pos ⟨nonneg, le⟩]
  obtain ⟨c, cs, shape, digit⟩ := (Numeral.figures_padded (by decide) fits).cons (by decide)
  rw [shape, List.cons_append] at read ⊢
  rw [scanYear, dropBlanks_of_mark (isBlank_of_isDigit digit)]
  split
  · next sign =>
    obtain rfl := (List.cons.inj sign).1
    exact absurd digit (by decide)
  · next sign =>
    obtain rfl := (List.cons.inj sign).1
    exact absurd digit (by decide)
  · rw [read, Option.map_some]
    exact congrArg (fun year => some (year, rest)) (Int.natAbs_of_nonneg nonneg)

theorem scanFraction_padded {width n : Nat} (positive : 0 < width) (le : width ≤ 9) (fits : n < 10 ^ width)
    {c : Char} (mark : c.isDigit = false) (rest : List Char) :
    scanFraction ('.' :: ((Numeral.padded width n).toList ++ c :: rest)) = some (n * 10 ^ (9 - width), c :: rest) := by
  have figures := Numeral.figures_padded positive fits
  have own : ((Numeral.padded width n).toList ++ c :: rest).takeWhile Char.isDigit = (Numeral.padded width n).toList := by
    rw [List.takeWhile_append_of_pos figures.decimal, List.takeWhile_cons_of_neg (by simp [mark]), List.append_nil]
  have nine : ((Numeral.padded width n).toList ++ List.replicate 9 '0').take 9 =
      (Numeral.padded width n).toList ++ List.replicate (9 - width) '0' := by
    rw [List.take_append, List.take_of_length_le (by rw [figures.length]; exact le), figures.length, List.take_replicate,
      Nat.min_eq_left (by omega)]
  have some' : (Numeral.padded width n).toList.isEmpty = false := by
    obtain ⟨c, cs, shape, _⟩ := figures.cons positive
    rw [shape]
    rfl
  simp only [scanFraction, own]
  rw [nine, (figures.scale (9 - width)).natural? (by omega), Option.bind_some, some', List.drop_left]
  rfl

/-- The fraction of a second is read as it was, however many digits it takes. -/
theorem scanFraction_fraction {nanos : Nat} (fits : nanos < 1000000000) (rest : List Char) :
    scanFraction ((fraction nanos).toList ++ 'Z' :: rest) = some (nanos, 'Z' :: rest) := by
  have padded {width n : Nat} (positive : 0 < width) (le : width ≤ 9) (fits : n < 10 ^ width)
      (same : n * 10 ^ (9 - width) = nanos) :
      scanFraction (("." ++ Numeral.padded width n).toList ++ 'Z' :: rest) = some (nanos, 'Z' :: rest) := by
    rw [← same, ← scanFraction_padded positive le fits rfl rest, String.toList_append]
    rfl
  unfold fraction
  split
  · next zero =>
    rw [zero]
    rfl
  · split
    · exact padded (by decide) (by decide) (by omega) (by omega)
    · split
      · exact padded (by decide) (by decide) (by omega) (by omega)
      · exact padded (by decide) (by decide) (by omega) (by omega)

end Timestamp

theorem bind_of_eq {α β : Type} {value : Option α} {own : α} (known : value = some own) (next : α → Option β) :
    value >>= next = next own := by
  rw [known, Option.bind_eq_bind, Option.bind_some]

/-- What is written for an instant is read as that instant. -/
theorem Instant.ofStamp?_stamp {t : Instant} (dated : t.Dated) : Instant.ofStamp? t.stamp = some t := by
  obtain ⟨valid, seconds, _⟩ := dated.time_spec
  obtain ⟨hours, minutes, _, nanos⟩ := valid
  have date : t.civil.1.Valid := (Date.ofDayNumber_spec _).1
  obtain ⟨months, days⟩ := date.bounds
  have written : t.stamp.toList = (Timestamp.year t.civil.1.year).toList ++ '-' ::
      ((Numeral.padded 2 t.civil.1.month).toList ++ '-' :: ((Numeral.padded 2 t.civil.1.day).toList ++ 'T' ::
      ((Numeral.padded 2 t.civil.2.hour).toList ++ ':' :: ((Numeral.padded 2 t.civil.2.minute).toList ++ ':' ::
      ((Numeral.padded 2 t.civil.2.second).toList ++ ((Timestamp.fraction t.civil.2.nanos).toList ++ ['Z'])))))) := by
    simp [Instant.stamp, Timestamp.date, Timestamp.time]
  have two {n : Nat} (fits : n < 10 ^ 2) := Timestamp.scanNumber_padded (by decide) fits
  have dash := Timestamp.scanMark_self (show isBlank '-' = false by decide)
  have colon := Timestamp.scanMark_self (show isBlank ':' = false by decide)
  have zone : Timestamp.scanOffset (dropBlanks ['Z']) = some (0, []) := by decide
  rw [Instant.ofStamp?, written]
  refine (bind_of_eq (Timestamp.scanYear_year dated.year_nonneg dated.year_le _) _).trans ?_
  refine (bind_of_eq (dash _) _).trans ?_
  refine (bind_of_eq (two (by omega) _) _).trans ?_
  refine (bind_of_eq (dash _) _).trans ?_
  refine (bind_of_eq (two (by omega) _) _).trans ?_
  refine (bind_of_eq rfl _).trans ?_
  refine (bind_of_eq (two (by omega) _) _).trans ?_
  refine (bind_of_eq (colon _) _).trans ?_
  refine (bind_of_eq (two (by omega) _) _).trans ?_
  refine (bind_of_eq (colon _) _).trans ?_
  refine (bind_of_eq (two (by omega) _) _).trans ?_
  refine (bind_of_eq (Timestamp.scanFraction_fraction nanos _) _).trans ?_
  refine (bind_of_eq zone _).trans ?_
  exact (if_pos rfl).trans dated.ofCivil?_civil

end TaskLeasing

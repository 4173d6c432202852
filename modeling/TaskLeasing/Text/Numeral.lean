namespace TaskLeasing

/-- The decimal digits of a natural number, without leading zeros. -/
def Numeral.digits (n : Nat) : List Char := Nat.toDigits 10 n

/-- Decimal digits, with zeros in front up to a width. -/
def Numeral.padded (width n : Nat) : String :=
  let ds := Numeral.digits n
  String.ofList (List.replicate (width - ds.length) '0' ++ ds)

/-- Four hexadecimal digits. -/
def Numeral.hex4 (n : Nat) : List Char :=
  let ds := Nat.toDigits 16 n
  List.replicate (4 - ds.length) '0' ++ ds

/-- A decimal integer: a minus sign before a negative one, nothing before any other. -/
def Numeral.signed (n : Int) : List Char :=
  if n < 0 then '-' :: Numeral.digits n.natAbs else Numeral.digits n.natAbs

/-- A natural number: one ASCII digit or more and nothing else. -/
def Numeral.natural? (cs : List Char) : Option Nat :=
  if cs ≠ [] ∧ cs.all Char.isDigit then some (Nat.ofDigitChars 10 cs 0) else none

/-- An integer: at most one sign, then digits. -/
def Numeral.integer? : List Char → Option Int
  | '-' :: cs => (Numeral.natural? cs).map fun n : Nat => -(n : Int)
  | '+' :: cs => (Numeral.natural? cs).map Int.ofNat
  | cs => (Numeral.natural? cs).map Int.ofNat

/-- Whether an integer has 64 bits or fewer, one of them for the sign. -/
def fitsInt64 (n : Int) : Bool := -9223372036854775808 ≤ n ∧ n < 9223372036854775808

/-- Whether an integer is one of the range of 64-bit words. -/
def fitsWord64 (n : Int) : Bool := 0 ≤ n ∧ n < 18446744073709551616

/-- Whether an integer is one of the range of 32-bit words. -/
def fitsWord32 (n : Int) : Bool := 0 ≤ n ∧ n < 4294967296

/-- An integer of 64 bits, one of them for the sign. -/
def Numeral.int64? (cs : List Char) : Option Int := (Numeral.integer? cs).filter fitsInt64

/-- The value of a hexadecimal digit in either case. -/
def hexDigit? (c : Char) : Option Nat :=
  if c.isDigit then some (c.toNat - '0'.toNat)
  else if 'a' ≤ c ∧ c ≤ 'f' then some (c.toNat - 'a'.toNat + 10)
  else if 'A' ≤ c ∧ c ≤ 'F' then some (c.toNat - 'A'.toNat + 10)
  else none

/-- A natural number in a base up to sixteen: one digit or more and nothing else. -/
def Numeral.naturalIn? (base : Nat) (cs : List Char) : Option Nat := do
  let ds ← cs.mapM hexDigit?
  if ds.isEmpty ∨ ds.any (base ≤ ·) then none else some (ds.foldl (fun n d => n * base + d) 0)

/-- An integer in a base up to sixteen: at most one sign, then digits. -/
def Numeral.integerIn? (base : Nat) : List Char → Option Int
  | '-' :: cs => (Numeral.naturalIn? base cs).map fun n : Nat => -(n : Int)
  | '+' :: cs => (Numeral.naturalIn? base cs).map Int.ofNat
  | cs => (Numeral.naturalIn? base cs).map Int.ofNat

/-- The character whose number so many hexadecimal digits at the front give, and what follows them. -/
def Numeral.character? (width : Nat) (cs : List Char) : Option (Char × List Char) := do
  let n ← Numeral.naturalIn? 16 (cs.take width)
  if width ≤ cs.length ∧ n.isValidChar then some (Char.ofNat n, cs.drop width) else none

/-- A natural number of 64 bits; a plus sign may stand before it. -/
def Numeral.word? (cs : List Char) : Option Nat :=
  let ds := match cs with
    | '+' :: ds => ds
    | ds => ds
  (Numeral.natural? ds).filter fun n => fitsWord64 n

theorem Numeral.natural?_digits (n : Nat) : Numeral.natural? (Numeral.digits n) = some n := by
  have all : (Nat.toDigits 10 n).all Char.isDigit = true :=
    List.all_eq_true.mpr fun c inside => Nat.isDigit_of_mem_toDigits (by decide) (by decide) inside
  simp [Numeral.natural?, Numeral.digits, all, Nat.toDigits_ne_nil]

theorem Numeral.digits_head_isDigit {n : Nat} {c : Char} {cs : List Char}
    (written : Numeral.digits n = c :: cs) : c.isDigit = true :=
  Nat.isDigit_of_mem_toDigits (b := 10) (n := n) (by decide) (by decide)
    (by rw [← Numeral.digits, written]; exact List.mem_cons_self ..)

/-- What is written for an integer reads back as it. -/
theorem Numeral.integer?_signed (n : Int) : Numeral.integer? (Numeral.signed n) = some n := by
  by_cases negative : n < 0
  · simp only [Numeral.signed, if_pos negative, Numeral.integer?, Numeral.natural?_digits,
      Option.map_some, Option.some.injEq]
    omega
  · have back := Numeral.natural?_digits n.natAbs
    simp only [Numeral.signed, if_neg negative]
    cases shape : Numeral.digits n.natAbs with
    | nil => rw [shape] at back; simp [Numeral.natural?] at back
    | cons c cs =>
      have digit := Numeral.digits_head_isDigit shape
      rw [shape] at back
      unfold Numeral.integer?
      split
      · simp_all
      · simp_all
      · simp only [back, Option.map_some]
        exact congrArg some (show ((n.natAbs : Nat) : Int) = n by omega)

end TaskLeasing

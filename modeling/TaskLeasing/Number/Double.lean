import TaskLeasing.Text.Numeral

namespace TaskLeasing

/-- A binary number of double precision: a mantissa below 2⁵³ times a power of two from 2⁻¹⁰⁷⁴ to
2⁹⁷¹, or one of the values beyond them. -/
inductive Double
  | notNumber
  | infinite (negative : Bool)
  | finite (negative : Bool) (mantissa : Nat) (exponent : Int)
deriving DecidableEq

/-- A quotient rounded to the nearest whole number, a half to the even one. -/
def roundRatio (num den : Nat) : Nat :=
  let whole := num / den
  let rest := num % den
  if den < 2 * rest ∨ (2 * rest = den ∧ whole % 2 = 1) then whole + 1 else whole

/-- `num / den` with both multiplied to undo a power of a base: the ratio over `base ^ power`. -/
def scaleRatio (base : Nat) (power : Int) (num den : Nat) : Nat × Nat :=
  if power < 0 then (num * Nat.pow base power.natAbs, den) else (num, den * Nat.pow base power.natAbs)

/-- The greatest power of a base that is at most a ratio, given a power that is off by one at most. -/
def settlePower (base : Nat) (guess : Int) (num den : Nat) : Int :=
  let reaches (power : Int) : Bool :=
    let (n, d) := scaleRatio base power num den
    d ≤ n
  if reaches (guess + 1) then guess + 1 else if reaches guess then guess else guess - 1

/-- The double nearest to a ratio. -/
def Double.ofRatio (negative : Bool) (num den : Nat) : Double :=
  if num = 0 then .finite negative 0 (-1074)
  else
    let top := settlePower 2 ((Nat.log2 num : Int) - Nat.log2 den) num den
    let exponent := max (-1074) (top - 52)
    let (n, d) := scaleRatio 2 exponent num den
    let mantissa := roundRatio n d
    let (mantissa, exponent) :=
      if mantissa = Nat.pow 2 53 then (Nat.pow 2 52, exponent + 1) else (mantissa, exponent)
    if 971 < exponent then .infinite negative else .finite negative mantissa exponent

/-- The double nearest to `mantissa * 10 ^ power`. -/
def Double.ofDecimal (negative : Bool) (mantissa : Nat) (power : Int) : Double :=
  let size := (Numeral.digits mantissa).length + power
  if mantissa = 0 ∨ size < -400 then .finite negative 0 (-1074)
  else if 400 < size then .infinite negative
  else
    let (num, den) := scaleRatio 10 (-power) mantissa 1
    Double.ofRatio negative num den

/-- Reads a decimal: digits with at most one point among, before or after them, and perhaps an
exponent; or the name of a value that is not finite. -/
def Double.read? (cs : List Char) : Option Double :=
  let (negative, cs) := match cs with
    | '-' :: rest => (true, rest)
    | '+' :: rest => (false, rest)
    | rest => (false, rest)
  let name := String.ofList (cs.map Char.toLower)
  if name = "nan" then some .notNumber
  else if name = "inf" ∨ name = "infinity" then some (.infinite negative)
  else
    let whole := cs.takeWhile Char.isDigit
    let cs := cs.drop whole.length
    let (fraction, cs) := match cs with
      | '.' :: rest => (rest.takeWhile Char.isDigit, rest.dropWhile Char.isDigit)
      | rest => ([], rest)
    let power : Option Int := match cs with
      | [] => some 0
      | e :: rest => if e = 'e' ∨ e = 'E' then Numeral.integer? rest else none
    (Numeral.natural? (whole ++ fraction)).bind fun mantissa =>
      power.map fun power => Double.ofDecimal negative mantissa (power - fraction.length)

/-- The product of two finite doubles, rounded. -/
def Double.product : Double → Double → Double
  | .finite sign m e, .finite sign' m' e' =>
    let (num, den) := scaleRatio 2 (-(e + e')) (m * m') 1
    Double.ofRatio (sign != sign') num den
  | _, _ => .notNumber

/-- The quotient of two finite doubles, rounded. -/
def Double.quotient : Double → Double → Double
  | .finite sign m e, .finite sign' m' e' =>
    let (num, den) := scaleRatio 2 (e' - e) m m'
    Double.ofRatio (sign != sign') num den
  | _, _ => .notNumber

/-- Every value but the two zeros counts as true. -/
def Double.isNonzero : Double → Bool
  | .finite _ mantissa _ => mantissa ≠ 0
  | _ => true

/-- A finite double times a power of ten, in steps of at most 308 places with rounding after each.
Downwards three steps leave nothing of any number of 64 bits. -/
def Double.shift (steps : Nat) (d : Double) (power : Int) : Double :=
  let ten (places : Nat) : Double := Double.ofDecimal false 1 places
  match steps with
  | 0 => d
  | steps + 1 =>
    if power < -308 then (d.quotient (ten 308)).shift steps (power + 308)
    else if power < 0 then d.quotient (ten power.natAbs)
    else if power ≤ 308 then d.product (ten power.natAbs)
    else if d.isNonzero then .infinite false
    else d

/-- As many digits as 64 bits hold, read on from a number, and how many they are. -/
def leadingDigits (number : Nat) : List Char → Nat × Nat
  | [] => (number, 0)
  | d :: ds =>
    let next := number * 10 + (d.toNat - '0'.toNat)
    if fitsWord64 next then
      let (number, count) := leadingDigits next ds
      (number, count + 1)
    else (number, 0)

/-- The double for the digits before and after a point and a power of ten, by arithmetic on doubles:
digits beyond 64 bits are dropped, and the result is off by a few last places at most. A number that is
too large has none. -/
def Double.ofDigits? (negative : Bool) (whole fraction : List Char) (power : Int) : Option Double :=
  let (number, taken) := leadingDigits 0 whole
  let (number, more) := leadingDigits number fraction
  let start := Double.ofRatio negative number 1
  match start.shift 3 (power + (whole.length - taken : Nat) - more) with
  | .finite negative mantissa exponent => some (.finite negative mantissa exponent)
  | _ => none

/-- The fewest decimal digits that read back as `mantissa * 2 ^ exponent`, as a number and the power
of ten it is multiplied by. Of two candidates of one length the nearer wins, and the greater of two
equally near ones. -/
def Double.shortest (mantissa : Nat) (exponent : Int) : Nat × Int :=
  let (num, den) := scaleRatio 2 (-exponent) mantissa 1
  let narrow := mantissa = Nat.pow 2 52 ∧ -1074 < exponent
  -- The reals that round to the value, in quarters of the last binary place.
  let below := if narrow then 4 * mantissa - 1 else 4 * mantissa - 2
  let above := 4 * mantissa + 2
  let closed := mantissa % 2 = 0
  let top := settlePower 10 (((Numeral.digits num).length : Int) - (Numeral.digits den).length) num den
  let readsBack (digits : Nat) (power : Int) : Bool :=
    let (n, d) := scaleRatio 10 (-power) digits 1
    let (n, d) := scaleRatio 2 (exponent - 2) n d
    (below * d < n ∨ (closed ∧ below * d = n)) ∧ (n < above * d ∨ (closed ∧ n = above * d))
  let rec search (fuel length : Nat) : Nat × Int :=
    let power := top - length + 1
    let (n, d) := scaleRatio 10 power num den
    let low := n / d
    let lowHits := readsBack low power
    let highHits := readsBack (low + 1) power
    match fuel with
    | 0 => (low, power)
    | fuel + 1 =>
      if lowHits ∧ (¬ highHits ∨ 2 * (n % d) < d) then (low, power)
      else if highHits then (low + 1, power)
      else search fuel (length + 1)
  search 17 1

/-- A number without an exponent, in the fewest digits that read back, zeros filling the places up to
the point. -/
def Double.display : Double → String
  | .notNumber => "NaN"
  | .infinite negative => if negative then "-inf" else "inf"
  | .finite negative mantissa exponent =>
    let sign := if negative then "-" else ""
    if mantissa = 0 then sign ++ "0"
    else
      let (digits, power) := Double.shortest mantissa exponent
      let ds := Numeral.digits digits
      if 0 ≤ power then sign ++ String.ofList (ds ++ List.replicate power.natAbs '0')
      else
        let places := power.natAbs
        let ds := List.replicate (places + 1 - ds.length) '0' ++ ds
        let whole := ds.take (ds.length - places)
        let fraction := ((ds.drop (ds.length - places)).reverse.dropWhile (· = '0')).reverse
        sign ++ String.ofList (if fraction.isEmpty then whole else whole ++ '.' :: fraction)

/-- The nearest word, a half away from zero; a value outside the range of words becomes the end of
the range on its side. -/
def Double.toWord : Double → Nat
  | .notNumber => 0
  | .infinite negative => if negative then 0 else UInt64.size - 1
  | .finite negative mantissa exponent =>
    if negative then 0
    else if 0 ≤ exponent then min (mantissa * Nat.pow 2 exponent.natAbs) (UInt64.size - 1)
    else
      let unit := Nat.pow 2 exponent.natAbs
      min ((mantissa + unit / 2) / unit) (UInt64.size - 1)

/-- A number for documents, in the fewest digits that read back: with a point if its size is from 10⁻⁵
to below 10¹⁶, and with an exponent otherwise. -/
def Double.compact : Double → String
  | .notNumber => "NaN"
  | .infinite negative => if negative then "-inf" else "inf"
  | .finite negative mantissa exponent =>
    let sign := if negative then "-" else ""
    if mantissa = 0 then sign ++ "0.0"
    else
      let (digits, power) := Double.shortest mantissa exponent
      let all := Numeral.digits digits
      let point : Int := all.length + power
      let ds := (all.reverse.dropWhile (· = '0')).reverse
      let places := point.natAbs
      let text (front back : List Char) : String := sign ++ String.ofList (front ++ '.' :: back)
      if point ≤ -5 ∨ 16 < point then
        let (front, back) := (ds.take 1, ds.drop 1)
        (if back.isEmpty then sign ++ String.ofList front else text front back) ++ "e" ++
          String.ofList (Numeral.signed (point - 1))
      else if point ≤ 0 then text ['0'] (List.replicate places '0' ++ ds)
      else if ds.length ≤ places then text (ds ++ List.replicate (places - ds.length) '0') ['0']
      else text (ds.take places) (ds.drop places)

end TaskLeasing

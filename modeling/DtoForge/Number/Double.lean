/-! # Double-precision numbers — decimal texts in and out, exactly

A finite number is a sign, a mantissa and a binary exponent, so every step is exact integer
arithmetic. Reading rounds to the nearest double, a half to the even mantissa. Writing takes the
fewest decimal digits that read back, and of those the nearest to the number. -/

namespace DtoForge.Number

/-- A double-precision number; a finite one is `mantissa * 2 ^ exponent`. -/
inductive Double where
  | finite (negative : Bool) (mantissa : Nat) (exponent : Int)
  | infinite (negative : Bool)
  | nan
  deriving DecidableEq, Repr

namespace Double

/-! ## Fractions -/

/-- A quotient rounded to the nearest integer, a half to the even neighbour. -/
def roundHalfEven (num den : Nat) : Nat :=
  let q := num / den
  let twice := 2 * (num % den)
  if twice < den then q
  else if den < twice then q + 1
  else if q % 2 = 0 then q else q + 1

/-- The fraction `mantissa * base ^ exponent` as numerator and denominator. -/
def scaled (mantissa base : Nat) (exponent : Int) : Nat × Nat :=
  if 0 ≤ exponent then (mantissa * base.pow exponent.toNat, 1)
  else (mantissa, base.pow (-exponent).toNat)

/-- The number of decimal digits. -/
def digitCount (n : Nat) : Nat :=
  if _h : n < 10 then 1 else digitCount (n / 10) + 1
  termination_by n
  decreasing_by omega

/-! ## Reading -/

/-- The double nearest to a positive fraction. -/
def ofFraction (negative : Bool) (num den : Nat) : Double :=
  let estimate : Int := (Nat.log2 num : Int) - Nat.log2 den
  let below :=
    let (n, d) := scaled den 2 estimate
    num * d < n
  let magnitude : Int := if below then estimate - 1 else estimate
  let exponent : Int := max (magnitude - 52) (-1074)
  let (n, d) := if 0 ≤ exponent then (num, den * Nat.pow 2 exponent.toNat)
    else (num * Nat.pow 2 (-exponent).toNat, den)
  let mantissa := roundHalfEven n d
  let (mantissa, exponent) :=
    if mantissa = Nat.pow 2 53 then (Nat.pow 2 52, exponent + 1) else (mantissa, exponent)
  if 971 < exponent then .infinite negative else .finite negative mantissa exponent

/-- The double nearest to `digits * 10 ^ exponent`. Numbers far outside the range are settled
by their size alone. -/
def ofDecimal (negative : Bool) (digits : Nat) (exponent : Int) : Double :=
  if digits = 0 then .finite negative 0 (-1074)
  else
    let size : Int := digitCount digits + exponent
    if 400 < size then .infinite negative
    else if size < -400 then .finite negative 0 (-1074)
    else
      let (num, den) := scaled digits 10 exponent
      ofFraction negative num den

/-! ## Writing -/

/-- Whether a decimal grid point `point * 10 ^ grid` reads back as the double with this mantissa
and exponent: it lies within half a unit, the ends counting for an even mantissa. Below a power
of two the unit is halved. -/
def readsBack (mantissa : Nat) (exponent : Int) (point : Nat) (grid : Int) : Bool :=
  let (pn, pd) := scaled point 10 grid
  let (un, ud) := scaled 1 2 (exponent - 2)
  let lowGap := if mantissa = Nat.pow 2 52 ∧ -1074 < exponent then 1 else 2
  let low := (4 * mantissa - lowGap) * un
  let high := (4 * mantissa + 2) * un
  let p := pn * ud
  if mantissa % 2 = 0 then low * pd ≤ p && p ≤ high * pd else low * pd < p && p < high * pd

/-- The grid points below and above a positive fraction, and which of them is nearer
(`lt` for the lower one). -/
def neighbours (num den : Nat) (grid : Int) : Nat × Ordering :=
  let (gn, gd) := scaled 1 10 grid
  let n := num * gd
  let d := den * gn
  (n / d, compare (2 * (n % d)) d)

/-- The point of one decimal grid to write the number with, if one reads back. -/
def onGrid (mantissa : Nat) (exponent grid : Int) : Option Nat :=
  let (num, den) := scaled mantissa 2 exponent
  let (low, side) := neighbours num den grid
  let lowOk := low != 0 && readsBack mantissa exponent low grid
  let highOk := readsBack mantissa exponent (low + 1) grid
  match lowOk, highOk with
  | true, true =>
    match side with
    | .lt => some low
    | .gt => some (low + 1)
    | .eq => some (if low % 2 = 0 then low else low + 1)
  | true, false => some low
  | false, true => some (low + 1)
  | false, false => none

/-- The decimal exponent of the first grid that is coarser than the number. -/
def decimalSize (mantissa : Nat) (exponent : Int) : Int :=
  let (num, den) := scaled mantissa 2 exponent
  if den ≤ num then digitCount (num / den)
  else 1 - (digitCount (den / num) : Int)

/-- Drops the zeros at the end of a positive number and counts them. -/
def trimZeros (n : Nat) : Nat × Nat :=
  if _h : n ≠ 0 ∧ n % 10 = 0 then
    let (m, k) := trimZeros (n / 10)
    (m, k + 1)
  else (n, 0)
  termination_by n
  decreasing_by omega

/-- The first grid, from coarse to fine, with a point that reads back. -/
def firstGrid (mantissa : Nat) (exponent : Int) (grid : Int) : Nat → Nat × Int
  | 0 => (mantissa, 0)
  | fuel + 1 =>
    match onGrid mantissa exponent grid with
    | some point => (point, grid)
    | none => firstGrid mantissa exponent (grid - 1) fuel

/-- The fewest decimal digits that read back as a positive double, with their exponent. Seventeen
digits always suffice. -/
def shortest (mantissa : Nat) (exponent : Int) : Nat × Int :=
  let (point, grid) := firstGrid mantissa exponent (decimalSize mantissa exponent) 20
  let (digits, zeros) := trimZeros point
  (digits, grid + zeros)

/-- The text of the digits in positional notation when the first digit stands for a power of ten
from -4 to 15, otherwise with an exponent of at least two digits. A point is always written in
positional notation. -/
def layout (digits : Nat) (exponent : Int) : String :=
  let text := toString digits
  let count : Int := text.length
  let point := count + exponent
  if -4 < point && point ≤ 16 then
    if point ≤ 0 then
      "0." ++ String.ofList (List.replicate (-point).toNat '0') ++ text
    else if count ≤ point then
      text ++ String.ofList (List.replicate (point - count).toNat '0') ++ ".0"
    else
      String.ofList (text.toList.take point.toNat) ++ "." ++
        String.ofList (text.toList.drop point.toNat)
  else
    let head := String.ofList (text.toList.take 1)
    let tail := text.toList.drop 1
    let power := point - 1
    let size := toString power.natAbs
    head ++ (if tail.isEmpty then "" else "." ++ String.ofList tail) ++ "e" ++
      (if power < 0 then "-" else "+") ++ (if size.length < 2 then "0" ++ size else size)

/-- The text of a finite number. -/
def finiteText (negative : Bool) (mantissa : Nat) (exponent : Int) : String :=
  let body :=
    if mantissa = 0 then "0.0"
    else
      let (digits, power) := shortest mantissa exponent
      layout digits power
  if negative then "-" ++ body else body

/-! ## Values -/

/-- Whether the number is zero, of either sign. -/
def isZero : Double → Bool
  | .finite _ m _ => m == 0
  | _ => false

/-- A finite number without its fraction. -/
def truncate? : Double → Option Int
  | .finite negative m e =>
    let (num, den) := scaled m 2 e
    let whole : Int := (num / den : Nat)
    some (if negative then -whole else whole)
  | _ => none

/-- How a finite number compares to an integer. -/
def compareInt (negative : Bool) (m : Nat) (e : Int) (n : Int) : Ordering :=
  let (num, den) := scaled m 2 e
  let value : Int := if negative then -(num : Int) else num
  compare value (n * (den : Int))

/-- Whether the number equals an integer. -/
def equalsInt (x : Double) (n : Int) : Bool :=
  match x with
  | .finite negative m e => compareInt negative m e n == .eq
  | _ => false

/-- Whether the number is less than an integer. -/
def ltInt (x : Double) (n : Int) : Bool :=
  match x with
  | .finite negative m e => compareInt negative m e n == .lt
  | .infinite negative => negative
  | .nan => false

/-- Whether an integer is less than the number. -/
def intLt (n : Int) (x : Double) : Bool :=
  match x with
  | .finite negative m e => compareInt negative m e n == .gt
  | .infinite negative => !negative
  | .nan => false

/-- Whether two numbers have the same value; the zeros do, and nothing equals `nan`. -/
def equals : Double → Double → Bool
  | .finite s m e, .finite s' m' e' => (m == 0 && m' == 0) || (s == s' && m == m' && e == e')
  | .infinite s, .infinite s' => s == s'
  | _, _ => false

/-- Whether the first number is less than the second. -/
def lt : Double → Double → Bool
  | .finite s m e, .finite s' m' e' =>
    let (n, d) := scaled m 2 e
    let (n', d') := scaled m' 2 e'
    let a : Int := if s then -(n * d' : Nat) else (n * d' : Nat)
    let b : Int := if s' then -(n' * d : Nat) else (n' * d : Nat)
    a < b
  | .infinite s, .finite .. => s
  | .finite .., .infinite s => !s
  | .infinite s, .infinite s' => s && !s'
  | _, _ => false

end Double

end DtoForge.Number

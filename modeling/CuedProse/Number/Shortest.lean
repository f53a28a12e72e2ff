import CuedProse.Number.Fixed

/-!
# Shortest decimals

The shortest decimal that reads back as a given floating-point number: of all decimals that round to
it, one with the fewest digits, and of those the nearest.
-/
namespace CuedProse.Number

/-- The decimal `digits · 10 ^ exponent`. -/
structure Decimal where
  digits : Nat
  exponent : Int
  deriving DecidableEq, Repr

abbrev Quotient := Nat × Nat

def scaleDown (q : Quotient) (exponent : Int) : Quotient :=
  if 0 ≤ exponent then (q.1, q.2 * Nat.pow 10 exponent.toNat)
  else (q.1 * Nat.pow 10 (-exponent).toNat, q.2)

/-- The power of ten of the first digit of a positive quotient. -/
def leadingPower (q : Quotient) : Int :=
  if q.2 ≤ q.1 then (toString (q.1 / q.2)).length - 1
  else Int.negOfNat (toString ((q.2 - 1) / q.1)).length

/-- What rounds to a floating-point number, in quarters of its last place: from `low` to `high`
around `middle`, over one denominator. -/
structure Neighbourhood where
  low : Nat
  middle : Nat
  high : Nat
  den : Nat
  /-- Whether the ends round to the number too. -/
  closed : Bool
  deriving DecidableEq, Repr

/-- The neighbourhood of a positive number. Below a power of two the numbers lie twice as close. -/
def neighbourhood (b : Binary) : Neighbourhood :=
  let (unit, den) := (Binary.mk 1 b.exponent).quotient
  let below := if b.significand = Binary.hidden ∧ b.exponent ≠ 0 then 1 else 2
  { low := (4 * b.significand - below) * unit
    middle := 4 * b.significand * unit
    high := (4 * b.significand + 2) * unit
    den := 4 * den
    closed := b.significand % 2 = 0 }

/-- Whether `digits · 10 ^ exponent` lies in the neighbourhood. -/
def Neighbourhood.holds (n : Neighbourhood) (digits : Nat) (exponent : Int) : Bool :=
  let (low, den) := scaleDown (n.low, n.den) exponent
  let (high, _) := scaleDown (n.high, n.den) exponent
  let x := digits * den
  if n.closed then decide (low ≤ x) && decide (x ≤ high) else decide (low < x) && decide (x < high)

/-- The nearest decimal with the given exponent, if it reads back. -/
def nearest? (n : Neighbourhood) (exponent : Int) : Option Decimal :=
  let (middle, den) := scaleDown (n.middle, n.den) exponent
  let digits := roundEven middle den
  if n.holds digits exponent then some ⟨digits, exponent⟩
  else
    let other := if digits * den < middle then digits + 1 else digits - 1
    if n.holds other exponent then some ⟨other, exponent⟩ else none

/-- The shortest decimal of a positive number. Seventeen digits always suffice. -/
def shortest (b : Binary) : Decimal :=
  let n := neighbourhood b
  let power := leadingPower (n.middle, n.den)
  let tries := (List.range 17).filterMap fun (i : Nat) => nearest? n (power - i)
  tries.headD ⟨0, 0⟩

/-- Takes zeros off the end of the digits. -/
def Decimal.strip (d : Decimal) : Decimal :=
  let digits := (toString d.digits).toList
  let zeros := (digits.reverse.takeWhile (· = '0')).length
  ⟨d.digits / Nat.pow 10 zeros, d.exponent + zeros⟩

/-- The text of a decimal. It is positional if the point stands among the first sixteen digits or
fewer than five zeros before them, and has an exponent otherwise. -/
def Decimal.text (d : Decimal) : String :=
  let d := d.strip
  let digits := (toString d.digits).toList
  let point : Int := digits.length + d.exponent
  let zeros := fun (k : Int) => List.replicate k.toNat '0'
  if 0 ≤ d.exponent ∧ point ≤ 16 then String.ofList (digits ++ zeros d.exponent ++ ['.', '0'])
  else if 0 < point ∧ point ≤ 16 then
    String.ofList (digits.take point.toNat ++ '.' :: digits.drop point.toNat)
  else if -5 < point ∧ point ≤ 0 then String.ofList ('0' :: '.' :: (zeros (-point) ++ digits))
  else
    let mantissa := if digits.length = 1 then digits else digits.take 1 ++ '.' :: digits.drop 1
    let exponent := point - 1
    String.ofList mantissa ++ "e" ++ toString exponent

/-- The shortest text of a number that is finite and not negative. -/
def shortestText (x : Float) : String :=
  let b := Binary.ofFloat x
  if b.significand = 0 then "0.0" else (shortest b).text

end CuedProse.Number

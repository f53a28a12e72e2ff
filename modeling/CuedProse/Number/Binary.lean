/-!
# Binary numbers

A finite floating-point number is a count of a power of two. Text for it is worked out from these
two numbers, exactly.
-/
namespace CuedProse.Number

/-- The number `significand · 2 ^ (exponent - 1074)`. -/
structure Binary where
  significand : Nat
  exponent : Nat
  deriving DecidableEq, Repr

namespace Binary

/-- The significant bit that a number of full precision does not store. -/
def hidden : Nat := Nat.pow 2 52

/-- The magnitude of a finite number. -/
def ofFloat (x : Float) : Binary :=
  let bits := x.toBits.toNat
  let fraction := bits % hidden
  let field := bits / hidden % 2048
  if field = 0 then ⟨fraction, 0⟩ else ⟨hidden + fraction, field - 1⟩

/-- The number as a quotient of two counts. -/
def quotient (b : Binary) : Nat × Nat :=
  if 1074 ≤ b.exponent then (b.significand * Nat.pow 2 (b.exponent - 1074), 1)
  else (b.significand, Nat.pow 2 (1074 - b.exponent))

end Binary

end CuedProse.Number

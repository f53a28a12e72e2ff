import CuedProse.Number.Binary

/-!
# Fixed places

Numbers with a fixed count of decimal places. The exact value is rounded to the nearest such number,
and to the even one of two that are equally near.
-/
namespace CuedProse.Number

/-- The count nearest to `num / den`; of two equally near, the even one. -/
def roundEven (num den : Nat) : Nat :=
  let q := num / den
  let r := num % den
  if 2 * r < den then q
  else if den < 2 * r then q + 1
  else if q % 2 = 0 then q else q + 1

def padZeros (width : Nat) (s : String) : String :=
  String.ofList (List.replicate (width - s.length) '0') ++ s

/-- A number that is not negative, with `places` decimal places. -/
def fixed (places : Nat) (x : Float) : String :=
  let (num, den) := (Binary.ofFloat x).quotient
  let unit := Nat.pow 10 places
  let scaled := roundEven (num * unit) den
  let whole := toString (scaled / unit)
  if places = 0 then whole
  else whole ++ "." ++ padZeros places (toString (scaled % unit))

end CuedProse.Number

/-!
# Progress

Progress through a chapter is a floating-point number from zero to one. This module is the only
place where it meets counts: whatever the arithmetic rounds to, the answer is a count in range.
-/
namespace CuedProse.Progress

/-- Progress brought into the range from zero to one; what is no number counts as zero (spec §4.4,
step 1, and §B). -/
def clamp (p : Float) : Float :=
  if p.isNaN then 0 else if p < 0 then 0 else if p > 1 then 1 else p

/-- How many of `total` characters are revealed at progress `p`, which is in range: a whole number,
rounded down (spec §4.4, step 2). -/
def revealed (p : Float) (total : Nat) : Nat :=
  -- the product is not negative, so cutting its fraction off rounds it down
  min (p * total.toFloat).toUInt64.toNat total

/-- The progress that reveals `count` of `total` characters. It aims at the middle of the next one,
so that rounding down finds the count again (spec §F). -/
def reaching (count total : Nat) : Float :=
  if total = 0 then 0
  else
    let p := (count.toFloat + 0.5) / total.toFloat
    if p > 1 then 1 else p

def percent (count total : Nat) : Float :=
  if total = 0 then 0 else count.toFloat * 100 / total.toFloat

/-- Step number `step` on the way of `steps` equal steps. -/
def fraction (step steps : Nat) : Float := step.toFloat / steps.toFloat

end CuedProse.Progress

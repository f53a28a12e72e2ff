import CuedProse.Reading.Failure

/-!
# Options

How many lines are shown at once, and whether a cue may fire more than once (spec §D).
-/
namespace CuedProse

/-- When a cue fires again. -/
inductive Policy where
  /-- Never in the same session. -/
  | once
  /-- At every forward crossing, once the reader has gone back before the end of the cue. -/
  | everyCrossing
  deriving DecidableEq, Repr

structure Options where
  /-- How many lines are shown, the one being revealed included. -/
  window : Nat := 5
  policy : Policy := .once
  deriving DecidableEq, Repr

/-- Refuses options that show nothing. -/
def Options.validate (o : Options) : Except Failure Options :=
  if o.window = 0 then .error (.invalidOptions .emptyWindow) else .ok o

end CuedProse

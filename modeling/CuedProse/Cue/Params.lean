import CuedProse.Text

/-!
# Parameters

The `key=value` parameters of a cue, in the order in which the keys first appeared. A key that
comes again keeps its place and takes the new value.
-/
namespace CuedProse

/-- Ordered parameters of a cue (spec §3). -/
structure Params where
  entries : List (Text × Text) := []
  deriving DecidableEq, Repr

namespace Params

def empty : Params := {}

/-- Sets `key` where it first stands, or at the end. -/
def setEntry (key value : Text) : List (Text × Text) → List (Text × Text)
  | [] => [(key, value)]
  | (k, v) :: rest => if k = key then (k, value) :: rest else (k, v) :: setEntry key value rest

def insert (p : Params) (key value : Text) : Params := ⟨setEntry key value p.entries⟩

def get? (p : Params) (key : Text) : Option Text :=
  (p.entries.find? (fun e => e.1 = key)).map (·.2)

def size (p : Params) : Nat := p.entries.length

def isEmpty (p : Params) : Bool := p.entries.isEmpty

/-- The parameters that inserting `pairs` one after the other gives. -/
def ofList (pairs : List (Text × Text)) : Params :=
  pairs.foldl (fun p e => p.insert e.1 e.2) empty

/-- Reads one field of a cue: what stands before the first `=` and what stands after it, trimmed.
A field without `=` or with a blank key is no parameter (spec §4.1). -/
def ofField? (field : Text) : Option (Text × Text) :=
  match field.dropWhile (· != '=') with
  | [] => none
  | _ :: value =>
    let key := Text.trim (field.takeWhile (· != '='))
    if key = [] then none else some (key, Text.trim value)

/-- The parameters that the fields of a cue spell. -/
def ofFields (fields : List Text) : Params := ofList (fields.filterMap ofField?)

end Params

end CuedProse

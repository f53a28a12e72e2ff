import CuedProse.Text

/-!
# JSON

JSON values and their compact text: no white space, fields in the order given, and only those
characters escaped that must be.
-/
namespace CuedProse

inductive Json where
  | string (text : Text)
  | count (n : Nat)
  /-- A number, as written. -/
  | number (written : String)
  | array (items : List Json)
  | object (fields : List (String × Json))

namespace Json

def hexDigit (n : Nat) : Char := if n < 10 then Char.ofNat (48 + n) else Char.ofNat (87 + n)

/-- A character between quotation marks. -/
def escape (c : Char) : Text :=
  if c = '"' then ['\\', '"']
  else if c = '\\' then ['\\', '\\']
  else if c = '\n' then ['\\', 'n']
  else if c = '\r' then ['\\', 'r']
  else if c = '\t' then ['\\', 't']
  else if c.toNat = 8 then ['\\', 'b']
  else if c.toNat = 12 then ['\\', 'f']
  else if c.toNat < 32 then
    ['\\', 'u', '0', '0', hexDigit (c.toNat / 16), hexDigit (c.toNat % 16)]
  else [c]

def quote (t : Text) : Text := '"' :: t.flatMap escape ++ ['"']

mutual

def text : Json → Text
  | string t => quote t
  | count n => (toString n).toList
  | number written => written.toList
  | array items => '[' :: itemsText items
  | object fields => '\x7b' :: fieldsText fields

/-- The items of an array, with the bracket that ends it. -/
def itemsText : List Json → Text
  | [] => [']']
  | [x] => text x ++ [']']
  | x :: rest => text x ++ ',' :: itemsText rest

/-- The fields of an object, with the brace that ends it. -/
def fieldsText : List (String × Json) → Text
  | [] => ['\x7d']
  | [(name, x)] => quote name.toList ++ ':' :: text x ++ ['\x7d']
  | (name, x) :: rest => quote name.toList ++ ':' :: text x ++ ',' :: fieldsText rest

end

def compact (x : Json) : String := String.ofList x.text

end Json

end CuedProse

import CuedProse.Text

/-!
# Line breaks

Inside the library a line feed is the only line break. `normalise` brings a source to that form:
carriage returns, with or without a line feed after them, become line feeds, and so does the escape
`\n` of two characters, which is how text stored as escaped strings arrives.
-/
namespace CuedProse.Newline

/-- The source with every line break written as one line feed (spec §E). -/
def normalise : Text → Text
  | [] => []
  | '\r' :: '\n' :: rest => '\n' :: normalise rest
  | '\r' :: rest => '\n' :: normalise rest
  | '\\' :: 'n' :: rest => '\n' :: normalise rest
  | c :: rest => c :: normalise rest

/-- Whether `t` holds a backslash that an `n` follows. -/
def hasEscape : Text → Bool
  | '\\' :: 'n' :: _ => true
  | _ :: rest => hasEscape rest
  | [] => false

def isNormal (t : Text) : Bool := !t.contains '\r' && !hasEscape t

end CuedProse.Newline

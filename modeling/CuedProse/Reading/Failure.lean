/-!
# Failures

Revealing text cannot fail. Only two things can: options that no chapter can be shown with, and a
chapter file that cannot be read or decoded (spec §B).
-/
namespace CuedProse

/-- What the operating system says about a file that cannot be read. -/
structure SystemFault where
  reason : String
  code : Nat
  deriving DecidableEq, Repr

namespace SystemFault

def notFound : SystemFault := ⟨"No such file or directory", 2⟩

def message (f : SystemFault) : String := s!"{f.reason} (os error {f.code})"

end SystemFault

inductive OptionFault where
  /-- A window without lines. -/
  | emptyWindow
  deriving DecidableEq, Repr

def OptionFault.message : OptionFault → String
  | emptyWindow => "window_lines must be at least 1"

inductive Failure where
  | unreadable (fault : SystemFault)
  /-- The bytes of the file at `path` are not UTF-8. -/
  | notUtf8 (path : String)
  | invalidOptions (fault : OptionFault)
  deriving DecidableEq, Repr

namespace Failure

def message : Failure → String
  | unreadable f => "I/O error: " ++ f.message
  | notUtf8 path => "content is not valid UTF-8: " ++ path
  | invalidOptions f => "invalid reveal options: " ++ f.message

/-- The words of the failure beneath this one, if there is one. -/
def cause? : Failure → Option String
  | unreadable f => some f.message
  | _ => none

end Failure

end CuedProse

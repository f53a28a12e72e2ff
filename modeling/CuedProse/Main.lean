import CuedProse.CommandLine.Play

/-!
# The program

Reads the chapter file, lets the library play it, and writes what comes of it.
-/
namespace CuedProse.CommandLine

/-- What the operating system says with an error. -/
def faultOf : IO.Error → SystemFault
  | .noFileOrDirectory _ code reason => ⟨reason, code.toNat⟩
  | .permissionDenied _ code reason => ⟨reason, code.toNat⟩
  | .inappropriateType _ code reason => ⟨reason, code.toNat⟩
  | .invalidArgument _ code reason => ⟨reason, code.toNat⟩
  | .resourceExhausted _ code reason => ⟨reason, code.toNat⟩
  | .hardwareFault code reason => ⟨reason, code.toNat⟩
  | .otherError code reason => ⟨reason, code.toNat⟩
  | e => ⟨toString e, 0⟩

def readContent (path : String) : IO FileContent := do
  try
    return .ok (← IO.FS.readBinFile path)
  catch e =>
    return .error (faultOf e)

end CuedProse.CommandLine

open CuedProse.CommandLine in
def main (arguments : List String) : IO UInt32 := do
  let content ← match readArguments arguments with
    | .ok (.play path _) => readContent path
    | _ => pure (.error .notFound)
  let output := run arguments fun _ => content
  IO.print output.stdout
  IO.eprint output.stderr
  return output.code.toUInt32

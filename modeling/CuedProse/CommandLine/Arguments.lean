import CuedProse.Reading.Options

/-!
# Arguments

The command line names one chapter file and may hold options around it. It is read from left to
right; the first thing wrong with it is reported, unless help was asked for before.
-/
namespace CuedProse.CommandLine

/-- An option that takes a number. -/
inductive NumberOption where
  | steps | window
  deriving DecidableEq, Repr

def NumberOption.flag : NumberOption → String
  | steps => "--steps"
  | window => "--window"

/-- What is wrong with the arguments. -/
inductive ArgumentError where
  | unknownOption (argument : String)
  | missingValue (option : NumberOption)
  | invalidValue (option : NumberOption) (value : String)
  | secondFile
  | missingFile
  deriving DecidableEq, Repr

def ArgumentError.message : ArgumentError → String
  | unknownOption argument => "Unknown option: " ++ argument
  | missingValue option => option.flag ++ " requires a value"
  | invalidValue option value =>
    "Invalid " ++ option.flag ++ " value: " ++ value ++ " (must be positive integer)"
  | secondFile => "Only one FILE may be given"
  | missingFile => "Missing FILE argument"

structure Settings where
  steps : Nat := 10
  window : Nat := 5
  policy : Policy := .once
  /-- Whether to go back to the start after the end is reached. -/
  back : Bool := false
  verbose : Bool := false
  deriving DecidableEq, Repr

def Settings.set (s : Settings) : NumberOption → Nat → Settings
  | .steps, n => { s with steps := n }
  | .window, n => { s with window := n }

/-- What the command is asked to do. -/
inductive Command where
  | help
  | play (path : String) (settings : Settings)
  deriving DecidableEq, Repr

inductive Argument where
  | help
  | number (option : NumberOption)
  | everyCrossing
  | back
  | verbose
  | unknown
  | file
  deriving DecidableEq, Repr

/-- Tells what an argument is, where an option may stand. -/
def Argument.ofString (a : String) : Argument :=
  if a = "-h" ∨ a = "--help" then .help
  else if a = "--steps" then .number .steps
  else if a = "--window" then .number .window
  else if a = "--every-crossing" then .everyCrossing
  else if a = "--back" then .back
  else if a = "-v" ∨ a = "--verbose" then .verbose
  else if a.toList.head? = some '-' then .unknown
  else .file

/-- The count that decimal digits, most significant first, add to `n`. -/
def readDigits (n : Nat) : List Char → Option Nat
  | [] => some n
  | c :: rest => if c.isDigit then readDigits (10 * n + (c.toNat - 48)) rest else none

/-- Reads a positive number of 32 bits: decimal digits, perhaps with a plus sign in front. -/
def readNumber? (value : String) : Option Nat :=
  let digits := match value.toList with
    | '+' :: rest => rest
    | all => all
  if digits.isEmpty then none
  else (readDigits 0 digits).filter fun n => decide (0 < n) && decide (n < UInt32.size)

/-- Reads the arguments that follow, given the file and the settings so far. -/
def readFrom (path : Option String) (s : Settings) : List String → Except ArgumentError Command
  | [] =>
    match path with
    | some path => .ok (.play path s)
    | none => .error .missingFile
  | a :: rest =>
    match Argument.ofString a with
    | .help => .ok .help
    | .number option =>
      match rest with
      | [] => .error (.missingValue option)
      | value :: rest =>
        match readNumber? value with
        | some n => readFrom path (s.set option n) rest
        | none => .error (.invalidValue option value)
    | .everyCrossing => readFrom path { s with policy := .everyCrossing } rest
    | .back => readFrom path { s with back := true } rest
    | .verbose => readFrom path { s with verbose := true } rest
    | .unknown => .error (.unknownOption a)
    | .file =>
      match path with
      | some _ => .error .secondFile
      | none => readFrom (some a) s rest

/-- Reads the arguments after the name of the program. -/
def readArguments (arguments : List String) : Except ArgumentError Command :=
  readFrom none {} arguments

end CuedProse.CommandLine

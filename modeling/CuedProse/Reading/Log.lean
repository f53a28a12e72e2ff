/-!
# Log entries

What the library has to say about its work is returned as a list of entries; nothing is written
anywhere (spec §C).
-/
namespace CuedProse

inductive LogLevel where
  | debug | info | warn | error
  deriving DecidableEq, Repr

def LogLevel.name : LogLevel → String
  | debug => "debug"
  | info => "info"
  | warn => "warn"
  | error => "error"

/-- One thing said about the work. -/
structure LogEntry where
  level : LogLevel
  message : String
  deriving DecidableEq, Repr

end CuedProse

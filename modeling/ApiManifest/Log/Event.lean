/-!
What is logged: events with a level, the part of the program they come from, a message and fields.
-/

namespace ApiManifest.Log

/-- Levels from the least to the most verbose. -/
inductive Level where
  | off
  | error
  | warn
  | info
  | debug
  | trace
  deriving DecidableEq

namespace Level

def rank : Level → Nat
  | .off => 0
  | .error => 1
  | .warn => 2
  | .info => 3
  | .debug => 4
  | .trace => 5

def all : List Level :=
  [.off, .error, .warn, .info, .debug, .trace]

def name : Level → String
  | .off => "OFF"
  | .error => "ERROR"
  | .warn => "WARN"
  | .info => "INFO"
  | .debug => "DEBUG"
  | .trace => "TRACE"

end Level

inductive FieldValue where
  | text (value : String)
  | count (value : Nat)
  deriving DecidableEq

structure Event where
  level : Level
  /-- Where the event comes from, as filters name it. -/
  target : String
  message : String
  fields : List (String × FieldValue)
  deriving DecidableEq

end ApiManifest.Log

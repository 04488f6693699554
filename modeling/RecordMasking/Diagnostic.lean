/-!
# Diagnostics

What a run has to say about the types it meets: a severity, a stable short
kind, a message, and the place in the declaring text when it is known.
-/

namespace RecordMasking

inductive Severity where
  | debug
  | info
  | warning
  | error
deriving DecidableEq, Repr, Inhabited

namespace Severity

def display : Severity → String
  | .debug => "debug"
  | .info => "info"
  | .warning => "warning"
  | .error => "error"

def rank : Severity → Nat
  | .debug => 0
  | .info => 1
  | .warning => 2
  | .error => 3

instance : Ord Severity where
  compare left right := compare left.rank right.rank

end Severity

/-- A place in a declaring text.  Lines and columns count from one. -/
structure Location where
  file : String
  line : Nat
  column : Nat
deriving DecidableEq, Repr, Inhabited

def Location.display (location : Location) : String :=
  location.file ++ ":" ++ toString location.line ++ ":" ++
    toString location.column

structure Diagnostic where
  severity : Severity
  kind : String
  message : String
  location : Option Location := none
deriving DecidableEq, Repr, Inhabited

/-- Diagnostics in the order in which they were reported. -/
abbrev DiagnosticLog := List Diagnostic

namespace DiagnosticLog

def ofKind (log : DiagnosticLog) (kind : String) : DiagnosticLog :=
  log.filter fun entry => entry.kind == kind

def hasErrors (log : DiagnosticLog) : Bool :=
  log.any fun entry => entry.severity == .error

end DiagnosticLog

end RecordMasking

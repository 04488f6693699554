import RecordMasking.Diagnostic

/-!
# Build logs

A build log prints each record on a line of its own: the message, then the
pairs that belong to it, the innermost first.  Warnings and errors become
warnings of the build, and records below them are tagged with their level.
Line breaks inside a record become blanks, so that a record cannot start a
line.
-/

namespace RecordMasking

/-- The level of a record, from the highest on. -/
inductive Level where
  | critical
  | error
  | warning
  | info
  | debug
  | trace
deriving DecidableEq, Repr, Inhabited

namespace Level

def rank : Level → Nat
  | .critical => 0
  | .error => 1
  | .warning => 2
  | .info => 3
  | .debug => 4
  | .trace => 5

/-- Whether a level is no lower than another one. -/
def reaches (level least : Level) : Bool :=
  level.rank ≤ least.rank

def tag : Level → String
  | .critical => "CRIT"
  | .error => "ERRO"
  | .warning => "WARN"
  | .info => "INFO"
  | .debug => "DEBG"
  | .trace => "TRCE"

def ofSeverity : Severity → Level
  | .error => .error
  | .warning => .warning
  | .info => .info
  | .debug => .debug

end Level

structure LogRecord where
  level : Level
  message : String
  pairs : List (String × String)
deriving DecidableEq, Repr

def LogRecord.ofDiagnostic (diagnostic : Diagnostic) : LogRecord where
  level := .ofSeverity diagnostic.severity
  message := diagnostic.message
  pairs :=
    (match diagnostic.location with
      | some location => [("location", location.display)]
      | none => []) ++
      [("kind", diagnostic.kind)]

/-- A log that prints records from a level on; the pairs of its context are
kept with the outermost first. -/
structure BuildLog where
  least : Level := .info
  context : List (String × String) := []
deriving DecidableEq, Repr

namespace BuildLog

def flatten (c : Char) : Char :=
  if c = '\n' || c = '\r' then ' ' else c

def onOneLine (text : String) : String :=
  String.ofList (text.toList.map flatten)

def pairText (pair : String × String) : String :=
  " " ++ pair.1 ++ "=" ++ pair.2

def line (log : BuildLog) (record : LogRecord) : String :=
  let text :=
    record.message ++
      String.join ((record.pairs ++ log.context.reverse).map pairText)
  (if record.level.reaches .warning then "cargo:warning="
    else "[masking] " ++ record.level.tag ++ ": ") ++
    onOneLine text

/-- Whether a record is printed; traces never are. -/
def prints (log : BuildLog) (record : LogRecord) : Bool :=
  record.level.reaches log.least && record.level != .trace

/-- The lines that are printed for records, in their order. -/
def lines (log : BuildLog) (records : List LogRecord) : List String :=
  (records.filter log.prints).map log.line

/-- What has been printed after one more record: a line that is printed ends
where the next one can start. -/
def print (log : BuildLog) (printed : String) (record : LogRecord) : String :=
  if log.prints record then printed ++ log.line record ++ "\n" else printed

/-- What is printed for records that come one by one. -/
def output (log : BuildLog) (records : List LogRecord) : String :=
  records.foldl log.print ""

end BuildLog

end RecordMasking

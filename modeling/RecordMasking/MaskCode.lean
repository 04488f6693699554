import RecordMasking.Code.Token
import RecordMasking.FieldPath
import RecordMasking.QualifiedName

/-!
# The code of a mask

The body of a mask takes a record apart and puts it together again.  A
`MaskTerm` is an expression of that code: a rebuilding block binds members of
a record to variables by a pattern that names all of them, and gives every
member of the new record a value.
-/

namespace RecordMasking

open Code

/-- A record type with the path it is written by. -/
structure Constructor where
  type : QualifiedName
  path : Tokens
deriving DecidableEq, Repr, Inhabited

inductive MaskTerm where
  /-- The default of the member's type. -/
  | default
  /-- What a variable holds. -/
  | bound (name : String)
  /-- What a variable holds, masked by the mask of its own type. -/
  | masked (name : String)
  /-- Takes apart what the source holds and puts the values together.  A
  member without a variable in the pattern is not bound. -/
  | rebuild (source : String) (constructor : Constructor)
      (patterns : List (FieldName × Option String))
      (values : List (FieldName × MaskTerm))
deriving Inhabited

namespace MaskTerm

def memberTokens : FieldName → Tokens
  | .named text => Tokens.word text
  | .position index => [.literal (toString index)]

/-- A member and what stands for it; a member that stands for itself is
written once. -/
def assignedTokens (member : FieldName) (assigned : Tokens) : Tokens :=
  match member with
  | .named text =>
      if assigned = Tokens.word text then assigned
      else memberTokens member ++ Tokens.mark ':' ++ assigned
  | .position _ => memberTokens member ++ Tokens.mark ':' ++ assigned

def patternTokens (pattern : FieldName × Option String) : Tokens :=
  assignedTokens pattern.1 (Tokens.word (pattern.2.getD "_"))

def defaultTokens : Tokens :=
  Tokens.pathSeparator ++
    Tokens.ofPath ["core", "default", "Default", "default"] ++
    Tokens.inBrackets .round []

def maskedTokens (runtime : Tokens) (name : String) : Tokens :=
  runtime ++ Tokens.pathSeparator ++ Tokens.ofPath ["Mask", "mask"] ++
    Tokens.inBrackets .round (Tokens.word name)

/-- A block that destructures its source before it constructs. -/
def blockTokens (source : String) (path patterns values : Tokens) : Tokens :=
  Tokens.inBrackets .curly
    (Tokens.word "let" ++ path ++ Tokens.inBrackets .curly patterns ++
      Tokens.mark '=' ++ Tokens.word source ++ Tokens.mark ';' ++
      path ++ Tokens.inBrackets .curly values)

mutual

def tokens (runtime : Tokens) : MaskTerm → Tokens
  | .default => defaultTokens
  | .bound name => Tokens.word name
  | .masked name => maskedTokens runtime name
  | .rebuild source constructor patterns values =>
      blockTokens source constructor.path
        (Tokens.commaSeparated (patterns.map patternTokens))
        (Tokens.commaSeparated (valuesTokens runtime values))

def valuesTokens (runtime : Tokens) :
    List (FieldName × MaskTerm) → List Tokens
  | [] => []
  | (member, value) :: rest =>
      assignedTokens member (tokens runtime value) ::
        valuesTokens runtime rest

end

end MaskTerm

end RecordMasking

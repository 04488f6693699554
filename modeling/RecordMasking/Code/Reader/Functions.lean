import RecordMasking.Code.Reader.Fields
import RecordMasking.Code.Reader.Patterns

/-!
# Reading signatures

The head of a function: its qualifiers, its parameters, possibly with a
receiver in front, its result and its where clause.
-/

namespace RecordMasking.Code.Reader

/-! ## Qualifiers -/

def qualifiers : Reader Tokens :=
  inOrder [word? "const", word? "async", word? "unsafe", interface?, word "fn"]

/-- The qualifiers of a function that may be declared safe, and whether it
is. -/
def foreignQualifiers : Reader (Tokens × Bool) := do
  let head ← inOrder [word? "const", word? "async", word? "unsafe"]
  let isSafe := (← atWord "safe") && head.getLast? ≠ some (.word "unsafe")
  let mode ← if isSafe then word "safe" else pure []
  let rest ← inOrder [interface?, word "fn"]
  return (head ++ mode ++ rest, isSafe)

def functionAhead : Reader Bool :=
  ahead qualifiers

def foreignFunctionAhead : Reader Bool :=
  ahead foreignQualifiers

/-! ## Parameters -/

/-- The receiver of a method without its type. -/
def receiverHead : Reader Tokens := do
  let reference ←
    if ← atMark "&" then do
      let sign ← mark "&"
      if ← atLifetime then pure (sign ++ (← lifetimeTokens)) else pure sign
    else pure []
  let head ← inOrder [word? "mut", word "self"]
  let typed := reference.isEmpty && (← atMark ":") && (← past 1 (atMark "..."))
  if (← atMark "::") || typed then unexpected
  else return reference ++ head

/-- A receiver.  The type of one that is a reference is not written. -/
def receiver (nested : Nested) : Reader Tokens := do
  let isReference ← atMark "&"
  let head ← receiverHead
  if !isReference && (← atMark ":") then
    let colon ← mark ":"
    return head ++ colon ++ (← nested.type true).tokens
  else return head

/-- A parameter, and whether it is dots for further arguments.  A type alone
may stand for a parameter where it is a name with arguments. -/
def parameterKind (nested : Nested) (first : Bool) : Reader (Tokens × Bool) := do
  if ← atMark "..." then return (← mark "...", true)
  else if ← ahead receiverHead then
    if first then return (← receiver nested, false)
    else refuse "unexpected method receiver"
  else if (← atName) && (← past 1 (atMark "<")) then
    let type ← nested.type true
    return (Tokens.word "_" ++ Tokens.mark ':' ++ type.tokens, false)
  else
    let bound ← simplePattern nested
    let colon ← mark ":"
    let head := bound.tokens ++ colon
    if ← atMark "..." then return (head ++ (← mark "..."), true)
    else return (head ++ (← nested.type true).tokens, false)

/-- A parameter with the comma behind it, and whether another one follows. -/
def parameter (nested : Nested) (first : Bool) : Reader (Tokens × Bool) := do
  let attributes ← attributeTokens nested
  let (kind, isDots) ← parameterKind nested first
  let comma ← if ← atEnd then pure [] else mark ","
  return (attributes ++ kind ++ comma, !isDots && !(← atEnd))

def parameters (nested : Nested) : Reader Tokens := do
  if ← atEnd then return []
  else
    let (first, goesOn) ← parameter nested true
    if goesOn then
      return first ++ (← repeated (parameter nested false)).flatten
    else return first

/-! ## Signatures -/

def signatureRest (nested : Nested) : Reader Tokens := do
  let text ← name
  let params ← generics nested
  let inputs ← bracketed .round (parameters nested)
  let result ← result? nested true
  let clause ← whereClause nested
  return Tokens.word text ++ genericsTokens params ++
    Tokens.inBrackets .round inputs ++ result ++ clause

def signature (nested : Nested) : Reader Tokens := do
  let head ← qualifiers
  return head ++ (← signatureRest nested)

end RecordMasking.Code.Reader

import RecordMasking.Code.Reader.Functions

/-!
# Reading members

What stands between the brackets of a trait, of an implementation and of a
foreign block: functions, constants, types and macro calls.  A member that its
place gives no meaning to, such as a function without a body in an
implementation, is kept as it is written.
-/

namespace RecordMasking.Code.Reader

/-- Tokens behind others, or all since a start as they are written where there
are none. -/
def orAsWritten (start : List Lexeme) (before : Tokens) :
    Option Tokens → Reader Tokens
  | some tokens => return before ++ tokens
  | none => takenSince start

/-! ## Values -/

/-- The value of a constant or a static, when there is one. -/
def initial? (nested : Nested) : Reader Tokens :=
  given? do return (← nested.term true).tokens

/-- A constant.  One with parameters or predicates is kept as it is written,
and so is one without a value where it needs one. -/
def constant (nested : Nested) (needsValue : Bool) : Reader (Option Tokens) := do
  let head ← word "const"
  let text ← if ← atWord "_" then anyWord else name
  let hasParams ← atMark "<"
  let _ ← generics nested
  let colon ← mark ":"
  let type ← nested.type true
  let value ← initial? nested
  let hasClause ← atWord "where"
  let _ ← predicates nested
  let semicolon ← mark ";"
  if hasParams || hasClause || (needsValue && value.isEmpty) then return none
  else
    return some (head ++ Tokens.word text ++ colon ++ type.tokens ++ value ++
      semicolon)

/-- A static with its type, and whether it has a value. -/
def typedStatic (nested : Nested) : Reader (Tokens × Bool) := do
  let head ← inOrder [word "static", word? "mut"]
  let text ← name
  let colon ← mark ":"
  let type ← nested.type true
  let value ← initial? nested
  let semicolon ← mark ";"
  return (head ++ Tokens.word text ++ colon ++ type.tokens ++ value ++
    semicolon, !value.isEmpty)

/-! ## Types -/

/-- A synonym of a type, or a type that belongs to a trait. -/
structure TypeMember where
  name : String
  generics : Generics
  /-- The bounds behind the colon, when there is one. -/
  bounds : Option Tokens
  target : Option TypeExpr

namespace TypeMember

def headTokens (member : TypeMember) : Tokens :=
  Tokens.word "type" ++ Tokens.word member.name ++
    genericsTokens member.generics

def boundTokens (member : TypeMember) : Tokens :=
  match member.bounds with
  | some (first :: rest) => Tokens.mark ':' ++ first :: rest
  | _ => []

def targetTokens (member : TypeMember) : Tokens :=
  match member.target with
  | some target => Tokens.mark '=' ++ target.tokens
  | none => []

/-- The target, unless bounds are given to the type. -/
def target? (member : TypeMember) : Option TypeExpr :=
  if member.bounds.isSome then none else member.target

end TypeMember

inductive ClausePlace where
  | beforeTarget
  | behindTarget
  | either
deriving DecidableEq

/-- The bounds behind a colon, when there is one. -/
def bounds? (nested : Nested) : Reader (Option Tokens) := do
  if ← atMark ":" then
    let _ ← mark ":"
    return some (← plusUntil
      (do return (← atWord "where") || (← atOpening .curly) ||
        (← atMark ";") || (← atMark "="))
      (do return (← bound nested ⟨true, false⟩).1))
  else return none

def typeMember (nested : Nested) (place : ClausePlace) : Reader TypeMember := do
  let _ ← word "type"
  let text ← name
  let params ← generics nested
  let bounds ← bounds? nested
  let hasClause ← atWord "where"
  let before ←
    if place = .behindTarget then pure [] else predicates nested
  let target ←
    if ← atMark "=" then do
      let _ ← mark "="
      pure (some (← nested.type true))
    else pure none
  let isLate := place = .behindTarget || (place = .either && !hasClause)
  let behind ← if isLate then predicates nested else pure []
  let _ ← mark ";"
  return ⟨text, { params with predicates := before ++ behind }, bounds, target⟩

/-! ## Macro calls -/

def callAhead : Reader Bool := do
  return (← atName) || (← atOneOf ["self", "super", "crate"]) ||
    (← atMark "::")

/-- A semicolon, which follows all but curly brackets. -/
def callEnd (bracket : Bracket) : Reader Tokens :=
  if bracket = .curly then return [] else mark ";"

def macroMember : Reader Tokens := do
  let (rooted, path) ← plainPath
  let (bracket, call) ← macroCall
  return plainPathTokens rooted path ++ call ++ (← callEnd bracket)

/-! ## Members -/

/-- A member of a trait.  One with a visibility or a mark that it may be
replaced is kept as it is written. -/
def traitMember (nested : Nested) : Reader Tokens := do
  let start ← get
  let attributes ← attributeTokens nested
  let (visibility, _) ← visibility
  let default ← word? "default"
  let isPlain := visibility == .inherited && default.isEmpty
  let found ←
    if ← functionAhead then do
      let head ← signature nested
      let rest ← if ← atMark ";" then mark ";" else nested.body
      pure (some (head ++ rest))
    else if ← atWord "const" then constant nested false
    else if ← atWord "type" then do
      let member ← typeMember nested .behindTarget
      pure (some (member.headTokens ++ member.boundTokens ++
        member.targetTokens ++ member.generics.whereTokens ++
        Tokens.mark ';'))
    else if isPlain && (← callAhead) then do pure (some (← macroMember))
    else unexpected
  orAsWritten start attributes (if isPlain then found else none)

def implementedFunction (nested : Nested) : Reader (Option Tokens) := do
  let head ← signature nested
  if ← atMark ";" then
    let _ ← mark ";"
    return none
  else return some (head ++ (← nested.body))

def implementationMember (nested : Nested) : Reader Tokens := do
  let start ← get
  let attributes ← attributeTokens nested
  let (visibility, shown) ← visibility
  let default ←
    if (← atWord "default") && !(← past 1 (atMark "!")) then word "default"
    else pure []
  let found ←
    if ← functionAhead then implementedFunction nested
    else if ← atWord "const" then constant nested true
    else if ← atWord "type" then do
      let member ← typeMember nested .behindTarget
      pure (member.target?.map fun _ =>
        member.headTokens ++ member.targetTokens ++
          member.generics.whereTokens ++ Tokens.mark ';')
    else if visibility == .inherited && default.isEmpty && (← callAhead) then
      do pure (some (← macroMember))
    else unexpected
  orAsWritten start (attributes ++ shown ++ default) found

def foreignFunction (nested : Nested) : Reader (Option Tokens) := do
  let (head, isSafe) ← foreignQualifiers
  let rest ← signatureRest nested
  if ← atOpening .curly then
    let _ ← nested.body
    return none
  else
    let semicolon ← mark ";"
    return if isSafe then none else some (head ++ rest ++ semicolon)

def foreignMember (nested : Nested) : Reader Tokens := do
  let start ← get
  let attributes ← attributeTokens nested
  let (visibility, shown) ← visibility
  let found ←
    if ← foreignFunctionAhead then foreignFunction nested
    else if ← atWord "static" then do
      let (tokens, hasValue) ← typedStatic nested
      pure (if hasValue then none else some tokens)
    else if (← atOneOf ["unsafe", "safe"]) && (← past 1 (atWord "static")) then
      do
        let _ ← anyWord
        let _ ← typedStatic nested
        pure none
    else if ← atWord "type" then do
      let member ← typeMember nested .either
      pure (if member.bounds.isSome || member.target.isSome then none
        else some (member.headTokens ++ member.generics.whereTokens ++
          Tokens.mark ';'))
    else if visibility == .inherited && (← callAhead) then
      do pure (some (← macroMember))
    else unexpected
  orAsWritten start (attributes ++ shown) found

end RecordMasking.Code.Reader

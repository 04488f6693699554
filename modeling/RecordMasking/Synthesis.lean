import RecordMasking.Artifact
import RecordMasking.Code.Reader.Files
import RecordMasking.Config
import RecordMasking.MaskCode
import RecordMasking.MaskTable

/-!
# Synthesis

The table of a model becomes the code of its mask.  Every field is bound to a
variable, its own name or one made from its position; a cleared field is not
bound.  The variable is kept, handed over or taken apart again according to
the decision for the field.

Names and paths become code only when they read as such.  A position that
does not fit 32 bits has no place in code at all, and ends a run.
-/

namespace RecordMasking

open Code

/-- Why a mask is not synthesized. -/
inductive SynthesisFailure where
  | fault (fault : Fault)
  /-- A tuple position beyond those that code can name. -/
  | positionOverflow (index : Nat)
deriving DecidableEq, Repr

/-- Positions in code stay below the greatest number of 32 bits. -/
def memberBound : Nat := UInt32.size - 1

/-- A path as it is printed, or a fault of the type it is needed for. -/
def pathTokens (type : QualifiedName) (text : String) : Except Fault Tokens :=
  match readPath text with
  | .ok tokens => .ok tokens
  | .error detail => .error (.unsupportedType type (.invalidPath text detail))

/-- The path of a declared type in code. -/
def typePath (config : Config) (type : QualifiedName) : Except Fault Tokens :=
  pathTokens type
    ("::".intercalate (config.crateRoot :: type.segments ++ [type.name]))

/-- The constructor of a declared type in code. -/
def constructorOf (config : Config) (type : QualifiedName) :
    Except Fault Constructor := do
  return ⟨type, ← typePath config type⟩

/-- The member and the variable of a field. -/
def bindingOf (owner : QualifiedName) :
    FieldName → Except Fault (FieldName × String)
  | .named text =>
      match readName text with
      | .ok name => .ok (.named name, name)
      | .error _ => .error (.unsupportedType owner (.invalidFieldName text))
  | .position index => .ok (.position index, "field_" ++ toString index)

def checkMember : FieldName → Except SynthesisFailure Unit
  | .position index =>
      if index < memberBound then .ok () else .error (.positionOverflow index)
  | .named _ => .ok ()

/-- What a block does to one member: its part of the pattern and its value. -/
structure MemberCode where
  member : FieldName
  binding? : Option String
  value : MaskTerm

/-- The block that rebuilds a record member by member. -/
def MemberCode.block (source : String) (constructor : Constructor)
    (members : List MemberCode) : MaskTerm :=
  .rebuild source constructor
    (members.map fun code => (code.member, code.binding?))
    (members.map fun code => (code.member, code.value))

namespace Schema

def liftFault {α : Type} : Except Fault α → Except SynthesisFailure α
  | .ok value => .ok value
  | .error fault => .error (.fault fault)

mutual

/-- The value of a member whose field is bound to a variable. -/
def valueCode (schema : Schema) (config : Config) (binding : String) :
    Decision → Except SynthesisFailure MaskTerm
  | .clear => .ok .default
  | .delegate _ => .ok (.masked binding)
  | .keep => .ok (.bound binding)
  | .rebuild type entries => do
      let declaration ← liftFault (schema.declarationOf type)
      let constructor ← liftFault (constructorOf config type)
      let members ←
        schema.memberCodes config declaration.id declaration.fields entries
      return MemberCode.block binding constructor members
termination_by structural decision => decision

/-- The code of the fields of a record, each with its entry. -/
def memberCodes (schema : Schema) (config : Config) (owner : QualifiedName)
    (fields : List Field) :
    List (FieldName × Decision) → Except SynthesisFailure (List MemberCode)
  | [] => .ok []
  | (_, decision) :: entries =>
      match fields with
      | [] => .ok []
      | field :: fields => do
          let (member, name) ← liftFault (bindingOf owner field.name)
          let value ← schema.valueCode config name decision
          checkMember member
          let rest ← schema.memberCodes config owner fields entries
          let binding? := if decision.isClear then none else some name
          return ⟨member, binding?, value⟩ :: rest
termination_by structural entries => entries

end

end Schema

/-- The lifetimes of a declaration, without their quotes. -/
def lifetimeNames (declaration : Declaration) : Except Fault (List String) :=
  declaration.lifetimes.mapM fun text =>
    match readLifetime text with
    | .ok name => .ok name
    | .error detail =>
        .error (.unsupportedType declaration.id (.invalidLifetime text detail))

/-- The parameters of an implementation, when there are any. -/
def lifetimeParams (names : List String) : Tokens :=
  if names.isEmpty then []
  else
    Tokens.mark '<' ++ Tokens.commaSeparated (names.map Tokens.lifetime) ++
      Tokens.mark '>'

/-- The implementation of the masking trait with the given body. -/
def implementationTokens (runtime path params body : Tokens) : Tokens :=
  Tokens.mark '#' ++
    Tokens.inBrackets .square (Tokens.word "automatically_derived") ++
    Tokens.word "impl" ++ params ++ runtime ++ Tokens.pathSeparator ++
    Tokens.word "Mask" ++ Tokens.word "for" ++ path ++ params ++
    Tokens.inBrackets .curly
      (Tokens.word "fn" ++ Tokens.word "mask" ++
        Tokens.inBrackets .round (Tokens.word "self") ++
        Tokens.operator ['-', '>'] ++ Tokens.word "Self" ++ body)

/-- The text of an artifact: two lines of comment and the code. -/
def artifactText (type : QualifiedName) (paths : PathSet) (code : Tokens) :
    String :=
  "// @generated by masking-codegen from " ++ type.display ++
    ". Do not edit.\n// masked: " ++ ", ".intercalate paths.display ++ "\n" ++
    code.render ++ "\n"

/-- A table and its code. -/
structure Synthesis where
  table : MaskTable
  artifact : Artifact

namespace Schema

/-- The body of the mask of a declaration. -/
def maskBody (schema : Schema) (config : Config) (declaration : Declaration)
    (table : MaskTable) : Except SynthesisFailure MaskTerm := do
  let members ←
    schema.memberCodes config declaration.id declaration.fields table.entries
  return MemberCode.block "self" ⟨declaration.id, Tokens.word "Self"⟩ members

def renderMask (schema : Schema) (config : Config) (declaration : Declaration)
    (table : MaskTable) (paths : PathSet) :
    Except SynthesisFailure String := do
  let runtime ← liftFault (pathTokens declaration.id config.runtimePath)
  let path ← liftFault (typePath config declaration.id)
  let params := lifetimeParams (← liftFault (lifetimeNames declaration))
  let body ← schema.maskBody config declaration table
  return artifactText declaration.id paths
    (implementationTokens runtime path params (body.tokens runtime))

/-- The table and the artifact of a declaration with the given masked
paths. -/
def synthesize (schema : Schema) (config : Config) (declaration : Declaration)
    (paths : PathSet) : Except SynthesisFailure Synthesis := do
  if !declaration.generics.isEmpty then
    .error (.fault (.unsupportedType declaration.id .genericType))
  let table ← liftFault (schema.decide declaration.id paths)
  let text ← schema.renderMask config declaration table paths
  return ⟨table, ⟨declaration.id.maskKey, declaration.id, text⟩⟩

end Schema

end RecordMasking

import RecordMasking.Code.Params

/-!
# Derives

There are two derives.  One implements the model marker for a structure, the
other only registers the sensitive attribute; both check the attributes of
the fields and assert that every sensitive type has a default.  The attribute
is written bare, at most once at each field, and never at the type itself.

An assertion stands outside the parameters of the structure, apart from its
lifetimes, so it is left out for a type that mentions one of the others.
-/

namespace RecordMasking

open Code

inductive DeriveKind where
  | model
  | sensitive
deriving DecidableEq, Repr

def DeriveKind.name : DeriveKind → String
  | .model => "Model"
  | .sensitive => "Sensitive"

inductive DeriveFault where
  | markedContainer
  | enumeration (kind : DeriveKind)
  | union (kind : DeriveKind)
  | repeatedMark
  | markWithArguments
  | markWithValue
  | nothingSensitive
  /-- The crate of the marker has a name that cannot be written in code. -/
  | unnamableRoot (name : String)
deriving DecidableEq, Repr

def DeriveFault.message : DeriveFault → String
  | .markedContainer => "#[sensitive] belongs on fields, not on the type"
  | .enumeration kind =>
      "`" ++ kind.name ++ "` can only be derived for structs"
  | .union kind => "`" ++ kind.name ++ "` cannot be derived for unions"
  | .repeatedMark =>
      "multiple #[sensitive] attributes specified on the same field"
  | .markWithArguments =>
      "#[sensitive] takes no arguments; masked fields are reset to their " ++
        "default value"
  | .markWithValue => "name-value syntax is not supported for #[sensitive]"
  | .nothingSensitive =>
      "`Sensitive` has no effect without at least one #[sensitive] field"
  | .unnamableRoot name => "`" ++ name ++ "` cannot be written as a name"

structure DeriveError where
  fault : DeriveFault
  start : Position

def isMark (attr : Attribute) : Bool :=
  attr.isNamed "sensitive"

/-- Whether a field is marked, when `seen` tells that an earlier attribute
marks it. -/
def readMarks (seen : Bool) : List Attribute → Except DeriveError Bool
  | [] => .ok seen
  | attr :: rest =>
      if isMark attr then
        match attr.form with
        | .bare =>
            if seen then .error ⟨.repeatedMark, attr.start⟩
            else readMarks true rest
        | .list _ _ => .error ⟨.markWithArguments, attr.start⟩
        | .valued _ => .error ⟨.markWithValue, attr.start⟩
      else readMarks seen rest

mutual

/-- Whether a type names one of the given parameters, as far as it is looked
into: at the start of a path, in the arguments of its last segment unless that
is a phantom, and in the parts of a compound type. -/
def mentions (params : List String) : TypeExpr → Bool
  | .path _ segments => startsWith params segments || mentionsLast params segments
  | .qualified inner _ trait rest =>
      mentions params inner || startsWith params (trait ++ rest) ||
        if rest.isEmpty then mentionsLast params trait
        else mentionsLast params rest
  | .paren inner => mentions params inner
  | .reference _ _ inner => mentions params inner
  | .array element _ => mentions params element
  | .slice element => mentions params element
  | .tuple elements _ => mentionsAny params elements
  | .bound _ _ => false
  | .other _ => false

def startsWith (params : List String) : List Segment → Bool
  | [] => false
  | segment :: _ => params.contains segment.name

def mentionsAny (params : List String) : List TypeExpr → Bool
  | [] => false
  | type :: rest => mentions params type || mentionsAny params rest

def mentionsLast (params : List String) : List Segment → Bool
  | [] => false
  | [segment] => mentionsSegment params segment
  | _ :: next :: rest => mentionsLast params (next :: rest)

def mentionsSegment (params : List String) : Segment → Bool
  | .mk name arguments =>
      if name = "PhantomData" then false else mentionsIn params arguments

def mentionsIn (params : List String) : Arguments → Bool
  | .none => false
  | .angled _ arguments _ => mentionsArguments params arguments

def mentionsArguments (params : List String) : List Argument → Bool
  | [] => false
  | argument :: rest =>
      mentionsArgument params argument || mentionsArguments params rest

def mentionsArgument (params : List String) : Argument → Bool
  | .type type => mentions params type
  | .lifetime _ => false
  | .other _ => false

end

/-! ## Assertions -/

def markedFields : List FieldItem → Except DeriveError (List FieldItem)
  | [] => .ok []
  | field :: rest => do
      let marked ← readMarks false field.attributes
      let others ← markedFields rest
      return if marked then field :: others else others

/-- The marked fields whose type can be named outside the parameters. -/
def assertedFields (generics : Generics) (marked : List FieldItem) :
    List FieldItem :=
  marked.filter fun field => !mentions generics.typeNames field.type

def assertDefaultName : String := "__masking_assert_default"

def assertFieldsName : String := "__masking_assert_fields"

def assertionTokens (type : TypeExpr) : Tokens :=
  Tokens.word assertDefaultName ++ Tokens.pathSeparator ++ Tokens.mark '<' ++
    type.tokens ++ Tokens.mark '>' ++ Tokens.inBrackets .round [] ++
    Tokens.mark ';'

def assertionsTokens (generics : Generics) (asserted : List FieldItem) :
    Tokens :=
  if asserted.isEmpty then []
  else
    let require :=
      Tokens.word "fn" ++ Tokens.word assertDefaultName ++ Tokens.mark '<' ++
        Tokens.word "T" ++ Tokens.mark ':' ++ Tokens.pathSeparator ++
        Tokens.ofPath ["core", "default", "Default"] ++ Tokens.mark '>' ++
        Tokens.inBrackets .round [] ++ Tokens.inBrackets .curly []
    let calls :=
      Tokens.word "fn" ++ Tokens.word assertFieldsName ++
        generics.lifetimeTokens ++ Tokens.inBrackets .round [] ++
        Tokens.inBrackets .curly
          (asserted.flatMap fun field => assertionTokens field.type)
    Tokens.mark '#' ++
      Tokens.inBrackets .square
        (Tokens.word "allow" ++
          Tokens.inBrackets .round (Tokens.word "dead_code")) ++
      Tokens.word "const" ++ Tokens.word "_" ++ Tokens.mark ':' ++
      Tokens.inBrackets .round [] ++ Tokens.mark '=' ++
      Tokens.inBrackets .curly (require ++ calls) ++ Tokens.mark ';'

/-! ## Expansion -/

/-- The implementation of the model marker, whose crate has the given name. -/
def markerTokens (root : String) (input : DeriveInput) : Tokens :=
  Tokens.word "impl" ++ input.generics.angled GenericParam.bareTokens ++
    Tokens.pathSeparator ++ Tokens.ofPath [root, "Model"] ++
    Tokens.word "for" ++ Tokens.word input.name ++
    input.generics.angled GenericParam.argumentTokens ++
    input.generics.whereTokens ++ Tokens.inBrackets .curly []

def structFields (kind : DeriveKind) (input : DeriveInput) :
    Except DeriveError (List FieldItem) :=
  match input.attributes.find? isMark with
  | some attr => .error ⟨.markedContainer, attr.start⟩
  | none =>
      match input.body with
      | .record fields => .ok fields.toList
      | .enumeration start => .error ⟨.enumeration kind, start⟩
      | .union start => .error ⟨.union kind, start⟩

def expand (kind : DeriveKind) (root : String) (input : DeriveInput) :
    Except DeriveError Tokens := do
  let fields ← structFields kind input
  let marked ← markedFields fields
  let assertions :=
    assertionsTokens input.generics (assertedFields input.generics marked)
  match kind with
  | .model =>
      if isWritableName root then return markerTokens root input ++ assertions
      else .error ⟨.unnamableRoot root, input.start⟩
  | .sensitive =>
      if marked.isEmpty then .error ⟨.nothingSensitive, input.start⟩
      else return assertions

end RecordMasking

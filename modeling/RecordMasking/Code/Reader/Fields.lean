import RecordMasking.Code.Reader.Types

/-!
# Reading fields

The declarations of structures, enumerations and unions with their fields.
Each is answered with how it is printed; a visibility that is written at a
variant is not printed.
-/

namespace RecordMasking.Code.Reader

/-- A where clause, when there is one. -/
def whereClause (nested : Nested) : Reader Tokens := do
  return Generics.whereTokens { predicates := ← predicates nested }

/-- A value that is given by an equals sign, when there is one. -/
def given? (value : Reader Tokens) : Reader Tokens := do
  if ← atMark "=" then
    let equal ← mark "="
    return equal ++ (← value)
  else return []

def genericsTokens (params : Generics) : Tokens :=
  params.angled GenericParam.tokens

/-! ## Fields -/

/-- The place of a type, which is that of its first printed token: a binder in
front of a macro call is not printed. -/
def typePlace (nested : Nested) : Reader Position := fun input =>
  match callPlace input with
  | .ok (place, _) => .ok (place, input)
  | .error _ => position input
where
  callPlace : Reader Position := do
    let _ ← binder? nested
    let place ← position
    let _ ← plainPath
    let _ ← macroCall
    return place

def unnamedField (nested : Nested) : Reader (FieldItem × Tokens) := do
  let attributes ← outerAttributes nested
  let (visibility, shown) ← visibility
  let start ← typePlace nested
  let type ← nested.type true
  return (⟨attributes, visibility, none, start, type⟩,
    attributesTokens attributes ++ shown ++ type.tokens)

/-- A field with a name.  Behind an underscore, fields in curly brackets may
stand for a type. -/
def namedField (nested : Nested) : Reader (FieldItem × Tokens) := do
  let attributes ← outerAttributes nested
  let (visibility, shown) ← visibility
  let start ← position
  let hidden ← atWord "_"
  let text ← if hidden then anyWord else name
  let colon ← mark ":"
  let type ←
    if hidden && ((← atWord "struct") ||
        ((← atWord "union") && (← past 1 (atOpening .curly)))) then do
      pure (.other (← nested.fields))
    else nested.type true
  return (⟨attributes, visibility, some text, start, type⟩,
    attributesTokens attributes ++ shown ++ Tokens.word text ++ colon ++
      type.tokens)

/-- Fields in brackets, with commas between them. -/
def fieldsIn (bracket : Bracket) (field : Reader (FieldItem × Tokens)) :
    Reader (List FieldItem × Tokens) := do
  let (found, trailing) ← bracketed bracket (commas field)
  return (found.map Prod.fst,
    Tokens.inBrackets bracket (commaTokens (found.map Prod.snd) trailing))

def unnamedFields (nested : Nested) : Reader (List FieldItem × Tokens) :=
  fieldsIn .round (unnamedField nested)

def namedFields (nested : Nested) : Reader (List FieldItem × Tokens) :=
  fieldsIn .curly (namedField nested)

/-- Fields in curly brackets behind the keyword that they stand for a type
with, as they are written. -/
def fieldsType (nested : Nested) : Reader Tokens :=
  verbatim do
    let _ ← anyWord
    let _ ← namedFields nested

/-! ## Structures -/

/-- What follows the parameters of a structure: its fields, the parameters
with its predicates, and how it is printed.  The where clause stands before
curly brackets and behind round ones. -/
def recordBody (nested : Nested) (params : Generics) :
    Reader (FieldList × Generics × Tokens) := do
  if ← atOpening .round then
    let (fields, shown) ← unnamedFields nested
    let whole := { params with predicates := ← predicates nested }
    return (.unnamed fields, whole,
      shown ++ whole.whereTokens ++ (← mark ";"))
  else
    let whole := { params with predicates := ← predicates nested }
    if ← atOpening .curly then
      let (fields, shown) ← namedFields nested
      return (.named fields, whole, whole.whereTokens ++ shown)
    else return (.unit, whole, whole.whereTokens ++ (← mark ";"))

/-- A structure behind its attributes and its visibility. -/
def record (nested : Nested) (attributes : List Attribute) :
    Reader (RecordItem × Tokens) := do
  let head ← word "struct"
  let start ← position
  let text ← name
  let params ← generics nested
  let (fields, whole, shown) ← recordBody nested params
  return (⟨attributes, text, start, whole, fields⟩,
    head ++ Tokens.word text ++ genericsTokens params ++ shown)

/-! ## Enumerations and unions -/

/-- The name of a type with the place of it, and its parameters with their
predicates. -/
structure TypeHead where
  name : String
  start : Position
  generics : Generics

def TypeHead.tokens (head : TypeHead) : Tokens :=
  Tokens.word head.name ++ genericsTokens head.generics ++
    head.generics.whereTokens

/-- The head of a type whose where clause stands before its fields. -/
def typeHead (nested : Nested) : Reader TypeHead := do
  let start ← position
  let text ← name
  let params ← generics nested
  let clause ← predicates nested
  return ⟨text, start, { params with predicates := clause }⟩

def variant (nested : Nested) : Reader Tokens := do
  let attributes ← attributeTokens nested
  let _ ← visibility
  let text ← name
  let fields ←
    if ← atOpening .curly then do pure (← namedFields nested).2
    else if ← atOpening .round then do pure (← unnamedFields nested).2
    else pure []
  let value ← given? do return (← nested.term true).tokens
  return attributes ++ Tokens.word text ++ fields ++ value

/-- An enumeration behind its attributes and its visibility. -/
def enumeration (nested : Nested) : Reader (TypeHead × Tokens) := do
  let keyword ← word "enum"
  let head ← typeHead nested
  let (variants, trailing) ← bracketed .curly (commas (variant nested))
  return (head, keyword ++ head.tokens ++
    Tokens.inBrackets .curly (commaTokens variants trailing))

def union (nested : Nested) : Reader (TypeHead × Tokens) := do
  let keyword ← word "union"
  let head ← typeHead nested
  let (_, shown) ← namedFields nested
  return (head, keyword ++ head.tokens ++ shown)

end RecordMasking.Code.Reader

import RecordMasking.Code.Item
import RecordMasking.Code.Operator
import RecordMasking.Code.Reader

/-!
# Nested readers

Types, terms, patterns and blocks contain one another.  Each of their readers
is written over the readers for what is nested inside it, so that none of
them refers to itself; the readers of all depths are tied together in
`RecordMasking.Code.Reader.Files`.  Attributes are the first case: the value
of an attribute may be a term.

What is read is kept as it is printed.  A form that has no printed shape of
its own is kept as it is written instead.
-/

namespace RecordMasking.Code

/-- What a term is at its top, as far as its neighbours depend on it. -/
inductive PhraseKind where
  | plain
  | range
  | comparison
  /-- A block or a term that ends in one and can stand as a statement. -/
  | closed
  | curlyCall
  | verbatim
deriving DecidableEq, Repr

structure Phrase where
  tokens : Tokens
  kind : PhraseKind := .plain
  /-- Whether its first operand is kept as it is written, and so takes no
  attributes. -/
  bare : Bool := false

/-- The term with attributes before its first operand.  A range is put between
brackets behind them. -/
def Phrase.withAttributes (phrase : Phrase) (attributes : Tokens) : Phrase :=
  if attributes.isEmpty || phrase.bare then phrase
  else if phrase.kind = .range then
    { phrase with
      tokens := attributes ++ Tokens.inBrackets .round phrase.tokens }
  else { phrase with tokens := attributes ++ phrase.tokens }

inductive PatternKind where
  | plain
  /-- A range of values without one of its ends. -/
  | openRange
  | verbatim
deriving DecidableEq, Repr

structure PatternPhrase where
  tokens : Tokens
  kind : PatternKind := .plain

/-- The readers for what is nested one level deeper. -/
structure Nested where
  /-- A type; a plus sign may join it to further bounds or not. -/
  type : Bool → Reader TypeExpr
  /-- An argument of a path, between angle brackets. -/
  argument : Reader Argument
  genericParam : Reader GenericParam
  /-- A term; a structure literal may occur in it or not. -/
  term : Bool → Reader Phrase
  /-- A term without binary operators. -/
  operand : Bool → Reader Phrase
  rightOperand : Bool → Precedence → Reader Phrase
  arms : Reader Tokens
  /-- A pattern without alternatives. -/
  simplePattern : Reader PatternPhrase
  pattern : Reader PatternPhrase
  block : Reader Tokens
  /-- A block with its brackets, possibly with attributes at its start. -/
  body : Reader Tokens
  /-- Fields that stand for a type, with the keyword before them. -/
  fields : Reader Tokens
  /-- The tree of an import, or nothing when one of its parts starts at the
  root, and how it is printed; whether parts may start there is given. -/
  importTree : Bool → Reader (Option ImportTree × Tokens)
  item : Reader (Item × Tokens)

namespace Nested

def none : Nested where
  type _ := Reader.unexpected
  argument := Reader.unexpected
  genericParam := Reader.unexpected
  term _ := Reader.unexpected
  operand _ := Reader.unexpected
  rightOperand _ _ := Reader.unexpected
  arms := Reader.unexpected
  simplePattern := Reader.unexpected
  pattern := Reader.unexpected
  block := Reader.unexpected
  body := Reader.unexpected
  fields := Reader.unexpected
  importTree _ := Reader.unexpected
  item := Reader.unexpected

end Nested

namespace Reader

/-- The readers one after another, their tokens joined. -/
def inOrder (readers : List (Reader Tokens)) : Reader Tokens := do
  return (← readers.mapM id).flatten

def commaTokens (parts : List Tokens) (trailing : Bool) : Tokens :=
  CommaPart.allTokens (CommaPart.ofParts trailing parts)

/-- Words that name a module on the way and may begin or continue a path. -/
def pathWords : List String := ["super", "self", "Self", "crate"]

/-- A path without arguments. -/
def plainPath : Reader (Bool × List String) := do
  let rooted ← atMark "::"
  let _ ← mark? "::"
  let segments ← repeated do
    let segment ← if ← atOneOf pathWords then anyWord else name
    let goesOn ← atMark "::"
    let _ ← mark? "::"
    return (segment, goesOn)
  return (rooted, segments)

def plainPathTokens (rooted : Bool) (segments : List String) : Tokens :=
  (if rooted then Tokens.pathSeparator else []) ++ Tokens.ofPath segments

/-- What a macro is called with: its bracket, and its tokens from the
exclamation mark on. -/
def macroCall : Reader (Bracket × Tokens) := do
  let head ← mark "!"
  let (bracket, inner) ← anyGroup
  return (bracket, head ++ Tokens.inBrackets bracket (lexemeTokens inner))

/-! ## Attributes -/

def attributeBody (nested : Nested) :
    Reader (Bool × List String × AttributeForm) := do
  let (rooted, path) ←
    if ← atWord "unsafe" then pure (false, [← anyWord]) else plainPath
  match ← peek with
  | some (.opening _) =>
      let (bracket, inner) ← anyGroup
      return (rooted, path, .list bracket inner)
  | _ =>
      if ← atMark "=" then
        let _ ← mark "="
        if (← atMark "#") && (← past 1 (atOpening .square)) then
          refuse "unexpected attribute inside of attribute"
        let value ← either (do
            let value ← literal
            if ← atEnd then return value else unexpected)
          (do return (← nested.term true).tokens)
        return (rooted, path, .valued value)
      else
        return (rooted, path, .bare)

def outerAttribute (nested : Nested) : Reader Attribute := do
  let start ← position
  let _ ← mark "#"
  let (rooted, path, form) ← bracketed .square (attributeBody nested)
  return ⟨start, rooted, path, form⟩

def outerAttributes (nested : Nested) : Reader (List Attribute) :=
  many do
    if ← atMark "#" then return some (← outerAttribute nested)
    else return none

def attributesTokens (attributes : List Attribute) : Tokens :=
  attributes.flatMap Attribute.tokens

/-- The attributes before something, as they are printed. -/
def attributeTokens (nested : Nested) : Reader Tokens := do
  return attributesTokens (← outerAttributes nested)

def innerAttributes (nested : Nested) : Reader Tokens := do
  let found ← many do
    if (← atMark "#") && (← past 1 (atMark "!")) then
      let start ← position
      let _ ← mark "#"
      let _ ← mark "!"
      let (rooted, path, form) ← bracketed .square (attributeBody nested)
      return some (Attribute.innerTokens ⟨start, rooted, path, form⟩)
    else return none
  return found.flatten

/-! ## Visibilities -/

/-- A path to which `in` restricts a visibility. -/
def restriction : Reader (List String × Tokens) := do
  let head ← word "in"
  let (rooted, path) ← plainPath
  return (path, head ++ plainPathTokens rooted path)

def shortRestriction : Reader (List String × Tokens) := do
  if ← atOneOf ["crate", "self", "super"] then
    let text ← anyWord
    return ([text], Tokens.word text)
  else unexpected

/-- A visibility, and how it is printed. -/
def visibility : Reader (Visibility × Tokens) := do
  if ← atWord "pub" then
    let head ← word "pub"
    if ← startsIn then
      let (path, tokens) ← bracketed .round restriction
      return (.restricted path, head ++ Tokens.inBrackets .round tokens)
    else
      match ← optional (bracketed .round shortRestriction) with
      | some (path, tokens) =>
          return (.restricted path, head ++ Tokens.inBrackets .round tokens)
      | none => return (.everywhere, head)
  else return (.inherited, [])
where
  startsIn : Reader Bool := do
    match ← get with
    | ⟨.opening .round, _⟩ :: second :: _ => return isWordIn ["in"] second.token
    | _ => return false

end Reader

end RecordMasking.Code

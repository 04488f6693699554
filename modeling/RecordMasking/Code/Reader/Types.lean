import RecordMasking.Code.Params
import RecordMasking.Code.Reader.Nested

/-!
# Reading types

Types, the paths and bounds inside them, and the generic parameters of a
declaration.  A bound that holds in constants, a type of the compiler's own
and a few parameters of function types have no printed shape and are kept as
they are written.
-/

namespace RecordMasking.Code.Reader

/-- A term that is an argument of a path: a literal, a name or a block. -/
def constArgument (nested : Nested) : Reader Tokens := do
  if ← atLiteral then literal
  else if ← atName then return Tokens.word (← name)
  else if ← atOpening .curly then nested.body
  else unexpected

/-- Parts with plus signs between them, and one at the end if there is. -/
def plusTokens (parts : List Tokens) (trailing : Bool) : Tokens :=
  match parts with
  | [] => []
  | [part] => part ++ if trailing then Tokens.mark '+' else []
  | part :: rest => part ++ Tokens.mark '+' ++ plusTokens rest trailing

/-- Values with plus signs between them, none where `stop` holds. -/
def plusUntil (stop : Reader Bool) (value : Reader Tokens) : Reader Tokens := do
  if ← stop then return []
  else
    let (parts, trailing) ← joined "+" (do return !(← stop)) value
    return plusTokens parts trailing

/-- The type of a result, when there is one. -/
def result? (nested : Nested) (plus : Bool) : Reader Tokens := do
  if ← atMark "->" then
    let arrow ← mark "->"
    return arrow ++ (← nested.type plus).tokens
  else return []

def lifetimeTokens : Reader Tokens := do
  return Tokens.lifetime (← lifetime)

/-! ## Paths -/

def angled (nested : Nested) : Reader Arguments := do
  let turbofish ← atMark "::"
  let _ ← mark? "::"
  let _ ← mark "<"
  let (arguments, trailing) ←
    punctuated "," (atMark ">") nested.argument
  let _ ← mark ">"
  return .angled turbofish arguments trailing

/-- A segment of a path.  In a term its arguments need the double colon. -/
def segment (nested : Nested) (inTerm : Bool) : Reader Segment := do
  if ← atOneOf ["super", "self", "crate", "try"] then
    return .mk (← anyWord) .none
  else
    let text ← if ← atWord "Self" then anyWord else name
    if (!inTerm && (← atMark "<") && !(← atMark "<=") && !(← atMark "<<=")) ||
        ((← atMark "::") && (← past 2 (atMark "<"))) then
      return .mk text (← angled nested)
    else
      return .mk text .none

/-- Segments with double colons between them; a round bracket behind a
double colon is left. -/
def segments (nested : Nested) (inTerm : Bool) : Reader (List Segment) :=
  repeated do
    let found ← segment nested inTerm
    if (← atMark "::") && !(← past 2 (atOpening .round)) then
      let _ ← mark "::"
      return (found, true)
    else
      return (found, false)

def path (nested : Nested) (inTerm : Bool) : Reader (Bool × List Segment) := do
  let rooted ← atMark "::"
  let _ ← mark? "::"
  return (rooted, ← segments nested inTerm)

def segmentsBehind (nested : Nested) (inTerm : Bool) :
    Reader (List Segment) :=
  repeated do
    let found ← segment nested inTerm
    if ← atMark "::" then
      let _ ← mark "::"
      return (found, true)
    else
      return (found, false)

/-- A path, or one that starts at a type. -/
def qualifiedPath (nested : Nested) (inTerm : Bool) : Reader TypeExpr := do
  if ← atMark "<" then
    let _ ← mark "<"
    let inner ← nested.type true
    if ← atWord "as" then
      let _ ← word "as"
      let (rooted, trait) ← path nested false
      let _ ← mark ">"
      let _ ← mark "::"
      return .qualified inner rooted trait (← segmentsBehind nested inTerm)
    else
      let _ ← mark ">"
      let _ ← mark "::"
      return .qualified inner false [] (← segmentsBehind nested inTerm)
  else
    let (rooted, found) ← path nested inTerm
    return .path rooted found

/-! ## Bounds -/

def binder? (nested : Nested) : Reader (Option (List GenericParam × Bool)) := do
  if ← atWord "for" then
    let _ ← word "for"
    let _ ← mark "<"
    let params ← punctuated "," (atMark ">") nested.genericParam
    let _ ← mark ">"
    return some params
  else return none

def binderTokens : Option (List GenericParam × Bool) → Tokens
  | none => []
  | some (params, trailing) =>
      Tokens.word "for" ++ Tokens.mark '<' ++
        commaTokens (params.map GenericParam.tokens) trailing ++ Tokens.mark '>'

/-- The arguments of a trait that is written as a function. -/
def functionArguments (nested : Nested) : Reader Tokens := do
  let (types, trailing) ← bracketed .round (commas (nested.type true))
  let result ← result? nested false
  return Tokens.inBrackets .round
      (commaTokens (types.map TypeExpr.tokens) trailing) ++ result

/-- The segments with the last one without arguments, when it has none between
its angle brackets. -/
def withoutArguments? : List Segment → Option (List Segment)
  | [] => none
  | [.mk text .none] => some [.mk text .none]
  | [.mk text (.angled _ [] _)] => some [.mk text .none]
  | [_] => none
  | head :: next :: rest => (withoutArguments? (next :: rest)).map (head :: ·)

/-- The path of a trait, possibly written as a function. -/
def traitPath (nested : Nested) : Reader Tokens := do
  let (rooted, found) ← path nested false
  let called := (← atOpening .round) ||
    ((← atMark "::") && (← past 2 (atOpening .round)))
  match called, withoutArguments? found with
  | true, some bare =>
      let _ ← mark? "::"
      return TypeExpr.tokens (.path rooted bare) ++ (← functionArguments nested)
  | _, _ => return TypeExpr.tokens (.path rooted found)

/-- The word that lets a bound hold in constants, possibly in square brackets;
tells whether it is there. -/
def constness? (allowed : Bool) : Reader Bool := do
  let bracketed? ← atOpening .square
  if bracketed? || (← atWord "const") then
    let _ ← if bracketed? then bracketed .square (word "const") else word "const"
    if allowed then return true else unexpected
  else return false

/-- A trait behind a binder or a question mark, and whether it holds in
constants. -/
def traitBound (nested : Nested) (const : Bool) : Reader (Tokens × Bool) := do
  let binder ← binder? nested
  let constant ← constness? const
  let maybe ← mark? "?"
  let path ← traitPath nested
  if binder.isSome && !maybe.isEmpty then
    refuse "a binder and a question mark exclude each other"
  return (binderTokens binder ++ maybe ++ path, constant)

structure BoundRules where
  const : Bool := false
  capture : Bool := false

/-- The captures of an abstract type, lifetimes first. -/
def captures : Reader Tokens := do
  let head ← word "use"
  let _ ← mark "<"
  let (found, trailing) ← punctuated "," (atMark ">") do
    if ← atLifetime then return (true, ← lifetimeTokens)
    else if ← atWord "Self" then return (false, Tokens.word (← anyWord))
    else return (false, Tokens.word (← name))
  let _ ← mark ">"
  let parts := (found.map Prod.fst).zip
    (CommaPart.ofParts trailing (found.map Prod.snd))
  return head ++ Tokens.mark '<' ++
    CommaPart.join
      ((parts.filter fun part => part.1).map Prod.snd)
      ((parts.filter fun part => !part.1).map Prod.snd) ++
    Tokens.mark '>'

/-- A bound, and whether it is a trait.  One that holds in constants is kept
as it is written. -/
def bound (nested : Nested) (rules : BoundRules) : Reader (Tokens × Bool) := do
  if ← atLifetime then return (← lifetimeTokens, false)
  else if ← atWord "use" then
    if rules.capture then return (← captures, false) else unexpected
  else
    let start ← get
    let enclosed ← atOpening .round
    let inner := traitBound nested rules.const
    let (tokens, constant) ←
      if enclosed then bracketed .round inner else inner
    if constant then return (← takenSince start, true)
    else if enclosed then return (Tokens.inBrackets .round tokens, true)
    else return (tokens, true)

def boundAhead (rules : BoundRules) : Reader Bool := do
  return (← atAnyWord) || (← atMark "::") || (← atMark "?") ||
    (← atLifetime) || (← atOpening .round) ||
    (rules.const && (← atOpening .square))

/-- The bounds of a trait object or an abstract type; one of them has to be
a trait. -/
def traitBounds (nested : Nested) (plus : Bool) (rules : BoundRules) :
    Reader Tokens := do
  let (found, trailing) ←
    if plus then joined "+" (boundAhead rules) (bound nested rules)
    else pure ([← bound nested rules], false)
  if found.any Prod.snd then
    return plusTokens (found.map Prod.fst) trailing
  else refuse "at least one trait is required for an object type"

/-- The bounds that follow a first bound in round brackets, one behind each
plus sign. -/
def boundsBehind (nested : Nested) (first : Tokens) : Reader Tokens := do
  if ← atMark "+" then
    let _ ← mark "+"
    let (found, trailing) ← joined "+" (pure true) (bound nested {})
    return plusTokens (first :: found.map Prod.fst) trailing
  else return first

/-- The bounds behind a plus sign that follows a first bound. -/
def furtherBounds (nested : Nested) (first : Tokens) : Reader Tokens := do
  let _ ← mark "+"
  if ← boundAhead {} then
    let (found, trailing) ← joined "+" (boundAhead {}) (bound nested {})
    return plusTokens (first :: found.map Prod.fst) trailing
  else return plusTokens [first] true

/-! ## Types -/

/-- An argument of a path: a lifetime, a term, a type, a type given to an
associated name, or bounds on one. -/
def argument (nested : Nested) : Reader Argument := do
  if (← atLifetime) && !(← past 1 (atMark "+")) then
    return .lifetime (← lifetime)
  else if (← atLiteral) || (← atOpening .curly) then
    return .other (← constArgument nested)
  else
    match ← nested.type true with
    | .path false [.mk text arguments] =>
        let head := Segment.tokens (.mk text arguments)
        if ← atMark "=" then
          let _ ← mark "="
          let value ←
            if (← atLiteral) || (← atOpening .curly) then constArgument nested
            else do pure (← nested.type true).tokens
          return .other (head ++ Tokens.mark '=' ++ value)
        else if ← atMark ":" then
          let _ ← mark ":"
          let bounds ← plusUntil (do return (← atMark ",") || (← atMark ">"))
            (do return (← bound nested ⟨true, false⟩).1)
          return .other (head ++ Tokens.mark ':' ++ bounds)
        else return .type (.path false [.mk text arguments])
    | type => return .type type

/-- The binary interface that a function or a block keeps to. -/
def interface? : Reader Tokens := do
  if ← atWord "extern" then
    let head ← word "extern"
    if ← atText then return head ++ (← textLiteral) else return head
  else return []

/-- The head of a function type, from its qualifiers to the keyword. -/
def functionHead : Reader Tokens :=
  inOrder [word? "unsafe", interface?, word "fn"]

/-- The name of a parameter with its colon, when there is one; only the first
parameter may be named `self`. -/
def label (first : Bool) : Reader Tokens := do
  if ((← atName) || (← atWord "_") || (first && (← atWord "self"))) &&
      (← past 1 (atMark ":")) && !(← past 1 (atMark "::")) then
    let text ← anyWord
    let colon ← mark ":"
    return Tokens.word text ++ colon
  else return []

/-- Dots for further arguments, possibly with a name. -/
def atDots : Reader Bool := do
  return (← atMark "...") ||
    (((← atName) || (← atWord "_")) && (← past 1 (atMark ":")) &&
      (← past 2 (atMark "...")))

/-- A parameter of a function type with the comma behind it, and whether
another one follows.  Dots end the list. -/
def functionParam (nested : Nested) (first : Bool) :
    Reader (Tokens × Bool) := do
  let attributes ← attributeTokens nested
  if ← atDots then
    let text ← label false
    let dots ← mark "..."
    return (attributes ++ text ++ dots ++ (← mark? ","), false)
  else
    let start ← get
    let kind ←
      if first && (← atMutableSelf) then do
        let _ ← word "mut"
        if (← label true).isEmpty then
          let _ ← word "self"
        else
          let _ ← nested.type true
        takenSince start
      else do
        let ownName ← atWord "self"
        let text ← label first
        if first && !ownName && (← atMutableSelf) then
          let _ ← inOrder [word "mut", word "self"]
          takenSince start
        else
          pure (text ++ (← nested.type true).tokens)
    if ← atEnd then return (attributes ++ kind, false)
    else
      let comma ← mark ","
      return (attributes ++ kind ++ comma, !(← atEnd))
where
  atMutableSelf : Reader Bool := do
    return (← atWord "mut") && (← past 1 (atWord "self"))

def functionParams (nested : Nested) : Reader Tokens := do
  if ← atEnd then return []
  else
    let (first, goesOn) ← functionParam nested true
    if goesOn then
      return first ++ (← repeated (functionParam nested false)).flatten
    else return first

def functionType (nested : Nested) : Reader Tokens := do
  let head ← functionHead
  let params ← bracketed .round (functionParams nested)
  let result ← result? nested false
  return head ++ Tokens.inBrackets .round params ++ result

/-- What stands between round brackets: a tuple, a type, or the first of
several bounds. -/
def roundType (nested : Nested) (plus : Bool) : Reader TypeExpr := do
  if ← inside atEnd then
    let _ ← bracketed .round (pure ())
    return .tuple [] false
  else if ← inside atLifetime then
    let bounds ← bracketed .round (traitBounds nested true {})
    return .paren (.other bounds)
  else if ← inside (atMark "?") then
    let (first, _) ← bracketed .round (traitBound nested false)
    if ← atMark "+" then
      return .other (← boundsBehind nested (Tokens.inBrackets .round first))
    else return .bound true first
  else
    let (types, trailing) ← bracketed .round (commas (nested.type true))
    match types, trailing with
    | [type], false =>
        match firstBound? type, plus && (← atMark "+") with
        | some first, true =>
            return .other
              (← boundsBehind nested (Tokens.inBrackets .round first))
        | _, _ => return .paren type
    | _, _ => return .tuple types trailing
where
  inside (look : Reader Bool) : Reader Bool := fun input =>
    match look input.tail with
    | .ok (answer, _) => .ok (answer, input)
    | .error complaint => .error complaint
  /-- The bound that a type is, without its own brackets. -/
  firstBound? : TypeExpr → Option Tokens
    | .path rooted found => some (TypeExpr.tokens (.path rooted found))
    | .bound _ tokens => some tokens
    | _ => none

/-- A type that starts with a path: the path, a macro, or bounds. -/
def pathType (nested : Nested) (plus : Bool)
    (binder : Option (List GenericParam × Bool)) : Reader TypeExpr := do
  match ← qualifiedPath nested false with
  | .path rooted found =>
      let plain := found.all fun s => s.arguments.isNone
      let tokens := TypeExpr.tokens (.path rooted found)
      if plain && (← atMark "!") && !(← atMark "!=") then
        let _ ← mark "!"
        let (bracket, inner) ← anyGroup
        return .other (tokens ++ Tokens.mark '!' ++
          Tokens.inBrackets bracket (lexemeTokens inner))
      else if plus && (← atMark "+") then
        return .other (← furtherBounds nested (binderTokens binder ++ tokens))
      else if binder.isSome then
        return .bound false (binderTokens binder ++ tokens)
      else return .path rooted found
  | type => return type

def builtin : Reader Unit := do
  let _ ← word "builtin"
  let _ ← mark "#"
  let _ ← name
  let _ ← bracketed .round restOfGroup

def builtinAhead : Reader Bool := do
  return (← atWord "builtin") && (← past 1 (atMark "#"))

def type (nested : Nested) (plus : Bool) : Reader TypeExpr := do
  let start ← get
  let binder ← binder? nested
  if ← builtinAhead then
    builtin
    return .other (← takenSince start)
  else if binder.isSome then
    if ← atOneOf ["fn", "unsafe", "extern"] then
      return .other (binderTokens binder ++ (← functionType nested))
    else if (← atName) || (← atOneOf pathWords) then
      pathType nested plus binder
    else unexpected
  else if ← atOpening .round then roundType nested plus
  else if ← atOneOf ["fn", "unsafe", "extern"] then
    return .other (← functionType nested)
  else if (← atName) || (← atOneOf pathWords) || (← atMark "::") ||
      (← atMark "<") then
    pathType nested plus none
  else if ← atWord "dyn" then
    let head ← word "dyn"
    let star ← mark? "*"
    let bounds ← traitBounds nested plus {}
    if star.isEmpty then return .other (head ++ bounds)
    else return .other (← takenSince start)
  else if ← atOpening .square then
    bracketed .square do
      let element ← nested.type true
      if ← atMark ";" then
        let _ ← mark ";"
        return .array element (← nested.term true).tokens
      else return .slice element
  else if ← atMark "*" then
    let head ← mark "*"
    let kind ← if ← atWord "const" then word "const" else word "mut"
    return .other (head ++ kind ++ (← nested.type false).tokens)
  else if ← atMark "&" then
    let _ ← mark "&"
    let lifetime ←
      if ← atLifetime then do pure (some (← lifetime)) else pure none
    let mutable ← atWord "mut"
    let _ ← word? "mut"
    return .reference lifetime mutable (← nested.type false)
  else if ← atMark "!" then return .other (← mark "!")
  else if ← atWord "impl" then
    let head ← word "impl"
    return .other (head ++ (← traitBounds nested plus ⟨true, true⟩))
  else if ← atWord "_" then return .other (← word "_")
  else if ← atLifetime then return .other (← traitBounds nested true {})
  else unexpected

/-! ## Generic parameters -/

/-- A generic parameter.  A declaration may leave the name of a type out. -/
def genericParam (nested : Nested) (nameless : Bool) : Reader GenericParam := do
  let attributes ← attributeTokens nested
  let closes := do return (← atMark ",") || (← atMark ">")
  if ← atLifetime then
    let text ← lifetime
    let bounds ←
      if ← atMark ":" then do
        let _ ← mark ":"
        plusUntil closes lifetimeTokens
      else pure []
    return .lifetime attributes text bounds
  else if ← atWord "const" then
    let _ ← word "const"
    let text ← name
    let _ ← mark ":"
    let type ← nested.type true
    let default ←
      if ← atMark "=" then do
        let _ ← mark "="
        constArgument nested
      else pure []
    return .const attributes text type.tokens default
  else if nameless && (← atWord "_") then
    return .type attributes (← anyWord) [] []
  else
    let text ← name
    let bounds ←
      if ← atMark ":" then do
        let _ ← mark ":"
        plusUntil (do return (← closes) || (← atMark "="))
          (do return (← bound nested ⟨true, false⟩).1)
      else pure []
    let default ←
      if ← atMark "=" then do
        let _ ← mark "="
        pure (← nested.type true).tokens
      else pure []
    return .type attributes text bounds default

/-- The generic parameters of a declaration, when there are some. -/
def generics (nested : Nested) : Reader Generics := do
  if ← atMark "<" then
    let _ ← mark "<"
    let (params, trailing) ←
      punctuated "," (atMark ">") (genericParam nested true)
    let _ ← mark ">"
    return { params := params, trailing := trailing }
  else return {}

def predicateStop : Reader Bool := do
  return (← atEnd) || (← atOpening .curly) || (← atMark ",") ||
    (← atMark ";") || ((← atMark ":") && !(← atMark "::")) || (← atMark "=")

def predicate (nested : Nested) : Reader Tokens := do
  if (← atLifetime) && (← past 1 (atMark ":")) then
    let text ← lifetimeTokens
    let _ ← mark ":"
    return text ++ Tokens.mark ':' ++
      (← plusUntil predicateStop lifetimeTokens)
  else
    let binder ← binder? nested
    let bounded ← nested.type true
    let _ ← mark ":"
    let bounds ← plusUntil predicateStop
      (do return (← bound nested ⟨true, false⟩).1)
    return binderTokens binder ++ bounded.tokens ++ Tokens.mark ':' ++ bounds

/-- Whether angle brackets open generic parameters rather than a qualified
type. -/
def paramsAhead : Reader Bool := do
  return (← atMark "<") &&
    ((← past 1 (atMark ">")) || (← past 1 (atMark "#")) ||
      (← past 1 (atWord "const")) ||
      (((← past 1 atName) || (← past 1 atLifetime)) &&
        ((← past 2 (atMark ",")) || (← past 2 (atMark ">")) ||
          (← past 2 (atMark "=")) ||
          ((← past 2 (atMark ":")) && !(← past 2 (atMark "::"))))))

/-- The predicates of a where clause, when there is one. -/
def predicates (nested : Nested) : Reader Tokens := do
  if ← atWord "where" then
    let _ ← word "where"
    if ← paramsAhead then
      refuse "generic parameters on `where` clauses are reserved for future use"
    let (found, trailing) ← punctuatedLoose (predicate nested)
    return commaTokens found trailing
  else return []
where
  /-- Stops behind a predicate that no comma follows. -/
  punctuatedLoose (value : Reader Tokens) : Reader (List Tokens × Bool) := do
    if ← predicateStop then return ([], false)
    else joined "," (do return !(← predicateStop)) value

end RecordMasking.Code.Reader

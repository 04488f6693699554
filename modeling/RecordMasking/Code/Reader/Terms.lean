import RecordMasking.Code.Reader.Patterns

/-!
# Reading terms

An operand is an atom with its trailers, behind signs; operators join
operands as tightly as they bind.  Of terms only the tokens are kept: no term
changes what a record type declares, but its tokens are part of the text of a
type, and a malformed one makes the whole source unreadable.
-/

namespace RecordMasking.Code.Reader

def phrase (tokens : Tokens) : Phrase := { tokens := tokens }

def closedPhrase (tokens : Tokens) : Phrase :=
  { tokens := tokens, kind := .closed }

def verbatimPhrase (tokens : Tokens) : Phrase :=
  { tokens := tokens, kind := .verbatim, bare := true }

def termTokens (nested : Nested) : Reader Tokens := do
  return (← nested.term true).tokens

/-! ## Trailers -/

def arguments (nested : Nested) (bracket : Bracket) : Reader Tokens := do
  let (parts, trailing) ← bracketed bracket (commas (termTokens nested))
  return Tokens.inBrackets bracket (commaTokens parts trailing)

/-- The members behind a dot that a number stands for: its parts between
points are positions. -/
def positions (dot : Tokens) (text : String) : Reader Tokens := do
  let found := (text.splitOn ".").map position?
  if found.any Option.isNone then refuse "expected a position"
  else
    return found.flatMap fun position =>
      dot ++ position.toList.map fun n => .literal (toString n)

def memberOrCall (nested : Nested) (dot : Tokens) : Reader Tokens := do
  if ← atWord "await" then return dot ++ (← word "await")
  else
    let (text, isName) ← member
    let generic ←
      if isName && (← atMark "::") then do
        pure (Arguments.tokens (← angled nested))
      else pure []
    if !generic.isEmpty || (isName && (← atOpening .round)) then
      return dot ++ text ++ generic ++ (← arguments nested .round)
    else return dot ++ text

/-- One call, member, index or question mark behind a term. -/
def trailer? (nested : Nested) : Reader (Option Tokens) := do
  if ← atOpening .round then return some (← arguments nested .round)
  else if ← atOpening .square then
    let index ← bracketed .square (termTokens nested)
    return some (Tokens.inBrackets .square index)
  else if ← atMark "?" then return some (← mark "?")
  else if (← atMark ".") && !(← atMark "..") then
    let dot ← mark "."
    match ← peek with
    | some (.literal text) =>
        if !startsNumber text then unexpected
        let _ ← next
        if text.toList.getLast? = some '.' then
          let head ← positions dot (text.dropEnd 1).toString
          return some (head ++ (← memberOrCall nested dot))
        else return some (← positions dot text)
    | _ => return some (← memberOrCall nested dot)
  else return none

/-- A term with its trailers; a range has none. -/
def trailers (nested : Nested) (head : Phrase) : Reader Phrase := do
  if head.kind = .range then return head
  else
    let behind ← many (trailer? nested)
    if behind.isEmpty then return head
    else return phrase (head.tokens ++ behind.flatten)

/-! ## Paths -/

def fieldTerm (nested : Nested) : Reader Tokens := do
  let attributes ← attributeTokens nested
  let (text, isName) ← member
  if !isName || (← atMark ":") then
    let colon ← mark ":"
    return attributes ++ text ++ colon ++ (← termTokens nested)
  else return attributes ++ text

/-- The members of a structure literal; dots, with a term behind them or not,
end them. -/
def fieldTerms (nested : Nested) : Reader Tokens := do
  let found ← many do
    if ← atEnd then return none
    else if ← atMark ".." then
      let dots ← mark ".."
      if ← atEnd then return some dots
      else
        let base ← termTokens nested
        if ← atEnd then return some (dots ++ base) else unexpected
    else
      let field ← fieldTerm nested
      let comma ← if ← atEnd then pure [] else mark ","
      return some (field ++ comma)
  return found.flatten

/-- A path, a macro call or a structure literal. -/
def pathTerm (nested : Nested) (literals : Bool) : Reader Phrase := do
  let type ← qualifiedPath nested true
  let tokens := type.tokens
  if isPlainPath type && (← atMark "!") && !(← atMark "!=") then
    let (bracket, call) ← macroCall
    let kind : PhraseKind := if bracket = .curly then .curlyCall else .plain
    return { tokens := tokens ++ call, kind := kind }
  else if literals && (← atOpening .curly) then
    let fields ← bracketed .curly (fieldTerms nested)
    return phrase (tokens ++ Tokens.inBrackets .curly fields)
  else return phrase tokens

/-! ## Closures -/

def closureParam (nested : Nested) : Reader Tokens := do
  let attributes ← attributeTokens nested
  let bound ← simplePattern nested
  if ← atMark ":" then
    let colon ← mark ":"
    return attributes ++ bound.tokens ++ colon ++ (← nested.type true).tokens
  else if bound.kind = .verbatim then return bound.tokens
  else return attributes ++ bound.tokens

def closure (nested : Nested) (literals : Bool) : Reader Tokens := do
  let binder ← binder? nested
  let modifiers ←
    inOrder [word? "const", word? "static", word? "async", word? "move"]
  let _ ← mark "|"
  let (params, trailing) ← punctuated "," (atMark "|") (closureParam nested)
  let _ ← mark "|"
  let head := binderTokens binder ++ modifiers ++ Tokens.mark '|' ++
    commaTokens params trailing ++ Tokens.mark '|'
  if ← atMark "->" then
    let result ← result? nested true
    return head ++ result ++ (← nested.block)
  else return head ++ (← nested.term literals).tokens

/-- Whether generic parameters stand behind the next word. -/
def binderAhead : Reader Bool := do
  return (← atWord "for") && (← past 1 paramsAhead)

def closureAhead : Reader Bool := do
  return (← atMark "|") || (← atOneOf ["move", "static"]) || (← binderAhead) ||
    ((← atWord "const") && !(← past 1 (atOpening .curly))) ||
    ((← atWord "async") &&
      ((← past 1 (atMark "|")) || (← past 1 (atWord "move"))))

/-! ## Terms that end in a block -/

def conditional (nested : Nested) : Reader Tokens := do
  let clauses ← repeated do
    let head ← word "if"
    let condition ← nested.term false
    let consequence ← nested.block
    let clause := head ++ condition.tokens ++ consequence
    if ← atWord "else" then
      let otherwise ← word "else"
      if ← atWord "if" then return (clause ++ otherwise, true)
      else return (clause ++ otherwise ++ (← nested.block), false)
    else return (clause, false)
  return clauses.flatten

def loopTerm (nested : Nested) : Reader Tokens := do
  if ← atWord "while" then
    let head ← word "while"
    let condition ← nested.term false
    return head ++ condition.tokens ++ (← nested.body)
  else if ← atWord "for" then
    let head ← word "for"
    let bound ← patternTokens nested
    let link ← word "in"
    let source ← nested.term false
    return head ++ bound ++ link ++ source.tokens ++ (← nested.body)
  else
    let head ← word "loop"
    return head ++ (← nested.body)

/-- Whether a term stands here that ends in a block and can be a statement. -/
def closedAhead : Reader Bool := do
  return (← atOneOf ["if", "while", "loop", "match", "unsafe"]) ||
    ((← atWord "for") && !(← binderAhead)) ||
    ((← atOneOf ["try", "const"]) && (← past 1 (atOpening .curly))) ||
    (← atOpening .curly) || (← atLifetime)

def closedTerm (nested : Nested) : Reader Tokens := do
  if ← atWord "if" then conditional nested
  else if ← atOneOf ["while", "for", "loop"] then loopTerm nested
  else if ← atWord "match" then
    let head ← word "match"
    let subject ← nested.term false
    let inner ← bracketed .curly (inOrder [innerAttributes nested, nested.arms])
    return head ++ subject.tokens ++ Tokens.inBrackets .curly inner
  else if ← atWord "try" then
    let head ← word "try"
    return head ++ (← nested.block)
  else if ← atOneOf ["unsafe", "const"] then
    let head := Tokens.word (← anyWord)
    return head ++ (← nested.body)
  else if ← atLifetime then
    let label ← lifetimeTokens
    let colon ← mark ":"
    if ← atOneOf ["while", "for", "loop"] then
      return label ++ colon ++ (← loopTerm nested)
    else return label ++ colon ++ (← nested.body)
  else nested.body

/-! ## Jumps -/

def termAhead : Reader Bool := do
  return ((← atAnyWord) && !(← atWord "as")) || (← atOpening .round) ||
    (← atOpening .square) || (← atOpening .curly) || (← atLiteral) ||
    ((← atMark "!") && !(← atMark "!=")) ||
    ((← atMark "-") && !(← atMark "-=") && !(← atMark "->")) ||
    ((← atMark "*") && !(← atMark "*=")) ||
    ((← atMark "|") && !(← atMark "|=")) ||
    ((← atMark "&") && !(← atMark "&=")) || (← atMark "..") ||
    ((← atMark "<") && !(← atMark "<=") && !(← atMark "<<=")) ||
    (← atMark "::") || (← atLifetime) || (← atMark "#")

/-- The value of a jump, when there is one. -/
def value? (nested : Nested) : Reader Tokens := do
  if ← termAhead then termTokens nested else return []

def label? : Reader Tokens := do
  if ← atLifetime then lifetimeTokens else return []

/-- The end of a loop or a block.  No block is its value where no structure
literal may occur, and no labelled one at all. -/
def leave (nested : Nested) (literals : Bool) : Reader Tokens := do
  let head ← word "break"
  let label ← label?
  if !label.isEmpty && (← atMark ":") then
    refuse "parentheses required"
  if !literals && (← atOpening .curly) then return head ++ label
  else return head ++ label ++ (← value? nested)

/-! ## Operands -/

def bracketTerm (nested : Nested) : Reader Tokens := do
  let inner ← bracketed .square do
    if ← atEnd then return []
    else
      let first ← termTokens nested
      if ← atMark ";" then
        let semicolon ← mark ";"
        return first ++ semicolon ++ (← termTokens nested)
      else if ← atEnd then return first
      else
        let comma ← mark ","
        let (rest, trailing) ← commas (termTokens nested)
        return first ++ comma ++ commaTokens rest trailing
  return Tokens.inBrackets .square inner

/-- The dots of a range with its end, when there is one. -/
def rangeRest (nested : Nested) (literals : Bool) : Reader Tokens := do
  let (dots, isClosed) ← rangeMark
  if !isClosed && (← ends) then return dots
  else return dots ++ (← nested.rightOperand literals .range).tokens
where
  /-- Whether no end stands behind the dots. -/
  ends : Reader Bool := do
    let operators ←
      ["=", "+", "/", "%", "^", ">", "<=", "!=", "-=", "*=", "&=", "|=", "<<=",
        ",", ";", "?", "=>"].anyM atMark
    return operators || (← atEnd) || (← atWord "as") ||
      ((← atMark ".") && !(← atMark "..")) ||
      (!literals && (← atOpening .curly))

def binding (nested : Nested) (literals : Bool) : Reader Tokens := do
  let head ← word "let"
  let bound ← patternTokens nested
  let equal ← mark "="
  return head ++ bound ++ equal ++
    (← nested.rightOperand literals .binding).tokens

/-- A term that is no operator's result. -/
def atom (nested : Nested) (literals : Bool) : Reader Phrase := do
  if ← atLiteral then return phrase (← literal)
  else if (← atWord "async") && ((← past 1 (atOpening .curly)) ||
      ((← past 1 (atWord "move")) && (← past 2 (atOpening .curly)))) then
    let head ← inOrder [word "async", word? "move"]
    return phrase (head ++ (← nested.block))
  else if ← closureAhead then return phrase (← closure nested literals)
  else if ← builtinAhead then return verbatimPhrase (← verbatim builtin)
  else if (← atName) || (← atMark "::") || (← atMark "<") ||
      (← atOneOf pathWords) || ((← atWord "try") &&
        ((← past 1 (atMark "!")) || (← past 1 (atMark "::")))) then
    pathTerm nested literals
  else if ← atOpening .round then return phrase (← arguments nested .round)
  else if ← atWord "break" then return phrase (← leave nested literals)
  else if ← atWord "continue" then
    return phrase (← inOrder [word "continue", label?])
  else if ← atOneOf ["return", "yield"] then
    let head := Tokens.word (← anyWord)
    return phrase (head ++ (← value? nested))
  else if ← atWord "become" then
    let tokens ← verbatim do
      let _ ← word "become"
      nested.term true
    return verbatimPhrase tokens
  else if ← atOpening .square then return phrase (← bracketTerm nested)
  else if ← atWord "let" then return phrase (← binding nested literals)
  else if ← closedAhead then return closedPhrase (← closedTerm nested)
  else if ← atMark ".." then
    return { tokens := ← rangeRest nested literals, kind := .range }
  else if ← atWord "_" then return phrase (← word "_")
  else complain "expected an expression"

/-- What stands between the sign of a reference and its operand. -/
def referenceModifier : Reader Tokens := do
  if (← atWord "raw") &&
      ((← past 1 (atWord "mut")) || (← past 1 (atWord "const"))) then
    let raw := Tokens.word (← anyWord)
    return raw ++ Tokens.word (← anyWord)
  else word? "mut"

/-- A term without binary operators: signs, an atom and its trailers. -/
def operand (nested : Nested) (literals : Bool) : Reader Phrase := do
  let start ← get
  let attributes ← attributeTokens nested
  if ← atMark "&" then
    let head ← inOrder [mark "&", referenceModifier]
    return phrase
      (attributes ++ head ++ (← nested.operand literals).tokens)
  else if (← atMark "*") || (← atMark "!") || (← atMark "-") then
    let head ←
      if ← atMark "*" then mark "*" else if ← atMark "!" then mark "!"
      else mark "-"
    return phrase
      (attributes ++ head ++ (← nested.operand literals).tokens)
  else
    let whole ← trailers nested (← atom nested literals)
    match whole.kind with
    | .verbatim => return { whole with tokens := ← takenSince start }
    | .range =>
        if attributes.isEmpty then return whole
        else refuse "attributes are not allowed on range expressions"
    | _ => return whole.withAttributes attributes

/-! ## Operators -/

def operator? : Reader (Option (String × Precedence)) :=
  operators.findM? fun operator => atMark operator.1

def assignmentAhead : Reader Bool := do
  return (← atMark "=") && !(← atMark "=>")

def nextPrecedence : Reader Precedence := do
  match ← operator? with
  | some (_, precedence) => return precedence
  | none =>
      if ← assignmentAhead then return .assignment
      else if ← atMark ".." then return .range
      else if ← atWord "as" then return .cast
      else return .loosest

/-- A conversion behind its first operand; no trailer follows it. -/
def conversion (nested : Nested) (left : Phrase) : Reader Phrase := do
  let head ← word "as"
  let type ← nested.type false
  if ((← atMark ".") && !(← atMark "..")) || (← atMark "?") ||
      (← atOpening .square) || (← atOpening .round) then
    refuse "casts cannot be followed by a trailer"
  return { tokens := left.tokens ++ head ++ type.tokens, bare := left.bare }

/-- The next operator that is as tight as a base, with its right operand.  No
operator follows a range, and comparisons do not follow each other. -/
def operation? (nested : Nested) (literals : Bool) (base : Precedence)
    (left : Phrase) : Reader (Option Phrase) := do
  let precedence ← nextPrecedence
  if left.kind = .range || precedence = .loosest ||
      !base.admits precedence then return none
  else
    match ← operator? with
    | some (text, precedence) =>
        if precedence = .comparison && left.kind = .comparison then
          refuse "comparison operators cannot be chained"
        let sign ← mark text
        let right ← nested.rightOperand literals precedence
        return some
          { tokens := left.tokens ++ sign ++ right.tokens
            kind := if precedence = .comparison then .comparison else .plain
            bare := left.bare }
    | none =>
        if precedence = .assignment then
          let sign ← mark "="
          let right ← nested.rightOperand literals .assignment
          return some
            { tokens := left.tokens ++ sign ++ right.tokens, bare := left.bare }
        else if precedence = .range then
          let rest ← rangeRest nested literals
          return some { tokens := left.tokens ++ rest, kind := .range }
        else return some (← conversion nested left)

/-- Repeats a step on a value until it answers nothing, at most once for each
lexeme. -/
def extended {α : Type} (step : α → Reader (Option α)) (first : α) :
    Reader α :=
  fun input => go input first input
where
  go : List Lexeme → α → Reader α
    | [], value => do
        match ← step value with
        | none => return value
        | some _ => unexpected
    | _ :: steps, value => do
        match ← step value with
        | none => return value
        | some next => go steps next

/-- A first operand with the operators behind it that are as tight as a
base. -/
def operations (nested : Nested) (literals : Bool) (base : Precedence)
    (first : Phrase) : Reader Phrase :=
  extended (operation? nested literals base) first

/-- The right operand of an operator: all that binds tighter than it. -/
def rightOperand (nested : Nested) (literals : Bool)
    (precedence : Precedence) : Reader Phrase := do
  let step := fun left : Phrase => do
    let next ← nextPrecedence
    if precedence.yieldsTo next && left.kind != .range then
      return some (← operations nested literals next left)
    else return none
  extended step (← operand nested literals)

def term (nested : Nested) (literals : Bool) : Reader Phrase := do
  operations nested literals .loosest (← operand nested literals)

/-- A term at the start of a statement or an arm.  One that ends in a block
goes on only behind a dot or a question mark. -/
def leadingTerm (nested : Nested) : Reader Phrase := do
  let attributes ← attributeTokens nested
  if ← closedAhead then
    let head := closedPhrase (← closedTerm nested)
    if ((← atMark ".") && !(← atMark "..")) || (← atMark "?") then
      let whole ← trailers nested head
      operations nested true .loosest (whole.withAttributes attributes)
    else return head.withAttributes attributes
  else
    let head ← operand nested true
    operations nested true .loosest (head.withAttributes attributes)

/-! ## Arms -/

/-- An arm of a choice by patterns.  Its comma can be left out at the end and
behind a term that ends in a block. -/
def arm (nested : Nested) : Reader Tokens := do
  let attributes ← attributeTokens nested
  let bound ← patternTokens nested
  let guard ←
    if ← atWord "if" then inOrder [word "if", termTokens nested] else pure []
  let arrow ← mark "=>"
  let result ← leadingTerm nested
  let comma ←
    if result.kind = .closed || (← atEnd) then mark? "," else mark ","
  return attributes ++ bound ++ guard ++ arrow ++ result.tokens ++ comma

def arms (nested : Nested) : Reader Tokens := do
  return (← untilEnd (arm nested)).flatten

end RecordMasking.Code.Reader

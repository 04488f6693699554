import RecordMasking.Code.Reader.Terms

/-!
# Reading statements

A block is a sequence of statements: bindings, items, macro calls, terms and
lone semicolons.  A term needs a semicolon behind it unless it ends in a block
or the enclosing block ends there.
-/

namespace RecordMasking.Code.Reader

/-! ## What a statement starts with -/

/-- Whether a macro call with curly brackets stands here that is a statement
of its own. -/
def callStatementAhead : Reader Bool :=
  ahead do
    let _ ← plainPath
    let (bracket, _) ← macroCall
    let goesOn := ((← atMark ".") && !(← atMark "..")) || (← atMark "?")
    if bracket ≠ .curly || goesOn then unexpected

def namedCallAhead : Reader Bool :=
  ahead do
    let _ ← plainPath
    let _ ← mark "!"
    if !((← atName) || (← atWord "try")) then unexpected

def constItemAhead : Reader Bool := do
  return (← atWord "const") && !((← past 1 (atOpening .curly)) ||
    (← past 1 (atOneOf ["static", "move"])) || (← past 1 (atMark "|")) ||
    ((← past 1 (atWord "async")) &&
      !(← past 2 (atOneOf ["unsafe", "extern", "fn"]))))

def itemAhead : Reader Bool := do
  return (← atOneOf ["pub", "extern", "use", "fn", "mod", "type", "struct",
      "enum", "trait", "impl", "macro"]) ||
    ((← atWord "crate") && !(← past 1 (atMark "::"))) ||
    ((← atWord "static") &&
      ((← past 1 (atWord "mut")) || (← past 1 atName))) ||
    (← constItemAhead) ||
    ((← atWord "unsafe") && !(← past 1 (atOpening .curly))) ||
    ((← atWord "async") &&
      (← past 1 (atOneOf ["unsafe", "extern", "fn"]))) ||
    ((← atWord "union") && (← past 1 atName)) ||
    ((← atWord "auto") && (← past 1 (atWord "trait"))) ||
    ((← atWord "default") && (← past 1 (atOneOf ["unsafe", "impl"]))) ||
    (← namedCallAhead)

/-! ## Statements -/

/-- What a binding binds its names to.  A block for the other case does not
follow a term that ends in a block. -/
def boundValue? (nested : Nested) : Reader Tokens := do
  if ← atMark "=" then
    let equal ← mark "="
    let value ← termTokens nested
    if value.getLast? ≠ some (.closing .curly) && (← atWord "else") then
      let otherwise ← word "else"
      return equal ++ value ++ otherwise ++ (← nested.block)
    else return equal ++ value
  else return []

def bindingStatement (nested : Nested) : Reader Tokens := do
  let head ← word "let"
  let bound ← simplePattern nested
  let type ←
    if ← atMark ":" then do
      let colon ← mark ":"
      pure (colon ++ (← nested.type true).tokens)
    else pure []
  let value ← boundValue? nested
  return head ++ bound.tokens ++ type ++ value ++ (← mark ";")

/-- A statement, and whether it has to be the last one of its block. -/
def statement (nested : Nested) : Reader (Tokens × Bool) := do
  let start ← get
  let attributes ← attributeTokens nested
  if ← callStatementAhead then
    let (rooted, path) ← plainPath
    let (_, call) ← macroCall
    return (attributes ++ plainPathTokens rooted path ++ call ++
      (← mark? ";"), false)
  else if ← atWord "let" then
    return (attributes ++ (← bindingStatement nested), false)
  else if ← itemAhead then
    set start
    return ((← nested.item).2, false)
  else
    let result := (← leadingTerm nested).withAttributes attributes
    let semicolon ← mark? ";"
    let isWhole := result.kind = .closed || result.kind = .curlyCall
    return (result.tokens ++ semicolon, semicolon.isEmpty && !isWhole)

def statements (nested : Nested) : Reader Tokens := do
  let found ← untilEnd do
    if ← atMark ";" then mark ";"
    else
      let (tokens, isLast) ← statement nested
      if isLast && !(← atEnd) then complain "expected `;`"
      return tokens
  return found.flatten

def block (nested : Nested) : Reader Tokens := do
  return Tokens.inBrackets .curly (← bracketed .curly (statements nested))

/-- A block with the attributes of what it belongs to at its start. -/
def body (nested : Nested) : Reader Tokens := do
  let inner ← bracketed .curly <|
    inOrder [innerAttributes nested, statements nested]
  return Tokens.inBrackets .curly inner

end RecordMasking.Code.Reader

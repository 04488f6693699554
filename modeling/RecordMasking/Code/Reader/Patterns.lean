import RecordMasking.Code.Reader.Types

/-!
# Reading patterns

A pattern without alternatives, and alternatives with bars between them.  A
range of values may lack its end, or its start, but is not closed then; where
it stands in square brackets it lacks neither, unless brackets or bars set it
off.
-/

namespace RecordMasking.Code.Reader

/-! ## Members -/

/-- The name or the position of a member, and whether it is a name. -/
def member : Reader (Tokens × Bool) := do
  match ← peek with
  | some (.literal text) =>
      match position? text with
      | some n =>
          let _ ← next
          return ([.literal (toString n)], false)
      | none => refuse "expected a position"
  | _ => return (Tokens.word (← name), true)

/-! ## Ranges -/

/-- The dots of a range, and whether its end belongs to it. -/
def rangeMark : Reader (Tokens × Bool) := do
  if ← atMark "..=" then return (← mark "..=", true)
  else if ← atMark "..." then unexpected
  else return (← mark "..", false)

/-- The dots of a range of values; three of them are an old spelling of a
range with its end. -/
def patternRangeMark : Reader (Tokens × Bool) := do
  if ← atMark "..." then
    let _ ← mark "..."
    return (Tokens.operator ['.', '.', '='], true)
  else rangeMark

def rangeBound (nested : Nested) : Reader Tokens := do
  if ← atLiteral then literal
  else if ← atWord "const" then
    let head ← word "const"
    return head ++ (← nested.body)
  else if (← atName) || (← atOneOf pathWords) || (← atMark "::") ||
      (← atMark "<") then
    return (← qualifiedPath nested true).tokens
  else unexpected

def atRangeStop : Reader Bool := do
  return (← atEnd) || (← atMark "|") || (← atMark "=") ||
    ((← atMark ":") && !(← atMark "::")) || (← atMark ",") ||
    (← atMark ";") || (← atWord "if")

def rangeBehind (nested : Nested) (start : Tokens) : Reader PatternPhrase := do
  let (dots, isClosed) ← patternRangeMark
  if ← atRangeStop then
    if isClosed then refuse "expected range upper bound"
    else return ⟨start ++ dots, .openRange⟩
  else return ⟨start ++ dots ++ (← rangeBound nested), .plain⟩

/-- A range of values without a start, or what stands for the rest of a
list. -/
def rangeAhead (nested : Nested) : Reader PatternPhrase := do
  let (dots, isClosed) ← rangeMark
  if ← atRangeStop then
    if isClosed then refuse "expected range upper bound"
    else return ⟨dots, .plain⟩
  else return ⟨dots ++ (← rangeBound nested), .openRange⟩

/-! ## Patterns -/

def patternTokens (nested : Nested) : Reader Tokens := do
  return (← nested.pattern).tokens

def fieldPattern (nested : Nested) : Reader Tokens := do
  let modifiers ← inOrder [word? "box", word? "ref", word? "mut"]
  if modifiers.isEmpty then
    let (text, isName) ← member
    if !isName || (← atMark ":") then
      let colon ← mark ":"
      return text ++ colon ++ (← patternTokens nested)
    else return text
  else return modifiers ++ Tokens.word (← name)

/-- The fields of a structure pattern; dots for further ones end them. -/
def fieldPatterns (nested : Nested) : Reader Tokens := do
  let found ← many do
    if ← atEnd then return none
    else
      let attributes ← attributeTokens nested
      if ← atMark ".." then
        let dots ← mark ".."
        if ← atEnd then return some (attributes ++ dots) else unexpected
      else
        let field ← fieldPattern nested
        let comma ← if ← atEnd then pure [] else mark ","
        return some (attributes ++ field ++ comma)
  return found.flatten

/-- Patterns with commas between them, in brackets. -/
def patterns (nested : Nested) (bracket : Bracket)
    (rules : PatternPhrase → Bool) : Reader Tokens := do
  let (parts, trailing) ← bracketed bracket <| commas do
    let item ← nested.pattern
    if rules item then return item.tokens
    else refuse "range pattern is not allowed here"
  return Tokens.inBrackets bracket (commaTokens parts trailing)

def isPlainPath : TypeExpr → Bool
  | .path _ segments => segments.all fun segment => segment.arguments.isNone
  | _ => false

def pathPattern (nested : Nested) : Reader PatternPhrase := do
  let type ← qualifiedPath nested true
  let tokens := type.tokens
  if isPlainPath type && (← atMark "!") && !(← atMark "!=") then
    return ⟨tokens ++ (← macroCall).2, .plain⟩
  else if ← atOpening .curly then
    let fields ← bracketed .curly (fieldPatterns nested)
    return ⟨tokens ++ Tokens.inBrackets .curly fields, .plain⟩
  else if ← atOpening .round then
    return ⟨tokens ++ (← patterns nested .round fun _ => true), .plain⟩
  else if ← atMark ".." then rangeBehind nested tokens
  else return ⟨tokens, .plain⟩

/-- A name that is bound, possibly to what matches a further pattern. -/
def namePattern (nested : Nested) : Reader Tokens := do
  let modifiers ← inOrder [word? "ref", word? "mut"]
  let text ← if ← atWord "self" then anyWord else name
  if ← atMark "@" then
    let link ← mark "@"
    return modifiers ++ Tokens.word text ++ link ++
      (← nested.simplePattern).tokens
  else return modifiers ++ Tokens.word text

/-- Whether a path starts here rather than a name that is bound. -/
def pathPatternAhead : Reader Bool := do
  return ((← atName) && ((← past 1 (atMark "::")) || (← past 1 (atMark "!")) ||
      (← past 1 (atOpening .curly)) || (← past 1 (atOpening .round)) ||
      (← past 1 (atMark "..")))) ||
    ((← atWord "self") && (← past 1 (atMark "::"))) ||
    (← atMark "::") || (← atMark "<") || (← atOneOf ["Self", "super", "crate"])

/-- A pattern without alternatives. -/
def simplePattern (nested : Nested) : Reader PatternPhrase := do
  if ← pathPatternAhead then pathPattern nested
  else if ← atWord "_" then return ⟨← word "_", .plain⟩
  else if ← atWord "box" then
    let tokens ← verbatim do
      let _ ← word "box"
      nested.simplePattern
    return ⟨tokens, .verbatim⟩
  else if (← atMark "-") || (← atLiteral) || (← atWord "const") then
    let start ← rangeBound nested
    if ← atMark ".." then rangeBehind nested start
    else return ⟨start, .plain⟩
  else if (← atName) || (← atOneOf ["ref", "mut", "self"]) then
    return ⟨← namePattern nested, .plain⟩
  else if ← atMark "&" then
    let head ← mark "&"
    let modifier ← word? "mut"
    return ⟨head ++ modifier ++ (← nested.simplePattern).tokens, .plain⟩
  else if ← atOpening .round then
    return ⟨← patterns nested .round fun _ => true, .plain⟩
  else if ← atOpening .square then
    let rules := fun item : PatternPhrase => item.kind != .openRange
    return ⟨← patterns nested .square rules, .plain⟩
  else if ← atMark ".." then rangeAhead nested
  else unexpected

def pattern (nested : Nested) : Reader PatternPhrase := do
  let head ← mark? "|"
  let found ← repeated do
    let item ← simplePattern nested
    if (← atMark "|") && !(← atMark "||") && !(← atMark "|=") then
      return (⟨item.tokens ++ (← mark "|"), item.kind⟩, true)
    else return (item, false)
  match head, found with
  | [], [single] => return single
  | _, _ => return ⟨head ++ found.flatMap PatternPhrase.tokens, .plain⟩

end RecordMasking.Code.Reader

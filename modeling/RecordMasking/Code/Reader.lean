import RecordMasking.Code.Lexer

/-!
# Readers

A reader takes lexemes from the front of a list and answers a value, or
refuses with a complaint and takes nothing.  This file holds the readers of
single tokens, of bracketed groups and of lists with commas.

Two neighbouring marks spell an operator only when the first is joined to
the second, and a shorter operator may be read off the front of a longer one.
-/

namespace RecordMasking.Code

abbrev Reader := StateT (List Lexeme) (Except String)

namespace Reader

def refuse {α : Type} (complaint : String) : Reader α :=
  throw complaint

/-- The complaint about the next token, or about the lack of one. -/
def complain {α : Type} (wanted : String) : Reader α := do
  match ← get with
  | [] => refuse ("unexpected end of input, " ++ wanted)
  | _ => refuse wanted

def unexpected {α : Type} : Reader α :=
  complain "unexpected token"

/-- The first reader, or the second where the first refuses. -/
def either {α : Type} (first second : Reader α) : Reader α := fun input =>
  match first input with
  | .ok result => .ok result
  | .error _ => second input

/-- The value of a reader that does not refuse. -/
def optional {α : Type} (reader : Reader α) : Reader (Option α) := fun input =>
  match reader input with
  | .ok (value, rest) => .ok (some value, rest)
  | .error _ => .ok (none, input)

/-- Whether a reader would succeed; nothing is taken. -/
def ahead {α : Type} (reader : Reader α) : Reader Bool := fun input =>
  match reader input with
  | .ok _ => .ok (true, input)
  | .error _ => .ok (false, input)

def peek : Reader (Option Token) := do
  return (← get).head?.map Lexeme.token

def position : Reader Position := do
  match ← get with
  | lexeme :: _ => return lexeme.start
  | [] => return {}

/-- Whether nothing is left of the enclosing group. -/
def atEnd : Reader Bool := do
  match ← peek with
  | none => return true
  | some (.closing _) => return true
  | some _ => return false

def next : Reader Token := do
  match ← get with
  | [] => complain "expected a token"
  | lexeme :: rest =>
      set rest
      return lexeme.token

/-- Whether marks spelling an operator stand at the front of the lexemes. -/
def spells : List Char → List Lexeme → Bool
  | [], _ => true
  | [c], ⟨.mark d _, _⟩ :: _ => c == d
  | c :: next :: rest, ⟨.mark d true, _⟩ :: lexemes =>
      c == d && spells (next :: rest) lexemes
  | _, _ => false

def atMark (operator : String) : Reader Bool := do
  return spells operator.toList (← get)

def isWordIn (words : List String) : Token → Bool
  | .word text => words.contains text
  | _ => false

def atWord (word : String) : Reader Bool := do
  return ((← peek).map (isWordIn [word])).getD false

def atOneOf (words : List String) : Reader Bool := do
  return ((← peek).map (isWordIn words)).getD false

def atOpening (bracket : Bracket) : Reader Bool := do
  return (← peek) == some (.opening bracket)

/-- The lexemes behind the first ones; a group counts as one, and so does a
lifetime. -/
def skipTrees : Nat → List Lexeme → List Lexeme
  | 0, lexemes => lexemes
  | count + 1, lexemes => skipTrees count (skipTree 0 lexemes)
where
  skipTree (depth : Nat) : List Lexeme → List Lexeme
    | [] => []
    | ⟨.mark '\'' true, _⟩ :: ⟨.word _, _⟩ :: rest =>
        if depth = 0 then rest else skipTree depth rest
    | ⟨.opening _, _⟩ :: rest => skipTree (depth + 1) rest
    | ⟨.closing bracket, start⟩ :: rest =>
        if depth = 0 then ⟨.closing bracket, start⟩ :: rest
        else if depth = 1 then rest
        else skipTree (depth - 1) rest
    | _ :: rest => if depth = 0 then rest else skipTree depth rest

/-- A look past the first tokens; nothing is taken. -/
def past {α : Type} (count : Nat) (reader : Reader α) : Reader α := fun input =>
  match reader (skipTrees count input) with
  | .ok (value, _) => .ok (value, input)
  | .error complaint => .error complaint

def mark (operator : String) : Reader Tokens := do
  if ← atMark operator then
    modify (List.drop operator.length)
    return Tokens.operator operator.toList
  else
    complain ("expected `" ++ operator ++ "`")

def word (text : String) : Reader Tokens := do
  if ← atWord text then
    modify List.tail
    return Tokens.word text
  else
    complain ("expected `" ++ text ++ "`")

/-- The operator when it stands next, and nothing otherwise. -/
def mark? (operator : String) : Reader Tokens := do
  if ← atMark operator then mark operator else return []

def word? (text : String) : Reader Tokens := do
  if ← atWord text then word text else return []

def keywords : List String :=
  ["_", "abstract", "as", "async", "await", "become", "box", "break", "const",
    "continue", "crate", "do", "dyn", "else", "enum", "extern", "false",
    "final", "fn", "for", "if", "impl", "in", "let", "loop", "macro", "match",
    "mod", "move", "mut", "override", "priv", "pub", "ref", "return", "Self",
    "self", "static", "struct", "super", "trait", "true", "try", "type",
    "typeof", "unsafe", "unsized", "use", "virtual", "where", "while", "yield"]

def atName : Reader Bool := do
  match ← peek with
  | some (.word text) => return !keywords.contains text
  | _ => return false

def atAnyWord : Reader Bool := do
  match ← peek with
  | some (.word _) => return true
  | _ => return false

/-- A word that is no keyword. -/
def name : Reader String := do
  match ← peek with
  | some (.word text) =>
      if keywords.contains text then
        refuse ("expected identifier, found keyword `" ++ text ++ "`")
      else
        modify List.tail
        return text
  | _ => complain "expected identifier"

def anyWord : Reader String := do
  match ← peek with
  | some (.word text) =>
      modify List.tail
      return text
  | _ => complain "expected identifier"

def atLifetime : Reader Bool := do
  match ← get with
  | ⟨.mark '\'' true, _⟩ :: ⟨.word _, _⟩ :: _ => return true
  | _ => return false

/-- A lifetime, without its quote. -/
def lifetime : Reader String := do
  match ← get with
  | ⟨.mark '\'' true, _⟩ :: ⟨.word text, _⟩ :: rest =>
      set rest
      return text
  | _ => complain "expected lifetime"

def startsNumber (text : String) : Bool :=
  (text.toList.head?.map Char.isDigit).getD false

/-- The position that a number stands for: an integer of 32 bits without a
suffix. -/
def position? (text : String) : Option Nat :=
  let digits := text.toList.filter fun c => c != '_'
  let value :=
    match digits with
    | '0' :: 'x' :: rest => valueOf 16 rest
    | '0' :: 'o' :: rest => valueOf 8 rest
    | '0' :: 'b' :: rest => valueOf 2 rest
    | _ => if startsNumber text then valueOf 10 digits else none
  value.filter fun n => n < UInt32.size
where
  valueOf (base : Nat) (digits : List Char) : Option Nat :=
    digits.foldlM
      (fun value c =>
        match Lexer.hexValue? c with
        | some digit => if digit < base then some (base * value + digit) else none
        | none => none)
      0

/-- Whether a literal stands next; truth values and negative numbers are
literals too. -/
def atLiteral : Reader Bool := do
  match ← get with
  | ⟨.literal _, _⟩ :: _ => return true
  | ⟨.word text, _⟩ :: _ => return text == "true" || text == "false"
  | ⟨.mark '-' _, _⟩ :: ⟨.literal text, _⟩ :: _ => return startsNumber text
  | _ => return false

/-- A literal, whose sign is a token of its own. -/
def literal : Reader Tokens := do
  match ← get with
  | ⟨.literal text, _⟩ :: rest =>
      set rest
      return [.literal text]
  | ⟨.word text, _⟩ :: rest =>
      if text == "true" || text == "false" then
        set rest
        return [.word text]
      else complain "expected literal"
  | ⟨.mark '-' _, _⟩ :: ⟨.literal text, _⟩ :: rest =>
      if startsNumber text then
        set rest
        return [.mark '-' false, .literal text]
      else complain "expected literal"
  | _ => complain "expected literal"

def atText : Reader Bool := do
  match ← peek with
  | some (.literal text) =>
      return text.toList.head? == some '"' || text.toList.head? == some 'r'
  | _ => return false

def textLiteral : Reader Tokens := do
  if ← atText then literal else complain "expected string literal"

/-- What a reader takes between two brackets; nothing may be left of the
group. -/
def bracketed {α : Type} (bracket : Bracket) (inner : Reader α) : Reader α := do
  match ← next with
  | .opening found =>
      if found = bracket then
        let value ← inner
        match ← next with
        | .closing _ => return value
        | _ => refuse "unexpected token"
      else refuse "expected another bracket"
  | _ => refuse "expected a bracket"

/-- Repeats a step that tells whether to go on, at most once for each lexeme
and once more.  A step that goes on without taking anything is refused
then. -/
def repeated {α : Type} (step : Reader (α × Bool)) : Reader (List α) :=
  fun input => go input input
where
  go : List Lexeme → List Lexeme → Except String (List α × List Lexeme)
    | [], input =>
        match step input with
        | .error complaint => .error complaint
        | .ok ((_, true), _) => .error "unexpected token"
        | .ok ((value, false), rest) => .ok ([value], rest)
    | _ :: steps, input =>
        match step input with
        | .error complaint => .error complaint
        | .ok ((value, true), rest) =>
            match go steps rest with
            | .error complaint => .error complaint
            | .ok (values, behind) => .ok (value :: values, behind)
        | .ok ((value, false), rest) => .ok ([value], rest)

/-- Repeats a reader until it answers nothing. -/
def many {α : Type} (step : Reader (Option α)) : Reader (List α) := do
  let found ← repeated do
    match ← step with
    | some value => return (some value, true)
    | none => return (none, false)
  return found.filterMap id

/-- Repeats a reader until nothing is left of the group. -/
def untilEnd {α : Type} (step : Reader α) : Reader (List α) :=
  many do
    if ← atEnd then return none
    else return some (← step)

/-- Values with marks between them, up to where `stop` holds; tells whether
the last value is followed by a mark. -/
def punctuated {α : Type} (operator : String) (stop : Reader Bool)
    (value : Reader α) : Reader (List α × Bool) := do
  let found ← many do
    if ← stop then return none
    else
      let item ← value
      if ← stop then return some (item, false)
      else
        let _ ← mark operator
        return some (item, true)
  return (found.map Prod.fst, (found.getLast?.map Prod.snd).getD false)

/-- Values with commas between them, up to the end of the group. -/
def commas {α : Type} (value : Reader α) : Reader (List α × Bool) :=
  punctuated "," atEnd value

/-- One or more values with marks between them; a last mark is kept when no
value follows it. -/
def joined {α : Type} (operator : String) (goesOn : Reader Bool)
    (value : Reader α) : Reader (List α × Bool) := do
  let found ← repeated do
    let item ← value
    if ← atMark operator then
      let _ ← mark operator
      return ((item, true), ← goesOn)
    else
      return ((item, false), false)
  return (found.map Prod.fst, (found.getLast?.map Prod.snd).getD false)

/-- The lexemes of the groups and tokens up to the end of the group. -/
def restOfGroup : Reader (List Lexeme) := do
  let input ← get
  let rest := skipTrees input.length input
  set rest
  return input.take (input.length - rest.length)

/-- A group with any brackets: its bracket and the lexemes inside. -/
def anyGroup : Reader (Bracket × List Lexeme) := do
  match ← peek with
  | some (.opening bracket) =>
      let inner ← bracketed bracket restOfGroup
      return (bracket, inner)
  | _ => unexpected

def lexemeTokens (lexemes : List Lexeme) : Tokens :=
  lexemes.map Lexeme.token

/-- The tokens between an earlier state and the present one, as they are
written. -/
def takenSince (start : List Lexeme) : Reader Tokens := do
  let rest ← get
  return lexemeTokens (start.take (start.length - rest.length))

/-- The tokens that a reader takes, as they are written. -/
def verbatim {α : Type} (reader : Reader α) : Reader Tokens := do
  let start ← get
  let _ ← reader
  takenSince start

def run {α : Type} (reader : Reader α) (lexemes : List Lexeme) :
    Except String α :=
  match reader lexemes with
  | .ok (value, []) => .ok value
  | .ok (_, _ :: _) => .error "unexpected token"
  | .error complaint => .error complaint

end Reader

end RecordMasking.Code

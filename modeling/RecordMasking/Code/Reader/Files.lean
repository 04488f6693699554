import RecordMasking.Code.Reader.Items
import RecordMasking.Code.Reader.Statements

/-!
# Reading sources

The readers of all depths, tied together: what is nested in a construct is
read one level deeper.  A level takes a token before it asks for the next one
but one, so a text with `n` lexemes needs no more than `2 * n + 2` levels.

A source may start with a byte order mark and with a line for the shell that
would run it; neither belongs to its tokens, but the latter keeps its line
number.
-/

namespace RecordMasking.Code

namespace Nested

/-- The readers with the given number of levels below them. -/
def ofDepth : Nat → Nested
  | 0 => none
  | depth + 1 =>
      let nested := ofDepth depth
      { type := Reader.type nested
        argument := Reader.argument nested
        genericParam := Reader.genericParam nested false
        term := Reader.term nested
        operand := Reader.operand nested
        rightOperand := Reader.rightOperand nested
        arms := Reader.arms nested
        simplePattern := Reader.simplePattern nested
        pattern := Reader.pattern nested
        block := Reader.block nested
        body := Reader.body nested
        fields := Reader.fieldsType nested
        importTree := Reader.importTree nested
        item := Reader.item nested }

def forLexemes (lexemes : List Lexeme) : Nested :=
  ofDepth (2 * lexemes.length + 2)

end Nested

/-- Reads a text as a whole by a reader over the readers of all levels. -/
def readText {α : Type} (reader : Nested → Reader α) (text : String) :
    Except String α :=
  match lexemes? text.toList with
  | none => .error "cannot parse string into token stream"
  | some lexemes => Reader.run (reader (Nested.forLexemes lexemes)) lexemes

/-- The lexemes of a list, read as a whole. -/
def readLexemes {α : Type} (reader : Nested → Reader α)
    (lexemes : List Lexeme) : Except String α :=
  Reader.run (reader (Nested.forLexemes lexemes)) lexemes

/-- The text behind the first line break, with that line break. -/
def fromLineBreak : List Char → List Char
  | [] => []
  | '\n' :: rest => '\n' :: rest
  | _ :: rest => fromLineBreak rest

/-- The text of a source without its byte order mark and without a first
line that names an interpreter. -/
def sourceBody (text : List Char) : List Char :=
  let body :=
    match text with
    | c :: rest => if c = byteOrderMark then rest else text
    | [] => []
  match body with
  | '#' :: '!' :: rest =>
      if (Lexer.skipBlanks rest).head? = some '[' then body
      else fromLineBreak body
  | _ => body

def readItems (text : String) : Except String (List Item) :=
  readText
    (fun nested => do
      let _ ← Reader.innerAttributes nested
      return (← Reader.untilEnd nested.item).map Prod.fst)
    (String.ofList (sourceBody text.toList))

def readDeriveInput (text : String) : Except String DeriveInput :=
  readText Reader.deriveInput text

def readPath (text : String) : Except String Tokens :=
  readText
    (fun nested => do
      let (rooted, segments) ← Reader.path nested false
      return TypeExpr.tokens (.path rooted segments))
    text

/-- A name that is no keyword. -/
def readName (text : String) : Except String String :=
  readText (fun _ => Reader.name) text

/-- A lifetime, without its quote. -/
def readLifetime (text : String) : Except String String :=
  readText (fun _ => Reader.lifetime) text

/-- The last segments of the paths that an attribute lists with commas
between them, or none when it lists anything else. -/
def listedNames (arguments : List Lexeme) : List String :=
  let reader := fun nested : Nested => do
    let (paths, _) ← Reader.commas (Reader.path nested false)
    return paths.filterMap fun path => path.2.getLast?.map Segment.name
  match readLexemes reader arguments with
  | .ok names => names
  | .error _ => []

end RecordMasking.Code

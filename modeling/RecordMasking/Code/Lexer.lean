import RecordMasking.Code.Quoted
import RecordMasking.Code.Token

/-!
# Reading tokens

A text is cut into lexemes: tokens with the place where each one starts.
Blanks and plain comments separate tokens; a documentation comment is the
attribute it stands for.  A mark is joined to its successor when the next
character is a mark too.  Brackets have to match.

Every reader of this file takes a text from its front and answers what is
left of it, or nothing when the front has not the shape it reads.
-/

namespace RecordMasking.Code

/-- A place in a text: lines count from one, columns from zero. -/
structure Position where
  line : Nat := 1
  column : Nat := 0
deriving DecidableEq, Repr, Inhabited

namespace Position

def next (position : Position) (c : Char) : Position :=
  if c = '\n' then ⟨position.line + 1, 0⟩
  else ⟨position.line, position.column + 1⟩

def after (position : Position) (text : List Char) : Position :=
  text.foldl next position

end Position

structure Lexeme where
  token : Token
  start : Position
deriving DecidableEq, Repr, Inhabited

namespace Lexer

def dropPrefix? : List Char → List Char → Option (List Char)
  | [], text => some text
  | c :: front, d :: text => if c = d then dropPrefix? front text else none
  | _ :: _, [] => none

def startsWith (front : String) (text : List Char) : Bool :=
  (dropPrefix? front.toList text).isSome

/-- What is left of the line, from its line break on. -/
def untilLineEnd : List Char → List Char
  | [] => []
  | '\n' :: rest => '\n' :: rest
  | '\r' :: '\n' :: rest => '\n' :: rest
  | _ :: rest => untilLineEnd rest

/-- The text of a line that begins here, without its line break. -/
def lineText : List Char → List Char
  | [] => []
  | '\n' :: _ => []
  | '\r' :: '\n' :: _ => []
  | c :: rest => c :: lineText rest

/-- Behind the end of a block comment; comments nest. -/
def blockCommentRest (depth : Nat) : List Char → Option (List Char)
  | '/' :: '*' :: rest => blockCommentRest (depth + 1) rest
  | '*' :: '/' :: rest =>
      if depth ≤ 1 then some rest else blockCommentRest (depth - 1) rest
  | _ :: rest => blockCommentRest depth rest
  | [] => none

/-- Behind a comment that is not documentation. -/
def plainComment? (text : List Char) : Option (List Char) :=
  if startsWith "//" text then
    if startsWith "//!" text ||
        (startsWith "///" text && !startsWith "////" text) then none
    else some (untilLineEnd text)
  else if startsWith "/**/" text then some (text.drop 4)
  else if startsWith "/*" text then
    if startsWith "/*!" text ||
        (startsWith "/**" text && !startsWith "/***" text) then none
    else blockCommentRest 0 text
  else none

/-- Behind one blank character or one plain comment. -/
def blank? : List Char → Option (List Char)
  | [] => none
  | c :: rest => if isBlank c then some rest else plainComment? (c :: rest)

def skipBlanks (text : List Char) : List Char :=
  match blank? text with
  | none => text
  | some rest =>
      if rest.length < text.length then skipBlanks rest else rest
termination_by text.length

/-- A carriage return that no line feed follows. -/
def hasLoneReturn : List Char → Bool
  | [] => false
  | '\r' :: '\n' :: rest => hasLoneReturn rest
  | '\r' :: _ => true
  | _ :: rest => hasLoneReturn rest

/-- A documentation comment: whether it documents what encloses it, its
text, and what follows it. -/
def docComment? (text : List Char) : Option (Bool × List Char × List Char) :=
  let found :=
    if startsWith "//!" text then
      some (true, lineText (text.drop 3), untilLineEnd (text.drop 3))
    else if startsWith "/*!" text then
      (blockCommentRest 0 text).map fun rest =>
        let length := text.length - rest.length
        (true, (text.take (length - 2)).drop 3, rest)
    else if startsWith "///" text && !startsWith "////" text then
      some (false, lineText (text.drop 3), untilLineEnd (text.drop 3))
    else if startsWith "/**" text && !startsWith "/***" text then
      (blockCommentRest 0 text).map fun rest =>
        let length := text.length - rest.length
        (false, (text.take (length - 2)).drop 3, rest)
    else none
  match found with
  | some (inner, comment, rest) =>
      if hasLoneReturn comment then none else some (inner, comment, rest)
  | none => none

/-- Behind a name that is not raw. -/
def name? : List Char → Option (List Char)
  | [] => none
  | c :: rest => if startsName c then some (rest.dropWhile continuesName) else none

def skipName (text : List Char) : List Char :=
  (name? text).getD text

def upTo (text rest : List Char) : List Char :=
  text.take (text.length - rest.length)

/-- Names that have no raw form. -/
def unrawable : List String := ["_", "super", "self", "Self", "crate"]

/-- Behind a name, raw or not. -/
def anyName? (text : List Char) : Option (List Char) :=
  match dropPrefix? ['r', '#'] text with
  | none => name? text
  | some bare =>
      match name? bare with
      | none => none
      | some rest =>
          if unrawable.contains (String.ofList (upTo bare rest)) then none
          else some rest

def literalFronts : List String :=
  ["r\"", "r#\"", "r##", "b\"", "b'", "br\"", "br#", "c\"", "cr\"", "cr#"]

def word? (text : List Char) : Option (List Char) :=
  if literalFronts.any fun front => startsWith front text then none
  else anyName? text

def hexValue? (c : Char) : Option Nat :=
  if '0' ≤ c && c ≤ '9' then some (c.toNat - '0'.toNat)
  else if 'a' ≤ c && c ≤ 'f' then some (10 + (c.toNat - 'a'.toNat))
  else if 'A' ≤ c && c ≤ 'F' then some (10 + (c.toNat - 'A'.toNat))
  else none

structure QuoteRules where
  /-- Escapes by two digits stay below 128. -/
  shortEscapes : Bool
  unicodeEscapes : Bool
  asciiOnly : Bool
  nulAllowed : Bool

def textRules : QuoteRules := ⟨true, true, false, true⟩
def byteRules : QuoteRules := ⟨false, false, true, true⟩
def terminatedRules : QuoteRules := ⟨false, true, false, false⟩

def QuoteRules.acceptsDigits (rules : QuoteRules) (high low : Char) : Bool :=
  match hexValue? high, hexValue? low with
  | some h, some l =>
      (!rules.shortEscapes || h ≤ 7) && (rules.nulAllowed || h + l != 0)
  | _, _ => false

/-- Behind the braces of an escape by code point, opened already. -/
def codePoint? (rules : QuoteRules) (digits value : Nat) :
    List Char → Option (List Char)
  | [] => none
  | c :: rest =>
      match hexValue? c with
      | some digit =>
          if digits = 6 then none
          else codePoint? rules (digits + 1) (16 * value + digit) rest
      | none =>
          if digits = 0 then none
          else if c = '_' then codePoint? rules digits value rest
          else if c = '\x7d' then
            if (value < 0xd800 || (0xe000 ≤ value && value ≤ 0x10ffff)) &&
                (rules.nulAllowed || value != 0) then some rest
            else none
          else none

/-- Behind one character of a quoted literal, or behind one escape. -/
def quotedChar? (rules : QuoteRules) : List Char → Option (List Char)
  | [] => none
  | '\r' :: '\n' :: rest => some rest
  | '\r' :: _ => none
  | '\\' :: 'x' :: high :: low :: rest =>
      if rules.acceptsDigits high low then some rest else none
  | '\\' :: 'u' :: '\x7b' :: rest =>
      if rules.unicodeEscapes then codePoint? rules 0 0 rest else none
  | '\\' :: '\r' :: '\n' :: rest => some rest
  | '\\' :: '0' :: rest => if rules.nulAllowed then some rest else none
  | '\\' :: c :: rest =>
      if ['n', 'r', 't', '\\', '\'', '"', '\n'].contains c then some rest
      else none
  | '\\' :: [] => none
  | c :: rest =>
      if (rules.asciiOnly && 128 ≤ c.toNat) || (!rules.nulAllowed && c = '\x00')
      then none
      else some rest

def closingQuote? (rules : QuoteRules) (text : List Char) :
    Option (List Char) :=
  if text.head? = some '"' then some text.tail
  else
    match quotedChar? rules text with
    | none => none
    | some rest =>
        if rest.length < text.length then closingQuote? rules rest else none
termination_by text.length

/-- Behind the closing quote of a raw literal with the given hashes. -/
def closingRawQuote? (rules : QuoteRules) (hashes : List Char) :
    List Char → Option (List Char)
  | [] => none
  | '"' :: rest =>
      match dropPrefix? hashes rest with
      | some behind => some behind
      | none => closingRawQuote? rules hashes rest
  | '\r' :: '\n' :: rest => closingRawQuote? rules hashes rest
  | '\r' :: _ => none
  | c :: rest =>
      if (rules.asciiOnly && 128 ≤ c.toNat) || (!rules.nulAllowed && c = '\x00')
      then none
      else closingRawQuote? rules hashes rest

def rawLiteral? (rules : QuoteRules) (text : List Char) : Option (List Char) :=
  let hashes := text.takeWhile fun c => c == '#'
  match text.drop hashes.length with
  | '"' :: rest =>
      if hashes.length ≤ 255 then closingRawQuote? rules hashes rest else none
  | _ => none

def stringLiteral? (text : List Char) : Option (List Char) :=
  let rest :=
    match text with
    | '"' :: rest => closingQuote? textRules rest
    | 'r' :: rest => rawLiteral? textRules rest
    | 'b' :: '"' :: rest => closingQuote? byteRules rest
    | 'b' :: 'r' :: rest => rawLiteral? byteRules rest
    | 'c' :: '"' :: rest => closingQuote? terminatedRules rest
    | 'c' :: 'r' :: rest => rawLiteral? terminatedRules rest
    | _ => none
  rest.map skipName

def closeChar? : List Char → Option (List Char)
  | '\'' :: rest => some (skipName rest)
  | _ => none

/-- Behind one character, written plainly or by an escape, that stands
between single quotes. -/
def charBody? (rules : QuoteRules) : List Char → Option (List Char)
  | [] => none
  | '\\' :: 'x' :: high :: low :: rest =>
      if rules.acceptsDigits high low then some rest else none
  | '\\' :: 'u' :: '\x7b' :: rest =>
      if rules.unicodeEscapes then codePoint? rules 0 0 rest else none
  | '\\' :: c :: rest =>
      if ['n', 'r', 't', '\\', '0', '\'', '"'].contains c then some rest
      else none
  | '\\' :: [] => none
  | c :: rest => if rules.asciiOnly && 128 ≤ c.toNat then none else some rest

def charLiteral? (text : List Char) : Option (List Char) :=
  match text with
  | 'b' :: '\'' :: rest => (charBody? byteRules rest).bind closeChar?
  | '\'' :: rest => (charBody? textRules rest).bind closeChar?
  | _ => none

/-- Behind a suffix of a number, when no other character of a name is
left. -/
def numberEnd? (text : List Char) : Option (List Char) :=
  let rest :=
    match text with
    | c :: _ => if startsName c then skipName text else text
    | [] => text
  match rest with
  | c :: _ => if continuesName c then none else some rest
  | [] => some rest

/-- Behind the digits of an exponent, when there is one with a value. -/
def exponent? (signed valued : Bool) : List Char → Option (List Char)
  | [] => if valued then some [] else none
  | c :: rest =>
      if c = '+' || c = '-' then
        if valued then some (c :: rest)
        else if signed then none
        else exponent? true valued rest
      else if c.isDigit then exponent? signed true rest
      else if c = '_' then exponent? signed valued rest
      else if valued then some (c :: rest)
      else none

/-- Behind the digits of a number with a point or an exponent. -/
def floatDigits? (text : List Char) : Option (List Char) :=
  let digit := fun c : Char => c.isDigit || c == '_'
  match text with
  | [] => none
  | first :: _ =>
      if !first.isDigit then none
      else
        match text.dropWhile digit with
        | '.' :: rest =>
            match rest with
            | c :: _ =>
                if c = '.' || startsName c then none
                else
                  let behind := rest.dropWhile digit
                  match behind with
                  | e :: exponent =>
                      if e = 'e' || e = 'E' then
                        some ((exponent? false false exponent).getD behind)
                      else some behind
                  | [] => some behind
            | [] => some rest
        | e :: exponent =>
            if e = 'e' || e = 'E' then exponent? false false exponent else none
        | [] => none

/-- Behind the digits of a whole number in the given base. -/
def digits? (base : Nat) (seen : Bool) : List Char → Option (List Char)
  | [] => if seen then some [] else none
  | c :: rest =>
      if c.isDigit then
        if c.toNat - '0'.toNat < base then digits? base true rest else none
      else if c = '_' then
        if !seen && base = 10 then none else digits? base seen rest
      else
        match hexValue? c with
        | some digit =>
            if digit < base then digits? base true rest
            else if seen then some (c :: rest)
            else none
        | none => if seen then some (c :: rest) else none

def wholeDigits? : List Char → Option (List Char)
  | '0' :: 'x' :: rest => digits? 16 false rest
  | '0' :: 'o' :: rest => digits? 8 false rest
  | '0' :: 'b' :: rest => digits? 2 false rest
  | text => digits? 10 false text

def number? (text : List Char) : Option (List Char) :=
  match (floatDigits? text).bind numberEnd? with
  | some rest => some rest
  | none => (wholeDigits? text).bind numberEnd?

def literal? (text : List Char) : Option (List Char) :=
  match stringLiteral? text with
  | some rest => some rest
  | none =>
      match charLiteral? text with
      | some rest => some rest
      | none => number? text

def marks : List Char := "~!@#$%^&*-=+|;:,<.>/?'".toList

/-- Whether a mark stands at the front: the start of a comment is none. -/
def startsMark (text : List Char) : Bool :=
  match text with
  | [] => false
  | c :: _ => marks.contains c && !startsWith "//" text && !startsWith "/*" text

/-- The mark at the front and what follows it.  A single quote is a mark
only before the name of a lifetime. -/
def mark? : List Char → Option (Token × List Char)
  | [] => none
  | '\'' :: rest =>
      match anyName? rest with
      | none => none
      | some ('\'' :: _) => none
      | some ('#' :: _) =>
          if startsWith "r#" rest then some (.mark '\'' true, rest) else none
      | some _ => some (.mark '\'' true, rest)
  | c :: rest =>
      if startsMark (c :: rest) then some (.mark c (startsMark rest), rest)
      else none

def bracket? : Char → Option Token
  | '(' => some (.opening .round)
  | '[' => some (.opening .square)
  | '\x7b' => some (.opening .curly)
  | ')' => some (.closing .round)
  | ']' => some (.closing .square)
  | '\x7d' => some (.closing .curly)
  | _ => none

/-- The spelling of a literal that stands for code that could not be read. -/
def errorLiteral : String := "(/*ERROR*/)"

/-- The token at the front, which is no blank, and what follows it. -/
def token? (text : List Char) : Option (Token × List Char) :=
  match dropPrefix? errorLiteral.toList text, text with
  | some rest, _ => some (.literal errorLiteral, rest)
  | none, [] => none
  | none, c :: rest =>
      match bracket? c with
      | some token => some (token, rest)
      | none =>
          match literal? text with
          | some behind =>
              some (.literal (String.ofList (upTo text behind)), behind)
          | none =>
              match mark? text with
              | some found => some found
              | none =>
                  (word? text).map fun behind =>
                    (.word (String.ofList (upTo text behind)), behind)

/-- The attribute that a documentation comment stands for. -/
def docTokens (inner : Bool) (comment : List Char) : Tokens :=
  Tokens.mark '#' ++ (if inner then Tokens.mark '!' else []) ++
    Tokens.inBrackets .square
      (Tokens.word "doc" ++ Tokens.mark '=' ++
        [.literal (quoted (String.ofList comment))])

/-- The tokens of the next blank, comment or token of a text, and what
follows it. -/
def step? (text : List Char) : Option (Tokens × List Char) :=
  match blank? text with
  | some rest => some ([], rest)
  | none =>
      match docComment? text with
      | some (inner, comment, rest) => some (docTokens inner comment, rest)
      | none => (token? text).map fun found => ([found.1], found.2)

/-- The lexemes of a text, found from the given place on. -/
def lexemesFrom (position : Position) (text : List Char) :
    Option (List Lexeme) :=
  if text.isEmpty then some []
  else
    match step? text with
    | none => none
    | some (tokens, rest) =>
        if rest.length < text.length then
          (lexemesFrom (position.after (upTo text rest)) rest).map fun others =>
            tokens.map (fun token => ⟨token, position⟩) ++ others
        else none
termination_by text.length

/-- Whether every bracket is closed by its partner; `pending` holds the ones
that are still to be closed. -/
def balanced (pending : List Bracket) : List Lexeme → Bool
  | [] => pending.isEmpty
  | ⟨.opening bracket, _⟩ :: rest => balanced (bracket :: pending) rest
  | ⟨.closing bracket, _⟩ :: rest =>
      match pending with
      | top :: others => top = bracket && balanced others rest
      | [] => false
  | _ :: rest => balanced pending rest

end Lexer

/-- Whether a text is a name as a whole, raw or not, or a keyword. -/
def isWritableName (text : String) : Bool :=
  Lexer.anyName? text.toList == some []

def byteOrderMark : Char := '\ufeff'

/-- The lexemes of a text; a byte order mark at its start is passed over. -/
def lexemes? (text : List Char) : Option (List Lexeme) :=
  let found :=
    match text with
    | c :: rest =>
        if c = byteOrderMark then Lexer.lexemesFrom (Position.next {} c) rest
        else Lexer.lexemesFrom {} text
    | [] => some []
  match found with
  | some lexemes => if Lexer.balanced [] lexemes then some lexemes else none
  | none => none

end RecordMasking.Code

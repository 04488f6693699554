/-!
# Tokens of code

Code is a sequence of tokens, in which brackets are tokens of their own.
Printing puts one blank between two tokens, except after a mark that is
joined to its successor and on the inner side of round and square brackets.
-/

namespace RecordMasking.Code

inductive Bracket where
  | round
  | square
  | curly
deriving DecidableEq, Repr, Inhabited

inductive Token where
  /-- An identifier or a keyword; a raw one keeps its `r#`. -/
  | word (text : String)
  | literal (text : String)
  /-- A punctuation character, joined to the next token or not. -/
  | mark (char : Char) (joined : Bool)
  | opening (bracket : Bracket)
  | closing (bracket : Bracket)
deriving DecidableEq, Repr, Inhabited

namespace Token

def text : Token → String
  | .word text => text
  | .literal text => text
  | .mark char _ => String.singleton char
  | .opening .round => "("
  | .opening .square => "["
  | .opening .curly => "\x7b"
  | .closing .round => ")"
  | .closing .square => "]"
  | .closing .curly => "\x7d"

/-- Whether two neighbours are printed without a blank between them. -/
def adjoins : Token → Token → Bool
  | .mark _ true, _ => true
  | .opening .round, _ => true
  | .opening .square, _ => true
  | _, .closing .round => true
  | _, .closing .square => true
  | _, _ => false

end Token

abbrev Tokens := List Token

namespace Tokens

def render : Tokens → String
  | [] => ""
  | [token] => token.text
  | token :: next :: rest =>
      (if token.adjoins next then token.text else token.text ++ " ") ++
        render (next :: rest)

def word (text : String) : Tokens := [.word text]

def mark (char : Char) : Tokens := [.mark char false]

/-- An operator of several characters, each joined to the next. -/
def operator : List Char → Tokens
  | [] => []
  | [char] => [.mark char false]
  | char :: rest => .mark char true :: operator rest

def pathSeparator : Tokens := operator [':', ':']

/-- A lifetime, given without its quote. -/
def lifetime (name : String) : Tokens := [.mark '\'' true, .word name]

def inBrackets (bracket : Bracket) (inner : Tokens) : Tokens :=
  .opening bracket :: inner ++ [.closing bracket]

/-- The parts one after another, with commas between them. -/
def commaSeparated : List Tokens → Tokens
  | [] => []
  | [part] => part
  | part :: rest => part ++ mark ',' ++ commaSeparated rest

def ofPath (segments : List String) : Tokens :=
  match segments with
  | [] => []
  | [segment] => word segment
  | segment :: rest => word segment ++ pathSeparator ++ ofPath rest

end Tokens

end RecordMasking.Code

import RecordMasking.Code.Token

/-!
# Type expressions

The types that can be written at a field.  Paths keep their segments and the
arguments of each; the shapes that are looked into keep their parts; all other
shapes keep only their tokens.
-/

namespace RecordMasking.Code

mutual

inductive TypeExpr where
  | path (rooted : Bool) (segments : List Segment)
  /-- A path that starts at a type, possibly seen as a trait:
  `<inner as trait>::rest`. -/
  | qualified (inner : TypeExpr) (traitRooted : Bool) (trait : List Segment)
      (rest : List Segment)
  | paren (inner : TypeExpr)
  | reference (lifetime : Option String) (mutable : Bool) (inner : TypeExpr)
  | array (element : TypeExpr) (length : Tokens)
  | slice (element : TypeExpr)
  | tuple (elements : List TypeExpr) (trailing : Bool)
  /-- A trait object that is written as a single bound without a keyword,
  between round brackets or not. -/
  | bound (enclosed : Bool) (tokens : Tokens)
  | other (tokens : Tokens)

inductive Segment where
  | mk (name : String) (arguments : Arguments)

inductive Arguments where
  | none
  | angled (turbofish : Bool) (arguments : List Argument) (trailing : Bool)

inductive Argument where
  | type (type : TypeExpr)
  | lifetime (name : String)
  | other (tokens : Tokens)

end

instance : Inhabited TypeExpr := ⟨.other []⟩
instance : Inhabited Segment := ⟨.mk "" .none⟩

namespace Segment

def name : Segment → String
  | .mk name _ => name

def arguments : Segment → Arguments
  | .mk _ arguments => arguments

end Segment

def Arguments.isNone : Arguments → Bool
  | .none => true
  | .angled _ _ _ => false

/-- Whether there are no arguments, with or without angle brackets. -/
def Arguments.isEmpty : Arguments → Bool
  | .none => true
  | .angled _ arguments _ => arguments.isEmpty

def Argument.isLifetime : Argument → Bool
  | .lifetime _ => true
  | _ => false

/-- A part of a list with commas: its tokens, and whether a comma follows. -/
abbrev CommaPart := Tokens × Bool

namespace CommaPart

/-- The parts of a list, each but the last followed by a comma. -/
def ofParts (trailing : Bool) : List Tokens → List CommaPart
  | [] => []
  | [part] => [(part, trailing)]
  | part :: rest => (part, true) :: ofParts trailing rest

def tokens (part : CommaPart) : Tokens :=
  part.1 ++ if part.2 then Tokens.mark ',' else []

def allTokens (parts : List CommaPart) : Tokens :=
  parts.flatMap tokens

/-- The parts of the first list before those of the second, with a comma
between the lists where the first does not end in one. -/
def join (first second : List CommaPart) : Tokens :=
  let gap :=
    match first.getLast?, second with
    | some (_, false), _ :: _ => Tokens.mark ','
    | _, _ => []
  allTokens first ++ gap ++ allTokens second

end CommaPart

mutual

def TypeExpr.tokens : TypeExpr → Tokens
  | .path rooted segments =>
      (if rooted then Tokens.pathSeparator else []) ++ segmentsTokens segments
  | .qualified inner traitRooted trait rest =>
      Tokens.mark '<' ++ inner.tokens ++
        (match trait with
          | [] => []
          | head :: tail =>
              Tokens.word "as" ++
                (if traitRooted then Tokens.pathSeparator else []) ++
                segmentsTokens (head :: tail)) ++
        Tokens.mark '>' ++ Tokens.pathSeparator ++ segmentsTokens rest
  | .paren inner => Tokens.inBrackets .round inner.tokens
  | .reference lifetime mutable inner =>
      Tokens.mark '&' ++
        (match lifetime with
          | some name => Tokens.lifetime name
          | none => []) ++
        (if mutable then Tokens.word "mut" else []) ++ inner.tokens
  | .array element length =>
      Tokens.inBrackets .square (element.tokens ++ Tokens.mark ';' ++ length)
  | .slice element => Tokens.inBrackets .square element.tokens
  | .tuple elements trailing =>
      Tokens.inBrackets .round
        (CommaPart.allTokens (CommaPart.ofParts trailing (typesTokens elements)))
  | .bound enclosed tokens =>
      if enclosed then Tokens.inBrackets .round tokens else tokens
  | .other tokens => tokens

def typesTokens : List TypeExpr → List Tokens
  | [] => []
  | type :: rest => type.tokens :: typesTokens rest

def segmentsTokens : List Segment → Tokens
  | [] => []
  | [segment] => segment.tokens
  | segment :: next :: rest =>
      segment.tokens ++ Tokens.pathSeparator ++ segmentsTokens (next :: rest)

def Segment.tokens : Segment → Tokens
  | .mk name arguments => Tokens.word name ++ arguments.tokens

def Arguments.tokens : Arguments → Tokens
  | .none => []
  | .angled turbofish arguments trailing =>
      let parts :=
        (arguments.map Argument.isLifetime).zip
          (CommaPart.ofParts trailing (argumentsTokens arguments))
      (if turbofish then Tokens.pathSeparator else []) ++ Tokens.mark '<' ++
        CommaPart.join
          ((parts.filter fun part => part.1).map Prod.snd)
          ((parts.filter fun part => !part.1).map Prod.snd) ++
        Tokens.mark '>'

def argumentsTokens : List Argument → List Tokens
  | [] => []
  | argument :: rest => argument.tokens :: argumentsTokens rest

def Argument.tokens : Argument → Tokens
  | .type type => type.tokens
  | .lifetime name => Tokens.lifetime name
  | .other tokens => tokens

end

def TypeExpr.render (type : TypeExpr) : String :=
  type.tokens.render

end RecordMasking.Code

import RecordMasking.Code.Lexer
import RecordMasking.Code.TypeExpr

/-!
# Items

What a source file declares, as far as it matters for record types:
structures with their fields, types that stay closed, synonyms, imports,
implementations of traits, and modules with items of their own.
-/

namespace RecordMasking.Code

inductive AttributeForm where
  | bare
  | list (bracket : Bracket) (arguments : List Lexeme)
  | valued (value : Tokens)

structure Attribute where
  start : Position
  rooted : Bool
  path : List String
  form : AttributeForm

namespace Attribute

def isNamed (attr : Attribute) (name : String) : Bool :=
  !attr.rooted && attr.path == [name]

def content (attr : Attribute) : Tokens :=
  (if attr.rooted then Tokens.pathSeparator else []) ++
    Tokens.ofPath attr.path ++
    match attr.form with
    | .bare => []
    | .list bracket arguments =>
        Tokens.inBrackets bracket (arguments.map Lexeme.token)
    | .valued value => Tokens.mark '=' ++ value

def tokens (attr : Attribute) : Tokens :=
  Tokens.mark '#' ++ Tokens.inBrackets .square attr.content

/-- The attribute as it is written inside of what it belongs to. -/
def innerTokens (attr : Attribute) : Tokens :=
  Tokens.mark '#' ++ Tokens.mark '!' ++
    Tokens.inBrackets .square attr.content

end Attribute

inductive Visibility where
  | inherited
  | everywhere
  | restricted (path : List String)
deriving DecidableEq, Repr, Inhabited

/-- A generic parameter; attributes, bounds, types and defaults are kept as
they are printed. -/
inductive GenericParam where
  | lifetime (attributes : Tokens) (name : String) (bounds : Tokens)
  | type (attributes : Tokens) (name : String) (bounds : Tokens)
      (default : Tokens)
  | const (attributes : Tokens) (name : String) (type : Tokens)
      (default : Tokens)
deriving DecidableEq, Repr, Inhabited

structure Generics where
  params : List GenericParam := []
  trailing : Bool := false
  predicates : Tokens := []
deriving DecidableEq, Repr, Inhabited

namespace GenericParam

def lifetime? : GenericParam → Option String
  | .lifetime _ name _ => some name
  | _ => none

def tokens : GenericParam → Tokens
  | .lifetime attributes text bounds =>
      attributes ++ Tokens.lifetime text ++
        if bounds.isEmpty then [] else Tokens.mark ':' ++ bounds
  | .type attributes text bounds default =>
      attributes ++ Tokens.word text ++
        (if bounds.isEmpty then [] else Tokens.mark ':' ++ bounds) ++
        if default.isEmpty then [] else Tokens.mark '=' ++ default
  | .const attributes text kind default =>
      attributes ++ Tokens.word "const" ++ Tokens.word text ++
        Tokens.mark ':' ++ kind ++
        if default.isEmpty then [] else Tokens.mark '=' ++ default

def type? : GenericParam → Option String
  | .type _ name _ _ => some name
  | _ => none

def value? : GenericParam → Option String
  | .type _ name _ _ => some name
  | .const _ name _ _ => some name
  | .lifetime _ _ _ => none

end GenericParam

namespace Generics

def lifetimes (generics : Generics) : List String :=
  generics.params.filterMap GenericParam.lifetime?

def typeNames (generics : Generics) : List String :=
  generics.params.filterMap GenericParam.type?

def valueNames (generics : Generics) : List String :=
  generics.params.filterMap GenericParam.value?

end Generics

structure FieldItem where
  attributes : List Attribute
  visibility : Visibility
  name : Option String
  /-- The place of the name, or of the type in a tuple. -/
  start : Position
  type : TypeExpr

inductive FieldList where
  | named (fields : List FieldItem)
  | unnamed (fields : List FieldItem)
  | unit

def FieldList.toList : FieldList → List FieldItem
  | .named fields => fields
  | .unnamed fields => fields
  | .unit => []

structure RecordItem where
  attributes : List Attribute
  name : String
  start : Position
  generics : Generics
  fields : FieldList

inductive ImportTree where
  | under (segment : String) (tree : ImportTree)
  | leaf (name : String)
  | renamed (name : String) (newName : String)
  | glob
  | group (trees : List ImportTree)
deriving Inhabited

inductive Item where
  | record (item : RecordItem)
  | closed (name : String)
  | synonym (name : String) (generics : Generics) (target : TypeExpr)
  | imports (tree : ImportTree)
  | implementation (trait : List Segment) (self : TypeExpr)
  | mounted (name : String) (items : List Item)
  | other
deriving Inhabited

inductive DeriveBody where
  | record (fields : FieldList)
  /-- An enumeration, with the place of its keyword. -/
  | enumeration (start : Position)
  | union (start : Position)

structure DeriveInput where
  attributes : List Attribute
  name : String
  start : Position
  generics : Generics
  body : DeriveBody

end RecordMasking.Code

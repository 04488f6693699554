import RecordMasking.Code.Item

/-!
# Parameters of an implementation

An implementation for a structure declares the parameters of the structure
without their defaults, and hands them on as arguments.  Lifetimes come first
in both lists.
-/

namespace RecordMasking.Code

namespace GenericParam

/-- The parameter at an implementation, without its default. -/
def bareTokens : GenericParam → Tokens
  | .lifetime attributes name bounds =>
      tokens (.lifetime attributes name bounds)
  | .type attributes name bounds _ => tokens (.type attributes name bounds [])
  | .const attributes name kind _ => tokens (.const attributes name kind [])

def argumentTokens : GenericParam → Tokens
  | .lifetime _ name _ => Tokens.lifetime name
  | .type _ name _ _ => Tokens.word name
  | .const _ name _ _ => Tokens.word name

def isLifetime (param : GenericParam) : Bool :=
  param.lifetime?.isSome

end GenericParam

namespace Generics

/-- The parameters between angle brackets, lifetimes first. -/
def angled (generics : Generics) (print : GenericParam → Tokens) : Tokens :=
  if generics.params.isEmpty then []
  else
    let parts :=
      (generics.params.map GenericParam.isLifetime).zip
        (CommaPart.ofParts generics.trailing (generics.params.map print))
    Tokens.mark '<' ++
      CommaPart.join
        ((parts.filter fun part => part.1).map Prod.snd)
        ((parts.filter fun part => !part.1).map Prod.snd) ++
      Tokens.mark '>'

def whereTokens (generics : Generics) : Tokens :=
  if generics.predicates.isEmpty then []
  else Tokens.word "where" ++ generics.predicates

def lifetimeTokens (generics : Generics) : Tokens :=
  let lifetimes := generics.params.filter GenericParam.isLifetime
  if lifetimes.isEmpty then []
  else
    Tokens.mark '<' ++
      Tokens.commaSeparated (lifetimes.map GenericParam.tokens) ++
      Tokens.mark '>'

end Generics

end RecordMasking.Code

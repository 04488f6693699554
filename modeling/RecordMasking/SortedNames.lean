/-!
# Sorted names

Lists of names in strictly increasing order.
-/

namespace RecordMasking

/-- Inserts a name into a strictly increasing list of names. -/
def insertName (name : String) : List String → List String
  | [] => [name]
  | head :: rest =>
      if name < head then name :: head :: rest
      else if name = head then head :: rest
      else head :: insertName name rest

/-- The given names in increasing order, each once. -/
def sortedNames (names : List String) : List String :=
  names.foldl (fun sorted name => insertName name sorted) []

end RecordMasking

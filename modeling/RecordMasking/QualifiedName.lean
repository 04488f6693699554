/-!
# Packages and qualified names

A package is the module path of a declaration, its segments separated by
`::`; the root module is the empty text.  Packages stay texts, since two
texts with the same segments are still two packages.  This file holds the
view of a package as a list of segments, the tests that are made on it, and
names qualified by a package together with their order.
-/

namespace RecordMasking

/-- Module path of a declaration, with `::` between its segments. -/
abbrev Package := String

namespace Package

/-- The stretches of a text between the occurrences of `::`, which are
found from the left. -/
def pieces : List Char → List (List Char)
  | [] => [[]]
  | ':' :: ':' :: rest => [] :: pieces rest
  | c :: rest =>
      match pieces rest with
      | [] => [[c]]
      | piece :: others => (c :: piece) :: others

/-- The named segments of a package: an empty stretch names nothing. -/
def segments (package : Package) : List String :=
  ((pieces package.toList).filter fun piece => !piece.isEmpty).map String.ofList

def ofSegments (segments : List String) : Package :=
  "::".intercalate segments

/-- The package of a module mounted inside another one. -/
def child (parent inner : Package) : Package :=
  if inner.isEmpty then parent
  else if parent.isEmpty then inner
  else parent ++ "::" ++ inner

/-- Whether `package` is `scope` or a module inside it.  The root module
holds every package. -/
def holds (scope package : Package) : Bool :=
  scope.isEmpty || package == scope ||
    (scope.toList ++ [':', ':']).isPrefixOf package.toList

end Package

/-- A name inside a package. -/
structure QualifiedName where
  package : Package
  name : String
deriving DecidableEq, Repr, Inhabited

namespace QualifiedName

def display (id : QualifiedName) : String :=
  if id.package.isEmpty then id.name
  else id.package ++ "::" ++ id.name

def segments (id : QualifiedName) : List String :=
  Package.segments id.package

/-- By package, then by name; texts compare by their code points, which is
the order of their encoded bytes. -/
instance : Ord QualifiedName where
  compare left right :=
    (compare left.package right.package).then (compare left.name right.name)

end QualifiedName

end RecordMasking

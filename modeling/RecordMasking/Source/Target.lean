import RecordMasking.Source.Crate
import RecordMasking.Source.Shape

/-!
# What a path names

A path is looked up in the package it is written in.  A single name is an
item of the package, else what it is imported as, else the first item of its
name that a glob import brings in.  Of a longer path the first segment may be
imported.  What remains is anchored at the root, at the package itself or
above it, or else leads to a child module or to a mounted module; a path that
does none of these leads out of the crate.

A path that names a synonym leads on to the target of the synonym, looked up
in the package of the synonym.  No more than `synonymLimit` synonyms are
followed.
-/

namespace RecordMasking.Source

open Code

/-- The package that is reached by the leading `self` and `super` segments of
a path, and the segments behind them.  Above the root is the root. -/
def climb (package : List String) : List String → List String × List String
  | [] => (package, [])
  | segment :: rest =>
      if segment = "self" then climb package rest
      else if segment = "super" then climb package.dropLast rest
      else (package, segment :: rest)

/-- The package that a path names when it starts at the root, at the current
package or above it. -/
def anchored? (current : Package) : List String → Option Package
  | [] => none
  | segment :: rest =>
      if segment = "crate" then some (Package.ofSegments rest)
      else if segment = "self" || segment = "super" then
        let (base, behind) := climb (Package.segments current) (segment :: rest)
        some (Package.ofSegments (base ++ behind))
      else none

/-- The package a field with the given visibility can be named from. -/
def visibleIn (package : Package) : Visibility → Package
  | .everywhere => ""
  | .inherited => package
  | .restricted path => (anchored? package path).getD (Package.ofSegments path)

inductive Reference where
  | item (id : QualifiedName)
  | foreign
  | unknown
deriving DecidableEq, Repr

inductive Target where
  | declared (id : QualifiedName)
  | foreign
  | unknown
deriving DecidableEq, Repr

def synonymLimit : Nat := 16

namespace Crate

/-- Whether the crate has an item of the name that can be a type. -/
def knows (crate : Crate) (id : QualifiedName) : Bool :=
  crate.declares id || crate.closes id || (crate.synonym? id).isSome

/-- The name a full path leads to, when it stays inside the crate. -/
def absolute? (crate : Crate) (current : Package) (path : List String) :
    Option QualifiedName :=
  match path.getLast? with
  | none => none
  | some name =>
      let lead := path.dropLast
      match anchored? current lead with
      | some package => some ⟨package, name⟩
      | none =>
          let mounted := Package.ofSegments lead
          let inner := current.child mounted
          if crate.hasPackage inner then some ⟨inner, name⟩
          else if crate.hasPackage mounted && !lead.isEmpty then
            some ⟨mounted, name⟩
          else none

/-- The first item of the given name that a glob import of the package brings
in. -/
def globbed? (crate : Crate) (package : Package) (name : String) :
    Option QualifiedName :=
  (crate.globsOf package).findSome? fun path =>
    (crate.absolute? package (path ++ [name])).filter crate.knows

def ofAbsolute (crate : Crate) (package : Package) (path : List String) :
    Reference :=
  match crate.absolute? package path with
  | some id => .item id
  | none => .foreign

def reference (crate : Crate) (package : Package) (rooted : Bool)
    (path : List String) : Reference :=
  if rooted then .foreign
  else
    match path with
    | [] => .unknown
    | [name] =>
        if crate.knows ⟨package, name⟩ then .item ⟨package, name⟩
        else
          match crate.imported? package name with
          | some full => crate.ofAbsolute package full
          | none =>
              match crate.globbed? package name with
              | some id => .item id
              | none => .unknown
    | first :: second :: rest =>
        match crate.imported? package first with
        | some full => crate.ofAbsolute package (full ++ second :: rest)
        | none => crate.ofAbsolute package (first :: second :: rest)

/-- Follows a path through at most the given number of synonyms. -/
def target (crate : Crate) (synonyms : Nat) (package : Package)
    (rooted : Bool) (path : List String) : Target :=
  match crate.reference package rooted path with
  | .foreign => .foreign
  | .unknown => .unknown
  | .item id =>
      if crate.declares id then .declared id
      else if crate.closes id then .foreign
      else
        match crate.synonym? id with
        | none => .unknown
        | some (generics, type) =>
            match synonyms with
            | 0 => .unknown
            | left + 1 =>
                match Shape.ofType generics.valueNames type with
                | .builtin _ => .foreign
                | .path rooted path => crate.target left id.package rooted path

end Crate

end RecordMasking.Source

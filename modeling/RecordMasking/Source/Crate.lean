import RecordMasking.Code.Reader.Files
import RecordMasking.QualifiedName
import RecordMasking.Source.Import

/-!
# The items of a crate

A source is a list of items mounted at a package; a module written out inside
it mounts its items one package deeper.  A crate is the list of all items of
its sources, each with its package and its file, and the packages at which
something is mounted.  Everything else is a view of that list.
-/

namespace RecordMasking.Source

open Code

structure MountedSource where
  package : Package
  file : String
  items : List Item

structure Placed where
  package : Package
  file : String
  item : Item

structure Crate where
  packages : List Package
  items : List Placed

namespace Crate

mutual

def packagesOfItem (package : Package) : Item → List Package
  | .mounted name items =>
      package.child name :: packagesOfItems (package.child name) items
  | _ => []

def packagesOfItems (package : Package) : List Item → List Package
  | [] => []
  | item :: rest => packagesOfItem package item ++ packagesOfItems package rest

end

mutual

/-- An item and the items inside it, each in its package. -/
def placedItem (package : Package) (file : String) : Item → List Placed
  | .mounted name items => placedItems (package.child name) file items
  | item => [⟨package, file, item⟩]

def placedItems (package : Package) (file : String) : List Item → List Placed
  | [] => []
  | item :: rest => placedItem package file item ++ placedItems package file rest

end

def ofSources (sources : List MountedSource) : Crate where
  packages :=
    sources.flatMap fun source =>
      source.package :: packagesOfItems source.package source.items
  items :=
    sources.flatMap fun source =>
      placedItems source.package source.file source.items

end Crate

namespace Placed

def record? (placed : Placed) : Option RecordItem :=
  match placed.item with
  | .record item => some item
  | _ => none

def recordId? (placed : Placed) : Option QualifiedName :=
  placed.record?.map fun item => ⟨placed.package, item.name⟩

def closedId? (placed : Placed) : Option QualifiedName :=
  match placed.item with
  | .closed name => some ⟨placed.package, name⟩
  | _ => none

/-- A synonym: its name, its parameters and its target. -/
def synonym? (placed : Placed) :
    Option (QualifiedName × Generics × TypeExpr) :=
  match placed.item with
  | .synonym name generics target =>
      some (⟨placed.package, name⟩, generics, target)
  | _ => none

def imports (placed : Placed) : List Import :=
  match placed.item with
  | .imports tree => Import.ofTree [] tree
  | _ => []

/-- The name of the implementing type and that of the trait, each by the
last segment of its path. -/
def implementation? (placed : Placed) : Option (String × String) :=
  match placed.item with
  | .implementation trait (.path _ segments) =>
      match segments.getLast?, trait.getLast? with
      | some self, some marker => some (self.name, marker.name)
      | _, _ => none
  | .implementation trait (.qualified _ _ _ segments) =>
      match segments.getLast?, trait.getLast? with
      | some self, some marker => some (self.name, marker.name)
      | _, _ => none
  | _ => none

end Placed

namespace Crate

def hasPackage (crate : Crate) (package : Package) : Bool :=
  crate.packages.contains package

/-- The items mounted at a package, in their order. -/
def itemsOf (crate : Crate) (package : Package) : List Placed :=
  crate.items.filter fun placed => placed.package == package

def declares (crate : Crate) (id : QualifiedName) : Bool :=
  crate.items.any fun placed => placed.recordId? == some id

def closes (crate : Crate) (id : QualifiedName) : Bool :=
  crate.items.any fun placed => placed.closedId? == some id

/-- The parameters and the target of a synonym; of several the last one
counts. -/
def synonym? (crate : Crate) (id : QualifiedName) :
    Option (Generics × TypeExpr) :=
  ((crate.items.filterMap Placed.synonym?).reverse.find? fun entry =>
    entry.1 == id).map Prod.snd

def importsOf (crate : Crate) (package : Package) : List Import :=
  (crate.itemsOf package).flatMap Placed.imports

/-- The path a name is imported from; of several the last one counts. -/
def imported? (crate : Crate) (package : Package) (name : String) :
    Option (List String) :=
  (((crate.importsOf package).filterMap Import.named?).reverse.find?
    fun entry => entry.1 == name).map Prod.snd

def globsOf (crate : Crate) (package : Package) : List (List String) :=
  (crate.importsOf package).filterMap Import.glob?

/-- The traits implemented in a package for types of the given name. -/
def traitsOf (crate : Crate) (package : Package) (self : String) :
    List String :=
  ((crate.itemsOf package).filterMap Placed.implementation?).filterMap
    fun entry => if entry.1 = self then some entry.2 else none

end Crate

/-- The names in the derives of an item, by the last segments of their
paths. -/
def derivedNames (attributes : List Attribute) : List String :=
  attributes.flatMap fun attr =>
    if attr.isNamed "derive" then
      match attr.form with
      | .list _ arguments => listedNames arguments
      | _ => []
    else []

namespace Placed

/-- Whether an item brings the marker in: by a derive, as the end of an
imported path, or by an implementation. -/
def mentions (marker : String) (placed : Placed) : Bool :=
  match placed.item with
  | .record item => (derivedNames item.attributes).contains marker
  | _ =>
      ((placed.imports.filterMap Import.named?).any fun entry =>
          entry.2.getLast? == some marker) ||
        (placed.implementation?.map Prod.snd == some marker)

end Placed

namespace Crate

def mentions (crate : Crate) (marker : String) : Bool :=
  crate.items.any fun placed => placed.mentions marker

end Crate

end RecordMasking.Source

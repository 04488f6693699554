import RecordMasking.Config
import RecordMasking.Fault
import RecordMasking.Schema
import RecordMasking.SortedNames
import RecordMasking.Source.Target

/-!
# Schemas from sources

The schema of a crate declares every structure of its sources.  A structure
has as supertypes what it derives and the traits implemented for its name in
its own package.  A field is sensitive when it carries the sensitive
attribute, whatever form the attribute has.
-/

namespace RecordMasking.Source

open Code

/-- The type of a field that is declared in a package among the given generic
parameters.  A type that leads to no declared record keeps its own text. -/
def fieldType (crate : Crate) (package : Package) (params : List String)
    (type : TypeExpr) : FieldType :=
  match Shape.ofType params type with
  | .builtin text => .builtin text
  | .path rooted path =>
      match crate.target synonymLimit package rooted path with
      | .declared id => .declared id
      | .foreign => .builtin type.render
      | .unknown => .unresolved type.render

def locationOf (file : String) (start : Position) : Location :=
  ⟨file, start.line, start.column + 1⟩

/-- Whether a field carries an attribute of the given name. -/
def isSensitive (name : String) (field : FieldItem) : Bool :=
  field.attributes.any fun attr => attr.isNamed name

def fieldName (index : Nat) (field : FieldItem) : FieldName :=
  match field.name with
  | some text => .named text
  | none => .position index

def fieldOf (config : Config) (crate : Crate) (placed : Placed)
    (params : List String) (index : Nat) (item : FieldItem) : Field where
  name := fieldName index item
  type := fieldType crate placed.package params item.type
  sensitive := isSensitive config.sensitiveAttribute item
  visibleIn := visibleIn placed.package item.visibility
  location := some (locationOf placed.file item.start)

def declarationOf (config : Config) (crate : Crate) (placed : Placed)
    (item : RecordItem) : Declaration where
  id := ⟨placed.package, item.name⟩
  fields :=
    item.fields.toList.mapIdx
      (fieldOf config crate placed item.generics.valueNames)
  supertypes :=
    sortedNames
      (derivedNames item.attributes ++ crate.traitsOf placed.package item.name)
  generics := item.generics.valueNames
  lifetimes := item.generics.lifetimes.map fun name => "'" ++ name
  location := some (locationOf placed.file item.start)

/-- The declarations of a crate in the order of its items. -/
def declarations (config : Config) (crate : Crate) : List Declaration :=
  crate.items.filterMap fun placed =>
    placed.record?.map (declarationOf config crate placed)

/-- The schema of a crate; of several declarations of one name the last one
is found. -/
def schemaOf (config : Config) (crate : Crate) : Schema :=
  Schema.ofListLast (declarations config crate) config.modelMarker
    (crate.mentions config.modelMarker)

/-- A source as it is given: a text, or nothing when its file is missing. -/
structure SourceText where
  package : Package
  file : String
  text : Option String

def SourceText.read (source : SourceText) : Except Fault MountedSource :=
  match source.text with
  | none => .error (.fileAccess source.file "No such file or directory (os error 2)")
  | some text =>
      match readItems text with
      | .ok items => .ok ⟨source.package, source.file, items⟩
      | .error complaint => .error (.unreadableSource source.file complaint)

/-- The schema of source texts; the first one that cannot be read is
reported. -/
def schemaOfTexts (config : Config) (sources : List SourceText) :
    Except Fault Schema := do
  return schemaOf config (Crate.ofSources (← sources.mapM SourceText.read))

end RecordMasking.Source

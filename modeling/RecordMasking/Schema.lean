import RecordMasking.Diagnostic
import RecordMasking.FieldPath
import RecordMasking.QualifiedName

/-!
# Schemas

A schema is a finite list of record declarations with a lookup that only
finds what is listed, the name of the marker that makes a record a model, and
whether that marker is in scope.  `Registry` assembles one by hand, with an
index from each name to the place of its declaration; `Schema.ofList` is the
schema that searches its list.
-/

namespace RecordMasking

/-- The identity of a field's type. -/
inductive FieldType where
  /-- A type that is never looked into. -/
  | builtin (text : String)
  /-- A record of the schema, or one that the schema should hold. -/
  | declared (id : QualifiedName)
  /-- A type that nothing is known about. -/
  | unresolved (text : String)
deriving DecidableEq, Repr, Inhabited

namespace FieldType

def display : FieldType → String
  | .builtin text => text
  | .declared id => id.display
  | .unresolved text => text

def declared? : FieldType → Option QualifiedName
  | .declared id => some id
  | _ => none

def isBuiltin : FieldType → Bool
  | .builtin _ => true
  | _ => false

end FieldType

structure Field where
  name : FieldName
  type : FieldType
  sensitive : Bool := false
  /-- The package that can name the field, with the modules inside it. -/
  visibleIn : Package := ""
  location : Option Location := none
deriving DecidableEq, Repr, Inhabited

def Field.visibleFrom (field : Field) (package : Package) : Bool :=
  Package.holds field.visibleIn package

structure Declaration where
  id : QualifiedName
  fields : List Field := []
  /-- Derives and implemented traits by their last segment, increasing. -/
  supertypes : List String := []
  /-- Names of the type and const parameters. -/
  generics : List String := []
  /-- Lifetime parameters with their leading quote. -/
  lifetimes : List String := []
  location : Option Location := none
deriving DecidableEq, Repr, Inhabited

namespace Declaration

def isTuple (declaration : Declaration) : Bool :=
  match declaration.fields with
  | { name := .position _, .. } :: _ => true
  | _ => false

end Declaration

/-- Listed declarations with a lookup that finds only listed ones, each
under its own name. -/
structure Schema where
  declarations : List Declaration
  marker : String
  markerResolved : Bool
  lookup : QualifiedName → Option Declaration
  lookup_sound : ∀ {id declaration}, lookup id = some declaration →
    declaration ∈ declarations ∧ declaration.id = id

namespace Schema

def names (schema : Schema) : List QualifiedName :=
  schema.declarations.map Declaration.id

def fields (schema : Schema) (id : QualifiedName) : List Field :=
  match schema.lookup id with
  | some declaration => declaration.fields
  | none => []

/-- The first field of a record that has the name. -/
def field? (schema : Schema) (owner : QualifiedName) (name : FieldName) :
    Option Field :=
  (schema.fields owner).find? fun field => field.name == name

/-- Whether the name is declared and carries the marker. -/
def isModel (schema : Schema) (id : QualifiedName) : Bool :=
  match schema.lookup id with
  | some declaration => declaration.supertypes.contains schema.marker
  | none => false

/-- The schema that searches its list from the front. -/
def ofList (declarations : List Declaration) (marker : String)
    (markerResolved : Bool) : Schema where
  declarations := declarations
  marker := marker
  markerResolved := markerResolved
  lookup id := declarations.find? fun declaration => declaration.id == id
  lookup_sound h := by
    refine ⟨List.mem_of_find?_eq_some h, ?_⟩
    simpa using List.find?_some h

/-- The schema in which the last of several declarations of one name is the
one that is found. -/
def ofListLast (declarations : List Declaration) (marker : String)
    (markerResolved : Bool) : Schema where
  declarations := declarations
  marker := marker
  markerResolved := markerResolved
  lookup id := declarations.reverse.find? fun declaration => declaration.id == id
  lookup_sound h := by
    refine ⟨List.mem_reverse.1 (List.mem_of_find?_eq_some h), ?_⟩
    simpa using List.find?_some h

theorem lookup_mem_names {schema : Schema} {id : QualifiedName}
    {declaration : Declaration} (h : schema.lookup id = some declaration) :
    id ∈ schema.names := by
  obtain ⟨hmem, hid⟩ := schema.lookup_sound h
  exact List.mem_map.2 ⟨declaration, hmem, hid⟩

end Schema

/-- Declarations in the order in which their names were first declared, with
the place of every name. -/
structure Registry where
  declarations : List Declaration
  places : List (QualifiedName × Nat)
  places_sound : ∀ id place, (id, place) ∈ places →
    ∃ declaration, declarations[place]? = some declaration ∧ declaration.id = id

namespace Registry

def empty : Registry where
  declarations := []
  places := []
  places_sound := by simp

def place? (registry : Registry) (id : QualifiedName) : Option Nat :=
  (registry.places.find? fun entry => entry.1 == id).map Prod.snd

theorem place?_mem {registry : Registry} {id : QualifiedName} {place : Nat}
    (h : registry.place? id = some place) : (id, place) ∈ registry.places := by
  obtain ⟨⟨name, found⟩, hfind, rfl⟩ := Option.map_eq_some_iff.1 h
  have hname : name = id := by simpa using List.find?_some hfind
  subst hname
  exact List.mem_of_find?_eq_some hfind

/-- Adds a declaration at the end, or puts it in the place of the one that
has its name. -/
def declare (registry : Registry) (declaration : Declaration) : Registry :=
  match h : registry.place? declaration.id with
  | some place =>
      { declarations := registry.declarations.set place declaration
        places := registry.places
        places_sound := by
          intro id other hother
          obtain ⟨found, hfound, hid⟩ := registry.places_sound id other hother
          obtain ⟨old, hold, holdId⟩ :=
            registry.places_sound _ _ (place?_mem h)
          by_cases heq : place = other
          · subst heq
            rw [hfound] at hold
            have hsame : found = old := Option.some.inj hold
            have hlt : place < registry.declarations.length :=
              (List.getElem?_eq_some_iff.1 hfound).1
            refine ⟨declaration, by simp [hlt], ?_⟩
            rw [← hid, hsame, holdId]
          · exact ⟨found, by rw [List.getElem?_set_ne heq]; exact hfound, hid⟩ }
  | none =>
      { declarations := registry.declarations ++ [declaration]
        places :=
          registry.places ++ [(declaration.id, registry.declarations.length)]
        places_sound := by
          intro id other hother
          rcases List.mem_append.1 hother with hold | hnew
          · obtain ⟨found, hfound, hid⟩ := registry.places_sound id other hold
            have hlt : other < registry.declarations.length :=
              (List.getElem?_eq_some_iff.1 hfound).1
            exact ⟨found, by rw [List.getElem?_append_left hlt]; exact hfound, hid⟩
          · obtain ⟨rfl, rfl⟩ := Prod.mk.inj (List.mem_singleton.1 hnew)
            exact ⟨declaration, by simp, rfl⟩ }

def ofList (declarations : List Declaration) : Registry :=
  declarations.foldl declare empty

def lookup (registry : Registry) (id : QualifiedName) : Option Declaration :=
  match registry.place? id with
  | some place => registry.declarations[place]?
  | none => none

def toSchema (registry : Registry) (marker : String) (markerResolved : Bool) :
    Schema where
  declarations := registry.declarations
  marker := marker
  markerResolved := markerResolved
  lookup := registry.lookup
  lookup_sound := by
    intro id declaration h
    unfold lookup at h
    split at h
    · next place hplace =>
        obtain ⟨found, hfound, hid⟩ :=
          registry.places_sound id place (place?_mem hplace)
        rw [hfound] at h
        obtain rfl := Option.some.inj h
        exact ⟨List.mem_of_getElem? hfound, hid⟩
    · simp at h

end Registry

end RecordMasking

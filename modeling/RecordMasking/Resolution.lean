import RecordMasking.Fault
import RecordMasking.Schema

/-!
# Resolution

The walk goes through the fields of a record depth first, in the order of
their declaration, and sights every sensitive field, every field whose type
is not known, and every field whose type is already on the way from the root.
It descends only into declared types that are not on the way, so the number
of listed names off the way bounds its depth.

A `Resolution` sorts the sightings by kind.  It is complete when no field
has an unknown type.
-/

namespace RecordMasking

/-- What the walk sights, each with its path from the type it started at. -/
inductive Sighting where
  | masked (path : FieldPath)
  | unknown (owner : QualifiedName) (path : FieldPath) (type : String)
      (location : Option Location)
  | cut (type : QualifiedName) (path : FieldPath) (location : Option Location)
deriving DecidableEq, Repr

/-- The same sighting, made from a record that holds the start in `field`. -/
def Sighting.under (field : FieldName) : Sighting → Sighting
  | .masked path => .masked (field :: path)
  | .unknown owner path type location =>
      .unknown owner (field :: path) type location
  | .cut type path location => .cut type (field :: path) location

namespace Schema

/-- Listed names that are not on the way. -/
def namesOff (schema : Schema) (onPath : List QualifiedName) :
    List QualifiedName :=
  schema.names.filter fun id => !onPath.contains id

theorem length_namesOff_cons_lt {schema : Schema}
    {onPath : List QualifiedName} {next : QualifiedName}
    (hoff : next ∉ onPath) (hdeclared : next ∈ schema.names) :
    (schema.namesOff (next :: onPath)).length <
      (schema.namesOff onPath).length := by
  unfold namesOff
  have hfilter :
      schema.names.filter (fun id => !(next :: onPath).contains id) =
        (schema.names.filter fun id => !onPath.contains id).filter
          (fun id => id != next) := by
    rw [List.filter_filter]
    congr 1
    funext id
    by_cases hid : id = next <;> simp [hid]
  rw [hfilter]
  refine Nat.lt_of_le_of_ne (List.length_filter_le _ _) fun hlength => ?_
  have hall := List.length_filter_eq_length_iff.1 hlength next
    (List.mem_filter.2 ⟨hdeclared, by simpa using hoff⟩)
  simp at hall

/-- Everything sighted below a record, when the types in `onPath` are on the
way to it. -/
def sightings (schema : Schema) (onPath : List QualifiedName)
    (owner : QualifiedName) : List Sighting :=
  (schema.fields owner).flatMap fun field =>
    (if field.sensitive then [.masked [field.name]] else []) ++
      match field.type with
      | .builtin _ => []
      | .unresolved text =>
          [.unknown owner [field.name] text field.location]
      | .declared next =>
          if _ : next ∈ onPath then
            [.cut next [field.name] field.location]
          else
            match _ : schema.lookup next with
            | none =>
                [.unknown owner [field.name] next.display field.location]
            | some _ =>
                (schema.sightings (next :: onPath) next).map
                  (Sighting.under field.name)
termination_by (schema.namesOff onPath).length
decreasing_by
  exact length_namesOff_cons_lt ‹_› (lookup_mem_names ‹_›)

end Schema

/-- A field whose type is not known. -/
structure UnresolvedField where
  owner : QualifiedName
  path : FieldPath
  type : String
  location : Option Location
deriving DecidableEq, Repr

/-- A field whose type is already on the way from the root. -/
structure CycleCut where
  type : QualifiedName
  path : FieldPath
  location : Option Location
deriving DecidableEq, Repr

structure Resolution where
  root : QualifiedName
  paths : PathSet
  unresolved : List UnresolvedField
  cycles : List CycleCut
deriving DecidableEq, Repr

namespace Sighting

def masked? : Sighting → Option FieldPath
  | .masked path => some path
  | _ => none

def unresolved? : Sighting → Option UnresolvedField
  | .unknown owner path type location => some ⟨owner, path, type, location⟩
  | _ => none

def cycle? : Sighting → Option CycleCut
  | .cut type path location => some ⟨type, path, location⟩
  | _ => none

end Sighting

namespace Resolution

def ofSightings (root : QualifiedName) (sightings : List Sighting) :
    Resolution where
  root := root
  paths := PathSet.ofList (sightings.filterMap Sighting.masked?)
  unresolved := sightings.filterMap Sighting.unresolved?
  cycles := sightings.filterMap Sighting.cycle?

def isComplete (resolution : Resolution) : Bool :=
  resolution.unresolved.isEmpty

/-- The conditions met on the way, first the unknown types and then the
cuts. -/
def issues (resolution : Resolution) : List (Fault × Option Location) :=
  (resolution.unresolved.map fun field =>
      (.unresolvedField field.owner field.path.display field.type,
        field.location)) ++
    resolution.cycles.map fun cut =>
      (.cyclicType cut.type
          (resolution.root.display ++ "." ++ cut.path.display),
        cut.location)

end Resolution

namespace Schema

/-- Resolves from a type with the types of `onPath` already on the way. -/
def resolveOnPath (schema : Schema) (type : QualifiedName)
    (onPath : List QualifiedName) : Resolution :=
  .ofSightings type (schema.sightings onPath type)

def resolve (schema : Schema) (root : QualifiedName) : Resolution :=
  schema.resolveOnPath root [root]

end Schema

end RecordMasking

import RecordMasking.Fault
import RecordMasking.Schema

/-!
# Mask tables

A mask table gives each field of a record one decision: clear it, hand it to
the mask of its own type, rebuild it with a table for its type, or keep it.
A sensitive field is cleared whatever its type.  A field with a masked path
strictly below it is handed over when its type is a model without generic
parameters, and rebuilt otherwise; rebuilding names every field of the nested
record, so each of them must be visible from the package of the model.

The recursion follows the paths: below a field they are shorter.
-/

namespace RecordMasking

inductive Decision where
  | clear
  | delegate (model : QualifiedName)
  | rebuild (type : QualifiedName) (entries : List (FieldName × Decision))
  | keep
deriving Inhabited

namespace Decision

def isClear : Decision → Bool
  | .clear => true
  | _ => false

def isKeep : Decision → Bool
  | .keep => true
  | _ => false

end Decision

/-- One decision for each field of a record, in the order of its fields. -/
structure MaskTable where
  type : QualifiedName
  entries : List (FieldName × Decision)
deriving Inhabited

namespace MaskTable

/-- The decision for the first field that is displayed as the given text. -/
def decision? (table : MaskTable) (field : String) : Option Decision :=
  (table.entries.find? fun entry => entry.1.display == field).map Prod.snd

/-- How many fields are not kept. -/
def overrides (table : MaskTable) : Nat :=
  (table.entries.filter fun entry => !entry.2.isKeep).length

end MaskTable

namespace PathSet

/-- Field names in all paths together. -/
def weight (paths : PathSet) : Nat :=
  paths.toList.flatten.length

theorem length_below?_lt {field : FieldName} {path rest : FieldPath}
    (h : FieldPath.below? field path = some rest) :
    rest.length < path.length := by
  unfold FieldPath.below? at h
  split at h
  · split at h
    · obtain rfl := Option.some.inj h
      simp
    · simp at h
  · simp at h

theorem weight_below_le (paths : PathSet) (field : FieldName) :
    (paths.below field).weight + (paths.below field).toList.length ≤
      paths.weight := by
  obtain ⟨paths⟩ := paths
  simp only [below, weight]
  induction paths with
  | nil => simp
  | cons path others ih =>
      simp only [List.flatten_cons, List.length_append]
      cases hpath : FieldPath.below? field path with
      | none =>
          rw [List.filterMap_cons_none hpath]
          omega
      | some rest =>
          have hlt := length_below?_lt hpath
          rw [List.filterMap_cons_some hpath]
          simp only [List.flatten_cons, List.length_append, List.length_cons]
          omega

theorem weight_below_lt {paths : PathSet} {field : FieldName}
    (h : (paths.below field).isEmpty = false) :
    (paths.below field).weight < paths.weight := by
  have hle := weight_below_le paths field
  have hpos : 0 < (paths.below field).toList.length := by
    unfold isEmpty at h
    cases hlist : (paths.below field).toList with
    | nil => simp [hlist] at h
    | cons head rest => simp
  omega

end PathSet

namespace Schema

/-- The declaration of a name, or the fault that there is none. -/
def declarationOf (schema : Schema) (id : QualifiedName) :
    Except Fault Declaration :=
  match schema.lookup id with
  | some declaration => .ok declaration
  | none => .error (.unknownType id)

/-- Whether a type has a mask of its own to hand a value to. -/
def delegates (schema : Schema) (id : QualifiedName) : Bool :=
  schema.isModel id &&
    match schema.lookup id with
    | some declaration => declaration.generics.isEmpty
    | none => false

/-- Refuses a nested record with a field that the model's package cannot
name; the first such field is reported. -/
def checkVisible (schema : Schema) (root nested : QualifiedName) :
    Except Fault Unit := do
  let declaration ← schema.declarationOf nested
  match declaration.fields.find? fun field =>
      !field.visibleFrom root.package with
  | some hidden =>
      .error (.unsupportedType root (.hiddenField hidden.name.display nested))
  | none => .ok ()

/-- The table of a type that is reached from the model `root`. -/
def decideFrom (schema : Schema) (root type : QualifiedName)
    (paths : PathSet) : Except Fault MaskTable := do
  let declaration ← schema.declarationOf type
  let entries ← declaration.fields.mapM fun field => do
    if field.sensitive then
      return (field.name, .clear)
    else
      match field.type with
      | .declared nested =>
          if _ : (paths.below field.name).isEmpty = false then
            if schema.delegates nested then
              return (field.name, .delegate nested)
            else
              schema.checkVisible root nested
              let table ←
                schema.decideFrom root nested (paths.below field.name)
              return (field.name, .rebuild table.type table.entries)
          else
            return (field.name, .keep)
      | _ => return (field.name, .keep)
  return ⟨type, entries⟩
termination_by paths.weight
decreasing_by exact PathSet.weight_below_lt ‹_›

/-- One decision for each direct field of a type. -/
def decide (schema : Schema) (type : QualifiedName) (paths : PathSet) :
    Except Fault MaskTable :=
  schema.decideFrom type type paths

end Schema

end RecordMasking

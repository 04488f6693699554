import RecordMasking.MaskTable
import RecordMasking.Resolution

/-!
# Masking values

A value of a record type has the fields of the type, and everything else is a
leaf that is not looked into.  Masks act on values: a mask has entries for
the fields of one record type, and hands nested models to the masks of their
own types.  The nested values are smaller, so masking ends even where the
entries of two types refer to each other.
-/

namespace RecordMasking

inductive Value (α : Type) where
  | leaf (content : α)
  | record (type : QualifiedName) (fields : List (FieldName × Value α))

instance {α : Type} [Inhabited α] : Inhabited (Value α) := ⟨.leaf default⟩

/-- The masks of all types, and the defaults of the fields of all records. -/
structure MaskSystem (α : Type) where
  entries : QualifiedName → List (FieldName × Decision)
  default : QualifiedName → FieldName → Value α

namespace MaskSystem

variable {α : Type}

mutual

/-- A value with the given entries applied to its fields. -/
def rebuild (masks : MaskSystem α) (entries : List (FieldName × Decision)) :
    Value α → Value α
  | .leaf content => .leaf content
  | .record type fields =>
      .record type (masks.rebuildFields type entries fields)

/-- The fields of a record behind their entries.  A field without an entry is
kept. -/
def rebuildFields (masks : MaskSystem α) (owner : QualifiedName)
    (entries : List (FieldName × Decision)) :
    List (FieldName × Value α) → List (FieldName × Value α)
  | [] => []
  | (name, value) :: rest =>
      (name,
        match entries.lookup name with
        | some .clear => masks.default owner name
        | some (.delegate model) => masks.rebuild (masks.entries model) value
        | some (.rebuild _ inner) => masks.rebuild inner value
        | some .keep => value
        | none => value) ::
        masks.rebuildFields owner entries rest

end

/-- The mask of a value's own type, applied to it. -/
def mask (masks : MaskSystem α) (value : Value α) : Value α :=
  match value with
  | .leaf _ => value
  | .record type _ => masks.rebuild (masks.entries type) value

end MaskSystem

/-- The masks of a schema by the tables of its types.  A type without a table
is not masked, and nothing is known about the type of a field that the schema
does not have. -/
def Schema.maskSystem {α : Type} (schema : Schema)
    (defaults : FieldType → Value α) : MaskSystem α where
  entries type :=
    match schema.decide type (schema.resolve type).paths with
    | .ok table => table.entries
    | .error _ => []
  default owner name :=
    match schema.field? owner name with
    | some field => defaults field.type
    | none => defaults (.unresolved name.display)

end RecordMasking

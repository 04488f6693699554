import RecordMasking.Source.SourceSchema

/-!
# Fields as they are written

The schema of a crate gives each written field a type.  The shape of what is
written is tested first; only a path that is of no builtin shape is looked up,
and then what it refers to settles everything but the text that is kept.
-/

namespace RecordMasking.Source

open Code

theorem declarationOf_mem (config : Config) {crate : Crate} {placed : Placed}
    {item : RecordItem} (hplaced : placed ∈ crate.items)
    (hrecord : placed.record? = some item) :
    declarationOf config crate placed item ∈
      (schemaOf config crate).declarations := by
  refine List.mem_filterMap.mpr ⟨placed, hplaced, ?_⟩
  rw [hrecord]
  rfl

/-- A field as it is written in a record of a crate. -/
structure WrittenField (crate : Crate) where
  placed : Placed
  record : RecordItem
  index : Nat
  field : FieldItem
  isPlaced : placed ∈ crate.items
  isRecord : placed.record? = some record
  isField : record.fields.toList[index]? = some field

namespace WrittenField

variable {crate : Crate}

/-- The field at an index of a record that is placed in the crate. -/
def ofRecord (placed : Placed) {record : RecordItem}
    (hplaced : placed ∈ crate.items) (hrecord : placed.record? = some record)
    (index : Nat) (hindex : index < record.fields.toList.length) :
    WrittenField crate where
  placed := placed
  record := record
  index := index
  field := record.fields.toList[index]
  isPlaced := hplaced
  isRecord := hrecord
  isField := List.getElem?_eq_getElem hindex

variable (written : WrittenField crate)

def package : Package :=
  written.placed.package

/-- The type and const parameters of the record. -/
def params : List String :=
  written.record.generics.valueNames

def declaration (config : Config) : Declaration :=
  declarationOf config crate written.placed written.record

/-- The type that the declaration of its record gives to the field. -/
def type? (config : Config) : Option FieldType :=
  (written.declaration config).fields[written.index]?.map Field.type

/-- The declaration is one of the schema of the crate. -/
theorem declaration_mem (config : Config) :
    written.declaration config ∈ (schemaOf config crate).declarations :=
  declarationOf_mem config written.isPlaced written.isRecord

theorem type?_eq (config : Config) :
    written.type? config =
      some (fieldType crate written.package written.params
        written.field.type) := by
  have hfields : (written.declaration config).fields =
      written.record.fields.toList.mapIdx
        (fieldOf config crate written.placed written.params) := rfl
  unfold type?
  rw [hfields, List.getElem?_mapIdx, written.isField]
  rfl

end WrittenField

/-! ## Paths -/

/-- The type of a field whose path leads to a target. -/
def Target.fieldType (text : String) : Target → FieldType
  | .declared id => .declared id
  | .foreign => .builtin text
  | .unknown => .unresolved text

theorem fieldType_path (crate : Crate) (package : Package)
    (params : List String) (rooted : Bool) (segments : List Segment) :
    fieldType crate package params (.path rooted segments) =
      if isBuiltinPath params rooted segments then
        .builtin (TypeExpr.render (.path rooted segments))
      else
        (crate.target synonymLimit package rooted
          (segments.map Segment.name)).fieldType
            (TypeExpr.render (.path rooted segments)) := by
  unfold fieldType
  rw [Shape.ofType]
  cases isBuiltinPath params rooted segments with
  | true => rfl
  | false =>
      simp only [Bool.false_eq_true, if_false]
      cases crate.target synonymLimit package rooted
        (segments.map Segment.name) <;> rfl

namespace Crate

variable {crate : Crate}

/-- What a reference leads to through at most the given number of synonyms. -/
def settle (crate : Crate) (synonyms : Nat) : Reference → Target
  | .foreign => .foreign
  | .unknown => .unknown
  | .item id =>
      if crate.declares id then .declared id
      else if crate.closes id then .foreign
      else
        match crate.synonym? id with
        | none => .unknown
        | some (generics, type) =>
            match synonyms with
            | 0 => .unknown
            | left + 1 =>
                match Shape.ofType generics.valueNames type with
                | .builtin _ => .foreign
                | .path rooted path => crate.target left id.package rooted path

/-- A path leads where its reference leads. -/
theorem target_eq_settle (crate : Crate) (synonyms : Nat) (package : Package)
    (rooted : Bool) (path : List String) :
    crate.target synonyms package rooted path =
      crate.settle synonyms (crate.reference package rooted path) := by
  unfold target settle
  cases crate.reference package rooted path <;> rfl

theorem settle_of_declares {synonyms : Nat} {id : QualifiedName}
    (hdeclares : crate.declares id = true) :
    crate.settle synonyms (.item id) = .declared id :=
  if_pos hdeclares

end Crate

end RecordMasking.Source

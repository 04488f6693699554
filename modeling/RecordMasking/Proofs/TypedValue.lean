import RecordMasking.Masking
import RecordMasking.Proofs.Walk

/-!
# Values of a type

A value of a declared type is a record with exactly the fields of its
declaration; every other value is a leaf.  Values are finite, so a type that
has one does not lie below itself, whatever cycles the schema has elsewhere.
-/

namespace RecordMasking

namespace Schema

variable {schema : Schema} {α : Type}

theorem field?_of_mem (hdistinct : schema.DistinctNames)
    {owner : QualifiedName} {field : Field}
    (hfield : field ∈ schema.fields owner) :
    schema.field? owner field.name = some field := by
  unfold field?
  have hfound : ((schema.fields owner).find? fun other =>
      other.name == field.name).isSome := by
    rw [List.find?_isSome]
    exact ⟨field, hfield, by simp⟩
  obtain ⟨found, heq⟩ := Option.isSome_iff_exists.mp hfound
  have hname : found.name = field.name := by
    simpa using List.find?_some heq
  rw [heq, hdistinct.eq_of_name_eq (List.mem_of_find?_eq_some heq) hfield
    hname]

mutual

/-- The values of a type.  Where a type is not known to the schema, nothing
is known about its values. -/
inductive HasType (schema : Schema) : FieldType → Value α → Prop
  | leaf {type : FieldType} {content : α}
      (hunknown : ∀ id, type = .declared id → schema.lookup id = none) :
      HasType schema type (.leaf content)
  | record {id : QualifiedName} {values : List (FieldName × Value α)}
      (hdeclared : (schema.lookup id).isSome)
      (hvalues : HasFields schema (schema.fields id) values) :
      HasType schema (.declared id) (.record id values)

inductive HasFields (schema : Schema) :
    List Field → List (FieldName × Value α) → Prop
  | nil : HasFields schema [] []
  | cons {field : Field} {value : Value α} {fields : List Field}
      {values : List (FieldName × Value α)}
      (hvalue : HasType schema field.type value)
      (hrest : HasFields schema fields values) :
      HasFields schema (field :: fields) ((field.name, value) :: values)

end

theorem HasType.eq_record {id : QualifiedName} {value : Value α}
    (hvalue : schema.HasType (.declared id) value)
    (hdeclared : (schema.lookup id).isSome) :
    ∃ values, value = .record id values ∧
      schema.HasFields (schema.fields id) values := by
  cases hvalue with
  | leaf hunknown => simp [hunknown id rfl] at hdeclared
  | record _ hvalues => exact ⟨_, rfl, hvalues⟩

theorem HasFields.map_fst {fields : List Field}
    {values : List (FieldName × Value α)}
    (hfields : schema.HasFields fields values) :
    values.map Prod.fst = fields.map Field.name := by
  induction values generalizing fields with
  | nil =>
      cases hfields
      rfl
  | cons entry rest ih =>
      cases hfields with
      | cons _ hrest => simp [ih hrest]

mutual

def hasType (schema : Schema) : FieldType → Value α → Bool
  | .declared id, .leaf _ => (schema.lookup id).isNone
  | .builtin _, .leaf _ => true
  | .unresolved _, .leaf _ => true
  | .declared id, .record type values =>
      id == type && (schema.lookup id).isSome &&
        schema.hasFields (schema.fields id) values
  | .builtin _, .record _ _ => false
  | .unresolved _, .record _ _ => false

def hasFields (schema : Schema) :
    List Field → List (FieldName × Value α) → Bool
  | [], [] => true
  | field :: fields, (name, value) :: values =>
      field.name == name && schema.hasType field.type value &&
        schema.hasFields fields values
  | [], _ :: _ => false
  | _ :: _, [] => false

end

mutual

theorem hasType_iff {type : FieldType} :
    ∀ {value : Value α},
      schema.hasType type value = true ↔ schema.HasType type value
  | .leaf content => by
      constructor
      · intro hchecked
        refine .leaf fun id htype => ?_
        rw [htype, hasType] at hchecked
        simpa using hchecked
      · rintro ⟨hunknown⟩
        cases type with
        | builtin text => rfl
        | declared id => simp [hasType, hunknown id rfl]
        | unresolved text => rfl
  | .record owner values => by
      constructor
      · intro hchecked
        cases type with
        | builtin text => simp [hasType] at hchecked
        | declared id =>
            simp only [hasType, Bool.and_eq_true, beq_iff_eq] at hchecked
            obtain ⟨⟨rfl, hdeclared⟩, hvalues⟩ := hchecked
            exact .record hdeclared (hasFields_iff.mp hvalues)
        | unresolved text => simp [hasType] at hchecked
      · intro hvalue
        cases hvalue with
        | record hdeclared hvalues =>
            simp [hasType, hdeclared, hasFields_iff.mpr hvalues]

theorem hasFields_iff {fields : List Field} :
    ∀ {values : List (FieldName × Value α)},
      schema.hasFields fields values = true ↔
        schema.HasFields fields values
  | [] => by
      cases fields with
      | nil => exact ⟨fun _ => .nil, fun _ => rfl⟩
      | cons field rest =>
          rw [hasFields]
          exact ⟨fun hchecked => by simp at hchecked, nofun⟩
  | (name, value) :: values => by
      cases fields with
      | nil =>
          rw [hasFields]
          exact ⟨fun hchecked => by simp at hchecked, nofun⟩
      | cons field rest =>
          simp only [hasFields, Bool.and_eq_true, beq_iff_eq]
          constructor
          · rintro ⟨⟨rfl, hvalue⟩, hvalues⟩
            exact .cons (hasType_iff.mp hvalue) (hasFields_iff.mp hvalues)
          · intro hfields
            cases hfields with
            | cons hvalue hvalues =>
                exact ⟨⟨rfl, hasType_iff.mpr hvalue⟩,
                  hasFields_iff.mpr hvalues⟩

end

instance (type : FieldType) (value : Value α) :
    Decidable (schema.HasType type value) :=
  decidable_of_iff _ hasType_iff

/-! ## Types with a finite value -/

mutual

theorem HasType.acc {id : QualifiedName} :
    ∀ {value : Value α}, schema.HasType (.declared id) value →
      Acc (Function.swap schema.Nests) id
  | .leaf _, hvalue => by
      refine Acc.intro id fun next hnests => ?_
      obtain ⟨field, hfield, _, _⟩ := hnests
      cases hvalue with
      | leaf hunknown =>
          have hdeclared := isSome_lookup_of_mem_fields hfield
          simp [hunknown id rfl] at hdeclared
  | .record _ values, hvalue => by
      refine Acc.intro id fun next hnests => ?_
      obtain ⟨field, hfield, htype, _⟩ := hnests
      cases hvalue with
      | record _ hvalues => exact hvalues.acc hfield htype

theorem HasFields.acc {fields : List Field} {field : Field}
    {next : QualifiedName} :
    ∀ {values : List (FieldName × Value α)},
      schema.HasFields fields values → field ∈ fields →
      field.type = .declared next → Acc (Function.swap schema.Nests) next
  | [], hfields, hfield, _ => by
      cases hfields
      simp at hfield
  | (_, value) :: values, hfields, hfield, htype => by
      cases hfields with
      | cons hvalue hrest =>
          rcases List.mem_cons.mp hfield with rfl | hlater
          · rw [htype] at hvalue
            exact hvalue.acc
          · exact hrest.acc hlater htype

end

/-- A type that has a value does not lie below itself. -/
theorem HasType.acyclic {id : QualifiedName} {value : Value α}
    (hvalue : schema.HasType (.declared id) value) :
    ¬ Relation.TransGen schema.Nests id id := by
  intro hcycle
  have hbelow : Relation.TransGen (Function.swap schema.Nests) id id :=
    Relation.transGen_swap.mpr hcycle
  have hacc := hvalue.acc.transGen
  induction hacc with
  | intro type _ ih => exact ih type hbelow hvalue hcycle hbelow

end Schema

end RecordMasking

import Mathlib.Data.List.Nodup
import Mathlib.Data.List.Perm.Subperm
import Mathlib.Logic.Relation
import RecordMasking.Schema

/-!
# Walks through a schema

A type nests another one when one of its fields has that type and the schema
declares it.  The closure of a root holds the types that are reached by
nesting; a walk also remembers the fields that were gone through.  Types may
repeat on a walk.  The main statement is that they need not: whatever is in
the closure of a root ends a walk on which no type occurs twice.
-/

namespace RecordMasking

/-- A field that is gone through, with the type it leads to. -/
structure Descent where
  field : Field
  type : QualifiedName

namespace Descent

def path (steps : List Descent) : FieldPath :=
  steps.map fun step => step.field.name

def types (steps : List Descent) : List QualifiedName :=
  steps.map Descent.type

@[simp] theorem path_nil : path [] = [] := rfl

@[simp] theorem path_cons (step : Descent) (steps : List Descent) :
    path (step :: steps) = step.field.name :: path steps := rfl

@[simp] theorem types_nil : types [] = [] := rfl

@[simp] theorem types_cons (step : Descent) (steps : List Descent) :
    types (step :: steps) = step.type :: types steps := rfl

@[simp] theorem length_path (steps : List Descent) :
    (path steps).length = steps.length := by
  simp [path]

@[simp] theorem length_types (steps : List Descent) :
    (types steps).length = steps.length := by
  simp [types]

end Descent

namespace Schema

variable {schema : Schema}

theorem isSome_lookup_of_mem_fields {owner : QualifiedName} {field : Field}
    (hfield : field ∈ schema.fields owner) :
    (schema.lookup owner).isSome := by
  unfold fields at hfield
  cases hlookup : schema.lookup owner with
  | none => simp [hlookup] at hfield
  | some declaration => rfl

theorem mem_names_of_isSome {id : QualifiedName}
    (hid : (schema.lookup id).isSome) : id ∈ schema.names := by
  obtain ⟨declaration, hlookup⟩ := Option.isSome_iff_exists.mp hid
  exact lookup_mem_names hlookup

/-- The fields of every declaration are told apart by their names. -/
def DistinctNames (schema : Schema) : Prop :=
  ∀ declaration ∈ schema.declarations,
    (declaration.fields.map Field.name).Nodup

instance (schema : Schema) : Decidable schema.DistinctNames :=
  inferInstanceAs (Decidable (∀ declaration ∈ schema.declarations,
    (declaration.fields.map Field.name).Nodup))

theorem DistinctNames.nodup_names (hdistinct : schema.DistinctNames)
    (owner : QualifiedName) :
    ((schema.fields owner).map Field.name).Nodup := by
  unfold fields
  cases hlookup : schema.lookup owner with
  | none => simp
  | some declaration =>
      exact hdistinct declaration (schema.lookup_sound hlookup).1

theorem DistinctNames.eq_of_name_eq (hdistinct : schema.DistinctNames)
    {owner : QualifiedName} {field other : Field}
    (hfield : field ∈ schema.fields owner)
    (hother : other ∈ schema.fields owner)
    (hname : field.name = other.name) : field = other :=
  List.inj_on_of_nodup_map (hdistinct.nodup_names owner) hfield hother hname

/-- A field of `owner` holds records of the declared type `next`. -/
def Nests (schema : Schema) (owner next : QualifiedName) : Prop :=
  ∃ field ∈ schema.fields owner,
    field.type = .declared next ∧ (schema.lookup next).isSome

/-- The types that are reached from a root by nesting, the root included. -/
def InClosure (schema : Schema) (root type : QualifiedName) : Prop :=
  Relation.ReflTransGen schema.Nests root type

/-- The fields that lead from a start through declared types to a stop. -/
inductive Walk (schema : Schema) :
    QualifiedName → List Descent → QualifiedName → Prop
  | here {type : QualifiedName} : Walk schema type [] type
  | down {owner next stop : QualifiedName} {field : Field}
      {steps : List Descent}
      (hfield : field ∈ schema.fields owner)
      (htype : field.type = .declared next)
      (hnext : (schema.lookup next).isSome)
      (hrest : Walk schema next steps stop) :
      Walk schema owner (⟨field, next⟩ :: steps) stop

theorem Walk.inClosure {root stop : QualifiedName} {steps : List Descent}
    (hwalk : schema.Walk root steps stop) : schema.InClosure root stop := by
  induction hwalk with
  | here => exact .refl
  | down hfield htype hnext _ ih =>
      exact ih.head ⟨_, hfield, htype, hnext⟩

theorem Walk.exists_suffix {root stop type : QualifiedName}
    {steps : List Descent} (hwalk : schema.Walk root steps stop)
    (htype : type ∈ root :: Descent.types steps) :
    ∃ after, schema.Walk type after stop ∧
      type :: Descent.types after <:+ root :: Descent.types steps := by
  induction hwalk with
  | here =>
      obtain rfl : type = _ := by simpa using htype
      exact ⟨[], .here, List.suffix_refl _⟩
  | @down owner next stop field steps hfield hdeclared hnext hrest ih =>
      rcases List.mem_cons.mp htype with rfl | hlater
      · exact ⟨⟨field, next⟩ :: steps, .down hfield hdeclared hnext hrest,
          List.suffix_refl _⟩
      · obtain ⟨after, hafter, hsuffix⟩ := ih hlater
        exact ⟨after, hafter, hsuffix.trans (List.suffix_cons _ _)⟩

/-- What is in the closure ends a walk on which no type occurs twice. -/
theorem InClosure.exists_simple_walk {root stop : QualifiedName}
    (hclosure : schema.InClosure root stop) :
    ∃ steps, schema.Walk root steps stop ∧
      (root :: Descent.types steps).Nodup := by
  induction hclosure using Relation.ReflTransGen.head_induction_on with
  | refl => exact ⟨[], .here, by simp⟩
  | @head owner next hnests _ ih =>
      obtain ⟨field, hfield, htype, hnext⟩ := hnests
      obtain ⟨steps, hwalk, hsimple⟩ := ih
      by_cases hseen : owner ∈ next :: Descent.types steps
      · -- The walk comes back to its first type: only the rest is kept.
        obtain ⟨after, hafter, hsuffix⟩ := hwalk.exists_suffix hseen
        exact ⟨after, hafter, hsimple.sublist hsuffix.sublist⟩
      · exact ⟨⟨field, next⟩ :: steps, .down hfield htype hnext hwalk,
          List.nodup_cons.mpr ⟨hseen, hsimple⟩⟩

theorem Walk.isSome_lookup {root stop : QualifiedName}
    {steps : List Descent} (hwalk : schema.Walk root steps stop)
    {field : Field} (hfield : field ∈ schema.fields stop) :
    ∀ type ∈ root :: Descent.types steps, (schema.lookup type).isSome := by
  induction hwalk with
  | here =>
      intro type htype
      obtain rfl : type = _ := by simpa using htype
      exact isSome_lookup_of_mem_fields hfield
  | down hfirst _ _ _ ih =>
      intro type htype
      rcases List.mem_cons.mp htype with rfl | hlater
      · exact isSome_lookup_of_mem_fields hfirst
      · exact ih hfield type hlater

/-- A walk without repetition to a field goes through fewer types than the
schema lists. -/
theorem Walk.length_lt_of_simple {root stop : QualifiedName}
    {steps : List Descent} (hwalk : schema.Walk root steps stop)
    (hsimple : (root :: Descent.types steps).Nodup)
    {field : Field} (hfield : field ∈ schema.fields stop) :
    steps.length < schema.declarations.length := by
  have hsubset : root :: Descent.types steps ⊆ schema.names := fun type htype =>
    mem_names_of_isSome (hwalk.isSome_lookup hfield type htype)
  have hlength := (List.subperm_of_subset hsimple hsubset).length_le
  simp only [List.length_cons, Descent.length_types, names,
    List.length_map] at hlength
  omega

end Schema

end RecordMasking

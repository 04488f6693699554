import RecordMasking.Proofs.Walk
import RecordMasking.Resolution

/-!
# What the walk sights

Each field is sighted by what it is and where it is met: it can be sensitive,
it can have an unknown type, and its type can be on the way already.  The
main statement is that `Schema.sightings` finds exactly what can be sighted
at the end of a walk whose types are fresh, that is, pairwise different and
not on the way before.

`Schema.descent_induction` is the induction along the recursion of
`Schema.sightings`: a statement holds below every type when it is inherited
from the types that the recursion goes down to.
-/

namespace RecordMasking

namespace Sighting

def path : Sighting → FieldPath
  | .masked path => path
  | .unknown _ path _ _ => path
  | .cut _ path _ => path

/-- The same sighting, made from the start of the given path. -/
def below (path : FieldPath) (sighting : Sighting) : Sighting :=
  path.foldr Sighting.under sighting

@[simp] theorem path_under (field : FieldName) (sighting : Sighting) :
    (sighting.under field).path = field :: sighting.path := by
  cases sighting <;> rfl

@[simp] theorem below_nil (sighting : Sighting) :
    sighting.below [] = sighting := rfl

@[simp] theorem below_cons (field : FieldName) (path : FieldPath)
    (sighting : Sighting) :
    sighting.below (field :: path) = (sighting.below path).under field := rfl

@[simp] theorem below_masked (before path : FieldPath) :
    (Sighting.masked path).below before = .masked (before ++ path) := by
  induction before with
  | nil => rfl
  | cons field rest ih => simp [ih, under]

@[simp] theorem below_unknown (before path : FieldPath)
    (owner : QualifiedName) (type : String) (location : Option Location) :
    (Sighting.unknown owner path type location).below before =
      .unknown owner (before ++ path) type location := by
  induction before with
  | nil => rfl
  | cons field rest ih => simp [ih, under]

@[simp] theorem below_cut (before path : FieldPath) (type : QualifiedName)
    (location : Option Location) :
    (Sighting.cut type path location).below before =
      .cut type (before ++ path) location := by
  induction before with
  | nil => rfl
  | cons field rest ih => simp [ih, under]

end Sighting

namespace Schema

variable {schema : Schema}

/-! ## The recursion -/

/-- Induction along the descents of the walk, which leave the listed types
that are on the way behind. -/
theorem descent_induction (schema : Schema)
    {motive : List QualifiedName → QualifiedName → Prop}
    (hstep : ∀ onPath owner,
      (∀ field ∈ schema.fields owner, ∀ next,
        field.type = .declared next → next ∉ onPath →
        (schema.lookup next).isSome → motive (next :: onPath) next) →
      motive onPath owner)
    (onPath : List QualifiedName) (owner : QualifiedName) :
    motive onPath owner := by
  induction hrank : (schema.namesOff onPath).length
      using Nat.strongRecOn generalizing onPath owner with
  | _ rank ih =>
      apply hstep
      intro field _ next _ hoff hnext
      have hlt := length_namesOff_cons_lt hoff (mem_names_of_isSome hnext)
      exact ih _ (hrank ▸ hlt) (next :: onPath) next rfl

def typeSightings (schema : Schema) (onPath : List QualifiedName)
    (owner : QualifiedName) (field : Field) : List Sighting :=
  match field.type with
  | .builtin _ => []
  | .unresolved text => [.unknown owner [field.name] text field.location]
  | .declared next =>
      if next ∈ onPath then [.cut next [field.name] field.location]
      else if (schema.lookup next).isSome then
        (schema.sightings (next :: onPath) next).map
          (Sighting.under field.name)
      else [.unknown owner [field.name] next.display field.location]

def fieldSightings (schema : Schema) (onPath : List QualifiedName)
    (owner : QualifiedName) (field : Field) : List Sighting :=
  (if field.sensitive then [.masked [field.name]] else []) ++
    schema.typeSightings onPath owner field

theorem sightings_eq_flatMap (onPath : List QualifiedName)
    (owner : QualifiedName) :
    schema.sightings onPath owner =
      (schema.fields owner).flatMap (schema.fieldSightings onPath owner) := by
  rw [sightings]
  congr 1
  funext field
  unfold fieldSightings typeSightings
  congr 1
  cases field.type with
  | builtin _ => rfl
  | unresolved _ => rfl
  | declared next =>
      by_cases hon : next ∈ onPath
      · simp [hon]
      · simp only [hon, dite_false, if_false]
        split <;> simp_all

/-! ## Fields at the end of a walk -/

/-- The type of a field is not known: it is unresolved, or declared without
being in the schema. -/
inductive UnknownType (schema : Schema) (field : Field) : String → Prop
  | unresolved {text : String} (htype : field.type = .unresolved text) :
      UnknownType schema field text
  | absent {id : QualifiedName} (htype : field.type = .declared id)
      (habsent : schema.lookup id = none) :
      UnknownType schema field id.display

/-- What a field of `owner` is sighted as when the types of `onPath` are on
the way. -/
inductive Sights (schema : Schema) (onPath : List QualifiedName)
    (owner : QualifiedName) (field : Field) : Sighting → Prop
  | masked (hsensitive : field.sensitive) :
      Sights schema onPath owner field (.masked [field.name])
  | unknown {type : String} (hunknown : schema.UnknownType field type)
      (hoff : ∀ id ∈ onPath, field.type ≠ .declared id) :
      Sights schema onPath owner field
        (.unknown owner [field.name] type field.location)
  | cut {type : QualifiedName} (htype : field.type = .declared type)
      (hon : type ∈ onPath) :
      Sights schema onPath owner field
        (.cut type [field.name] field.location)

theorem mem_fieldSightings_iff {onPath : List QualifiedName}
    {owner : QualifiedName} {field : Field} {sighting : Sighting} :
    sighting ∈ schema.fieldSightings onPath owner field ↔
      schema.Sights onPath owner field sighting ∨
        ∃ next, field.type = .declared next ∧ next ∉ onPath ∧
          (schema.lookup next).isSome ∧
          ∃ inner ∈ schema.sightings (next :: onPath) next,
            sighting = inner.under field.name := by
  unfold fieldSightings
  rw [List.mem_append]
  constructor
  · rintro (hmasked | htype)
    · split at hmasked
      next hsensitive =>
        obtain rfl := List.mem_singleton.mp hmasked
        exact .inl (.masked hsensitive)
      next => simp at hmasked
    · unfold typeSightings at htype
      split at htype
      next => simp at htype
      next text htext =>
        obtain rfl := List.mem_singleton.mp htype
        exact .inl (.unknown (.unresolved htext) (by simp [htext]))
      next next hnext =>
        split at htype
        next hon =>
          obtain rfl := List.mem_singleton.mp htype
          exact .inl (.cut hnext hon)
        next hoff =>
          split at htype
          next hsome =>
            obtain ⟨inner, hinner, rfl⟩ := List.mem_map.mp htype
            exact .inr ⟨next, hnext, hoff, hsome, inner, hinner, rfl⟩
          next hnone =>
            obtain rfl := List.mem_singleton.mp htype
            refine .inl (.unknown (.absent hnext (by simpa using hnone)) ?_)
            intro id hid heq
            obtain rfl : next = id := by simpa [hnext] using heq
            exact hoff hid
  · rintro (hsights | ⟨next, hnext, hoff, hsome, inner, hinner, rfl⟩)
    · cases hsights with
      | masked hsensitive => simp [hsensitive]
      | unknown hunknown hoff =>
          cases hunknown with
          | unresolved htext => simp [typeSightings, htext]
          | @absent id htype habsent =>
              have hid : id ∉ onPath := fun hon => hoff id hon htype
              simp [typeSightings, htype, hid, habsent]
      | cut htype hon => simp [typeSightings, htype, hon]
    · right
      simp only [typeSightings, hnext, hoff, hsome, if_true, if_false]
      exact List.mem_map.mpr ⟨inner, hinner, rfl⟩

/-- The types of a walk are pairwise different, and none of them was on the
way before. -/
def Fresh (onPath : List QualifiedName) (steps : List Descent) : Prop :=
  (Descent.types steps).Nodup ∧ ∀ type ∈ Descent.types steps, type ∉ onPath

@[simp] theorem fresh_nil (onPath : List QualifiedName) :
    Fresh onPath [] := by
  simp [Fresh]

theorem fresh_cons_iff {onPath : List QualifiedName} {field : Field}
    {next : QualifiedName} {steps : List Descent} :
    Fresh onPath (⟨field, next⟩ :: steps) ↔
      next ∉ onPath ∧ Fresh (next :: onPath) steps := by
  simp only [Fresh, Descent.types_cons, List.nodup_cons, List.mem_cons,
    forall_eq_or_imp]
  constructor
  · rintro ⟨⟨hnew, hnodup⟩, hoff, hrest⟩
    refine ⟨hoff, hnodup, fun type htype => ?_⟩
    rintro (rfl | hon)
    · exact hnew htype
    · exact hrest type htype hon
  · rintro ⟨hoff, hnodup, hrest⟩
    refine ⟨⟨fun hmem => hrest next hmem (.inl rfl), hnodup⟩, hoff, ?_⟩
    exact fun type htype hon => hrest type htype (.inr hon)

theorem fresh_singleton_iff {root : QualifiedName} {steps : List Descent} :
    Fresh [root] steps ↔ (root :: Descent.types steps).Nodup := by
  rw [List.nodup_cons, and_comm]
  refine and_congr_right fun _ => ?_
  simp only [List.mem_singleton]
  exact ⟨fun h hmem => h root hmem rfl, fun h _ htype heq => h (heq ▸ htype)⟩

def wayBack (onPath : List QualifiedName) (steps : List Descent) :
    List QualifiedName :=
  (Descent.types steps).reverse ++ onPath

@[simp] theorem wayBack_nil (onPath : List QualifiedName) :
    wayBack onPath [] = onPath := rfl

@[simp] theorem wayBack_cons (onPath : List QualifiedName) (step : Descent)
    (steps : List Descent) :
    wayBack onPath (step :: steps) = wayBack (step.type :: onPath) steps := by
  simp [wayBack]

theorem mem_wayBack_iff {onPath : List QualifiedName} {steps : List Descent}
    {type : QualifiedName} :
    type ∈ wayBack onPath steps ↔
      type ∈ Descent.types steps ∨ type ∈ onPath := by
  simp [wayBack]

/-- The walk sights exactly what fields at the end of fresh walks are
sighted as. -/
theorem mem_sightings_iff {onPath : List QualifiedName}
    {owner : QualifiedName} {sighting : Sighting} :
    sighting ∈ schema.sightings onPath owner ↔
      ∃ steps stop field seen,
        schema.Walk owner steps stop ∧ Fresh onPath steps ∧
          field ∈ schema.fields stop ∧
          schema.Sights (wayBack onPath steps) stop field seen ∧
          sighting = seen.below (Descent.path steps) := by
  constructor
  · induction onPath, owner using descent_induction schema
        generalizing sighting with
    | hstep onPath owner ih =>
        intro hmem
        rw [sightings_eq_flatMap] at hmem
        obtain ⟨field, hfield, hsighted⟩ := List.mem_flatMap.mp hmem
        rcases mem_fieldSightings_iff.mp hsighted with
          hsights | ⟨next, htype, hoff, hnext, inner, hinner, rfl⟩
        · exact ⟨[], owner, field, sighting, .here, fresh_nil _, hfield,
            hsights, rfl⟩
        · obtain ⟨steps, stop, last, seen, hwalk, hfresh, hlast, hsights,
            rfl⟩ := ih field hfield next htype hoff hnext hinner
          exact ⟨⟨field, next⟩ :: steps, stop, last, seen,
            .down hfield htype hnext hwalk,
            fresh_cons_iff.mpr ⟨hoff, hfresh⟩, hlast,
            by simpa using hsights, rfl⟩
  · rintro ⟨steps, stop, field, seen, hwalk, hfresh, hfield, hsights, rfl⟩
    induction hwalk generalizing onPath with
    | here =>
        rw [sightings_eq_flatMap]
        exact List.mem_flatMap.mpr
          ⟨field, hfield, mem_fieldSightings_iff.mpr (.inl hsights)⟩
    | @down owner next stop first steps hfirst htype hnext _ ih =>
        obtain ⟨hoff, hrest⟩ := fresh_cons_iff.mp hfresh
        have hinner := ih hrest hfield (by simpa using hsights)
        rw [sightings_eq_flatMap]
        exact List.mem_flatMap.mpr
          ⟨first, hfirst, mem_fieldSightings_iff.mpr
            (.inr ⟨next, htype, hoff, hnext, _, hinner, rfl⟩)⟩

end Schema

end RecordMasking

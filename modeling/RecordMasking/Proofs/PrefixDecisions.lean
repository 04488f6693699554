import Mathlib.Data.List.Infix
import RecordMasking.Proofs.Coverage

/-!
# Decisions and prefixes

A field is descended into when some masked path runs through it and goes on
behind it, so a decision depends on nothing but the proper prefixes of the
paths.  At each descent the paths lose their first name: however the records
nest, even within themselves, the descent is no deeper than the longest path
is long.
-/

namespace RecordMasking

namespace PathSet

variable {paths : PathSet} {field : FieldName}

/-- Some path leads to the place and goes on behind it. -/
def RunsThrough (paths : PathSet) (place : FieldPath) : Prop :=
  ∃ path ∈ paths.toList, place <+: path ∧ place ≠ path

/-- The paths of both sets run through the same places. -/
def SamePrefixes (one other : PathSet) : Prop :=
  ∀ place, place ≠ [] → (one.RunsThrough place ↔ other.RunsThrough place)

/-- The places that paths run through. -/
def places (paths : PathSet) : List FieldPath :=
  paths.toList.flatMap fun path => path.inits.filter (· ≠ path)

theorem mem_places_iff {place : FieldPath} :
    place ∈ paths.places ↔ paths.RunsThrough place := by
  simp [places, RunsThrough, List.mem_inits]

instance (one other : PathSet) : Decidable (SamePrefixes one other) :=
  decidable_of_iff
    ((∀ place ∈ one.places, place ≠ [] → place ∈ other.places) ∧
      ∀ place ∈ other.places, place ≠ [] → place ∈ one.places) (by
    simp only [mem_places_iff]
    constructor
    · rintro ⟨hone, hother⟩ place hplace
      exact ⟨fun h => hone place h hplace, fun h => hother place h hplace⟩
    · intro hsame
      exact ⟨fun place h hplace => (hsame place hplace).mp h,
        fun place h hplace => (hsame place hplace).mpr h⟩)

theorem runsThrough_singleton_iff :
    paths.RunsThrough [field] ↔ (paths.below field).isEmpty = false := by
  rw [isEmpty_eq_false_iff]
  constructor
  · rintro ⟨_, hpath, ⟨rest, rfl⟩, hproper⟩
    have hrest : rest ≠ [] := by
      rintro rfl
      exact hproper rfl
    exact ⟨rest, mem_below.mpr ⟨hrest, hpath⟩⟩
  · rintro ⟨rest, hrest⟩
    obtain ⟨hsome, hpath⟩ := mem_below.mp hrest
    refine ⟨field :: rest, hpath, ⟨rest, rfl⟩, ?_⟩
    simpa using Ne.symm hsome

theorem runsThrough_below_iff {place : FieldPath} (hplace : place ≠ []) :
    (paths.below field).RunsThrough place ↔
      paths.RunsThrough (field :: place) := by
  constructor
  · rintro ⟨rest, hrest, hprefix, hproper⟩
    obtain ⟨_, hpath⟩ := mem_below.mp hrest
    refine ⟨field :: rest, hpath, ?_, ?_⟩
    · exact List.cons_prefix_cons.mpr ⟨rfl, hprefix⟩
    · simpa using hproper
  · rintro ⟨path, hpath, hprefix, hproper⟩
    cases path with
    | nil => simp at hprefix
    | cons first rest =>
        obtain ⟨rfl, hrest⟩ := List.cons_prefix_cons.mp hprefix
        have hsome : rest ≠ [] := by
          rintro rfl
          exact hplace (List.prefix_nil.mp hrest)
        refine ⟨rest, mem_below.mpr ⟨hsome, hpath⟩, hrest, ?_⟩
        simpa using hproper

namespace SamePrefixes

variable {one other : PathSet}

theorem below (hsame : SamePrefixes one other) (field : FieldName) :
    SamePrefixes (one.below field) (other.below field) := by
  intro place hplace
  rw [runsThrough_below_iff hplace, runsThrough_below_iff hplace]
  exact hsame _ (List.cons_ne_nil _ _)

theorem isEmpty_below (hsame : SamePrefixes one other) (field : FieldName) :
    (one.below field).isEmpty = (other.below field).isEmpty := by
  have hthrough := hsame [field] (List.cons_ne_nil _ _)
  rw [runsThrough_singleton_iff, runsThrough_singleton_iff] at hthrough
  cases hone : (one.below field).isEmpty with
  | false => exact (hthrough.mp hone).symm
  | true =>
      cases hother : (other.below field).isEmpty with
      | false => simp [hthrough.mpr hother] at hone
      | true => rfl

end SamePrefixes

end PathSet

/-! ## Steps that end -/

/-- A step that ends, with its result or its fault. -/
def ended {α : Type} (step : Except Fault α) : ExceptT Fault Option α :=
  ExceptT.mk (some step)

theorem ended_bind {α β : Type} (step : Except Fault α)
    (next : α → Except Fault β) :
    ended (step >>= next) = ended step >>= fun value => ended (next value) := by
  cases step <;> rfl

theorem ended_mapM {α β : Type} (step : α → Except Fault β)
    (items : List α) :
    ended (items.mapM step) = items.mapM fun item => ended (step item) := by
  induction items with
  | nil => rfl
  | cons item rest ih =>
      rw [List.mapM_cons, List.mapM_cons, ended_bind]
      congr 1
      funext first
      rw [ended_bind, ih]
      rfl

namespace Schema

variable {schema : Schema} {root : QualifiedName}

open PathSet (SamePrefixes)

/-! ## The same prefixes, the same decisions -/

theorem decideField_congr {one other : PathSet}
    (hsame : SamePrefixes one other) (field : Field)
    (hinner : ∀ nested, (one.below field.name).isEmpty = false →
      schema.decideFrom root nested (one.below field.name) =
        schema.decideFrom root nested (other.below field.name)) :
    schema.decideField root one field =
      schema.decideField root other field := by
  have hempty := hsame.isEmpty_below field.name
  unfold decideField
  cases hbelow : (one.below field.name).isEmpty with
  | false => simp only [← hempty, hbelow, hinner _ hbelow]
  | true => simp only [← hempty, hbelow, Bool.true_eq_false, dite_false]

theorem decideFrom_congr {one other : PathSet}
    (hsame : SamePrefixes one other) (type : QualifiedName) :
    schema.decideFrom root type one = schema.decideFrom root type other := by
  -- The types may go round in a circle, so the induction is on the paths.
  induction hweight : one.weight using Nat.strongRecOn
    generalizing one other type with
  | _ weight ih =>
      have hfields : schema.decideField root one =
          schema.decideField root other := by
        funext field
        apply decideField_congr hsame
        intro nested hbelow
        have hless := PathSet.weight_below_lt hbelow
        exact ih _ (hweight ▸ hless) (hsame.below field.name) nested rfl
      rw [decideFrom_eq, decideFrom_eq, hfields]

/-! ## The depth of the descent -/

/-- The decision for a field where nested tables are made by the given
descent, which may not come to an end. -/
def decideFieldBy (schema : Schema) (root : QualifiedName)
    (descend : QualifiedName → PathSet → ExceptT Fault Option MaskTable)
    (paths : PathSet) (field : Field) :
    ExceptT Fault Option (FieldName × Decision) := do
  if field.sensitive then
    return (field.name, .clear)
  else
    match field.type with
    | .declared nested =>
        if (paths.below field.name).isEmpty = false then
          if schema.delegates nested then
            return (field.name, .delegate nested)
          else
            ended (schema.checkVisible root nested)
            let table ← descend nested (paths.below field.name)
            return (field.name, .rebuild table.type table.entries)
        else
          return (field.name, .keep)
    | _ => return (field.name, .keep)

/-- The table of a type by descents that are nested no deeper than the given
depth; a deeper one does not end. -/
def decideWithin (schema : Schema) (root : QualifiedName) :
    Nat → QualifiedName → PathSet → ExceptT Fault Option MaskTable
  | 0, _, _ => ExceptT.mk none
  | depth + 1, type, paths => do
      let declaration ← ended (schema.declarationOf type)
      let entries ← declaration.fields.mapM
        (schema.decideFieldBy root (schema.decideWithin root depth) paths)
      return ⟨type, entries⟩

theorem decideFieldBy_eq
    {descend : QualifiedName → PathSet → ExceptT Fault Option MaskTable}
    {paths : PathSet} {field : Field}
    (hdescend : ∀ nested, (paths.below field.name).isEmpty = false →
      descend nested (paths.below field.name) =
        ended (schema.decideFrom root nested (paths.below field.name))) :
    schema.decideFieldBy root descend paths field =
      ended (schema.decideField root paths field) := by
  unfold decideFieldBy decideField
  split
  next => rfl
  next =>
    cases field.type with
    | builtin _ => rfl
    | unresolved _ => rfl
    | declared nested =>
        by_cases hbelow : (paths.below field.name).isEmpty = false
        · simp only [if_pos hbelow, dif_pos hbelow]
          split
          next => rfl
          next =>
            rw [hdescend nested hbelow, ended_bind]
            congr 1
            funext _
            rw [ended_bind]
            rfl
        · simp only [if_neg hbelow, dif_neg hbelow]
          rfl

theorem decideWithin_succ {depth : Nat} {paths : PathSet}
    (hbelow : ∀ field nested, (paths.below field).isEmpty = false →
      schema.decideWithin root depth nested (paths.below field) =
        ended (schema.decideFrom root nested (paths.below field)))
    (type : QualifiedName) :
    schema.decideWithin root (depth + 1) type paths =
      ended (schema.decideFrom root type paths) := by
  have hfields : schema.decideFieldBy root (schema.decideWithin root depth)
      paths = fun field => ended (schema.decideField root paths field) := by
    funext field
    exact decideFieldBy_eq (hbelow field.name)
  rw [decideWithin, decideFrom_eq, ended_bind, hfields]
  congr 1
  funext declaration
  rw [ended_bind, ended_mapM]
  rfl

/-- The descent ends within the length of the longest path. -/
theorem decideWithin_eq {depth : Nat} {paths : PathSet}
    (hpaths : ∀ path ∈ paths.toList, path.length ≤ depth + 1)
    (type : QualifiedName) :
    schema.decideWithin root (depth + 1) type paths =
      ended (schema.decideFrom root type paths) := by
  induction depth generalizing type paths with
  | zero =>
      apply decideWithin_succ
      intro field nested hbelow
      -- A path of one name has nothing below its field.
      obtain ⟨rest, hrest⟩ := PathSet.isEmpty_eq_false_iff.mp hbelow
      obtain ⟨hsome, hpath⟩ := PathSet.mem_below.mp hrest
      have hlength := hpaths _ hpath
      have hpositive := List.length_pos_iff.mpr hsome
      rw [List.length_cons] at hlength
      omega
  | succ depth ih =>
      apply decideWithin_succ
      intro field nested _
      apply ih
      intro rest hrest
      have hlength := hpaths _ (PathSet.mem_below.mp hrest).2
      rw [List.length_cons] at hlength
      omega

end Schema

/-! ## The shape of the table -/

mutual

/-- What is rebuilt is the declared type of the field. -/
def Decision.Mirrors (schema : Schema) (field : Field) : Decision → Prop
  | .clear => True
  | .delegate _ => True
  | .rebuild nested entries =>
      field.type = .declared nested ∧
        EntriesMirror schema (schema.fields nested) entries
  | .keep => True
termination_by structural decision => decision

/-- One entry for each field in the order of the fields, and again in every
table inside. -/
def EntriesMirror (schema : Schema) (fields : List Field) :
    List (FieldName × Decision) → Prop
  | [] => fields = []
  | (name, decision) :: entries =>
      match fields with
      | [] => False
      | field :: rest =>
          name = field.name ∧ decision.Mirrors schema field ∧
            EntriesMirror schema rest entries
termination_by structural entries => entries

end

namespace Schema

variable {schema : Schema} {root : QualifiedName}

theorem entriesMirror_of_forall {fields : List Field}
    {entries : List (FieldName × Decision)}
    (hentries : List.Forall₂ (fun field entry =>
      entry.1 = field.name ∧ entry.2.Mirrors schema field) fields entries) :
    EntriesMirror schema fields entries := by
  induction hentries with
  | nil => rfl
  | cons hentry _ ih => exact ⟨hentry.1, hentry.2, ih⟩

theorem entriesMirror_of_decideFrom {type : QualifiedName} {paths : PathSet}
    {table : MaskTable}
    (htable : schema.decideFrom root type paths = .ok table) :
    EntriesMirror schema (schema.fields type) table.entries := by
  induction hweight : paths.weight using Nat.strongRecOn
    generalizing type paths table with
  | _ weight ih =>
      apply entriesMirror_of_forall
      apply (entriesFit_of_decideFrom htable).imp
      rintro field ⟨name, decision⟩ ⟨hname, hdecides⟩
      refine ⟨hname, ?_⟩
      cases hdecides with
      | clear _ => trivial
      | delegate _ _ _ _ => trivial
      | keep _ _ => trivial
      | rebuild _ htype hbelow _ _ hinner =>
          have hless := PathSet.weight_below_lt hbelow
          exact ⟨htype, ih _ (hweight ▸ hless) hinner rfl⟩

/-- A path runs through everything that is rebuilt. -/
theorem EntriesFit.runsThrough {paths : PathSet} {fields : List Field}
    {entries : List (FieldName × Decision)}
    (hfit : schema.EntriesFit root paths fields entries)
    {place : FieldPath} {decision : Decision}
    (hat : EntryAt entries place decision) {type : QualifiedName}
    {table : List (FieldName × Decision)}
    (hdecision : decision = .rebuild type table) :
    paths.RunsThrough place := by
  induction hat generalizing paths fields with
  | here hentry =>
      obtain ⟨field, _, rfl, hdecides⟩ := hfit.exists_field hentry
      subst hdecision
      cases hdecides with
      | rebuild _ _ hbelow _ _ _ =>
          exact PathSet.runsThrough_singleton_iff.mpr hbelow
  | inside hentry hinner ih =>
      obtain ⟨field, _, rfl, hdecides⟩ := hfit.exists_field hentry
      cases hdecides with
      | rebuild _ _ _ _ _ htable =>
          have hrest := ih (entriesFit_of_decideFrom htable) hdecision
          exact (PathSet.runsThrough_below_iff hinner.path_ne_nil).mp hrest

/-- The decisions for a type depend on nothing but the proper prefixes of the
paths, and they are always found, by a descent that is nested no deeper than
the longest path is long.  A table has one entry for each field in order, at
every level, and what it rebuilds at a place is of the declared type there
and has a path that goes on behind the place. -/
theorem decide_by_prefixes (schema : Schema) (type : QualifiedName) :
    (∀ one other, PathSet.SamePrefixes one other →
      schema.decide type one = schema.decide type other) ∧
    (∀ paths depth, (∀ path ∈ paths.toList, path.length ≤ depth + 1) →
      schema.decideWithin type (depth + 1) type paths =
        ended (schema.decide type paths)) ∧
    ∀ paths table, schema.decide type paths = .ok table →
      table.type = type ∧
      EntriesMirror schema (schema.fields type) table.entries ∧
      ∀ place nested inner,
        EntryAt table.entries place (.rebuild nested inner) →
        ∃ path ∈ paths.toList,
          place <+: path ∧ place.length < path.length := by
  refine ⟨fun one other hsame => decideFrom_congr hsame type,
    fun paths depth hpaths => decideWithin_eq hpaths type, ?_⟩
  intro paths table htable
  refine ⟨type_of_decideFrom htable, entriesMirror_of_decideFrom htable, ?_⟩
  intro place nested inner hat
  obtain ⟨path, hpath, hprefix, hproper⟩ :=
    (entriesFit_of_decideFrom htable).runsThrough hat rfl
  have hlonger : place.length ≠ path.length := fun hlength =>
    hproper (List.IsPrefix.eq_of_length hprefix hlength)
  have hshorter := List.IsPrefix.length_le hprefix
  exact ⟨path, hpath, hprefix, by omega⟩

/-- Two paths below the link of a node. -/
def linkPaths : PathSet :=
  ⟨[[.named "link", .named "back"], [.named "link", .named "data"]]⟩

/-- Other paths that run through the same places as `linkPaths`. -/
def shadowPaths : PathSet :=
  ⟨[[.named "label"], [.named "link", .position 0]]⟩

open Samples in
theorem circle_decide_by_prefixes :
    linkPaths.SamePrefixes shadowPaths ∧
      ∃ table, circle.decide (named "Node") linkPaths = .ok table ∧
        circle.decide (named "Node") shadowPaths = .ok table ∧
        circle.decideWithin (named "Node") 2 (named "Node") linkPaths =
          ended (.ok table) ∧
        EntriesMirror circle (circle.fields (named "Node")) table.entries := by
  have hsame : linkPaths.SamePrefixes shadowPaths := by decide
  have hlength : ∀ path ∈ linkPaths.toList, path.length ≤ 1 + 1 := by decide
  have hfound : (circle.decide (named "Node")
      linkPaths).toOption.isSome = true := by
    decide +kernel
  obtain ⟨table, htable⟩ := exists_eq_ok hfound
  obtain ⟨hcongr, hends, hshape⟩ := decide_by_prefixes circle (named "Node")
  refine ⟨hsame, table, htable, ?_, ?_, (hshape _ table htable).2.1⟩
  · rw [← hcongr _ _ hsame, htable]
  · rw [hends _ _ hlength, htable]

end Schema

end RecordMasking

import RecordMasking.Proofs.FieldOrder
import RecordMasking.Proofs.PathSet
import RecordMasking.Samples

/-!
# What a resolution holds

A resolution lists the fields at the end of walks on which no type occurs
twice: the sensitive ones, those of unknown type, and those whose type the
walk has passed.  Each list is in depth-first declaration order and holds
every path once, which leaves no choice in it.
-/

namespace RecordMasking

namespace Schema

variable {schema : Schema}

/-! ## Lists in the order of their paths -/

/-- A list that holds exactly what has a property, each item once, in the
order in which a depth-first walk from `root` comes to their paths. -/
structure Enumerates {α : Type} (schema : Schema) (root : QualifiedName)
    (path : α → FieldPath) (items : List α) (property : α → Prop) : Prop where
  mem_iff : ∀ item, item ∈ items ↔ property item
  ordered : items.Pairwise fun left right =>
    schema.Precedes root (path left) (path right)
  nodup : items.Nodup

/-- Content and order determine the list. -/
theorem Enumerates.eq {α : Type} (hdistinct : schema.DistinctNames)
    {root : QualifiedName} {path : α → FieldPath} {items others : List α}
    {property : α → Prop}
    (hitems : schema.Enumerates root path items property)
    (hothers : schema.Enumerates root path others property) :
    items = others := by
  have hperm : items.Perm others :=
    (List.perm_ext_iff_of_nodup hitems.nodup hothers.nodup).mpr fun item =>
      (hitems.mem_iff item).trans (hothers.mem_iff item).symm
  exact hperm.eq_of_pairwise
    (fun _ _ _ _ hbefore hafter =>
      (hbefore.asymm hdistinct hafter).elim)
    hitems.ordered hothers.ordered

theorem nodup_of_pairwise_precedes {α : Type}
    (hdistinct : schema.DistinctNames) {root : QualifiedName}
    (path : α → FieldPath) {items : List α}
    (hordered : items.Pairwise fun left right =>
      schema.Precedes root (path left) (path right)) : items.Nodup := by
  refine List.nodup_iff_pairwise_ne.mpr (hordered.imp ?_)
  rintro left _ hbefore rfl
  exact hbefore.irrefl hdistinct

/-! ## The three kinds of sightings -/

theorem pairwise_filterMap_sightings {α : Type} (kind : Sighting → Option α)
    (path : α → FieldPath)
    (hpath : ∀ sighting item, kind sighting = some item →
      path item = sighting.path)
    (hkind : ∀ left right leftItem rightItem,
      kind left = some leftItem → kind right = some rightItem →
      left.isMasked = right.isMasked)
    (onPath : List QualifiedName) (owner : QualifiedName) :
    ((schema.sightings onPath owner).filterMap kind).Pairwise
      fun left right => schema.Precedes owner (path left) (path right) := by
  refine (pairwise_sightedBefore onPath owner).filterMap _ ?_
  intro left right hbefore leftItem hleft rightItem hright
  rw [hpath left leftItem hleft, hpath right rightItem hright]
  rcases hbefore with hpaths | ⟨_, hmasked, hunmasked⟩
  · exact hpaths
  · have := hkind left right leftItem rightItem hleft hright
    simp [hmasked, hunmasked] at this

theorem masked?_eq_some_iff {sighting : Sighting} {path : FieldPath} :
    sighting.masked? = some path ↔ sighting = .masked path := by
  cases sighting <;> simp [Sighting.masked?]

theorem unresolved?_eq_some_iff {sighting : Sighting}
    {entry : UnresolvedField} :
    sighting.unresolved? = some entry ↔
      sighting = .unknown entry.owner entry.path entry.type entry.location := by
  cases sighting <;> cases entry <;> simp [Sighting.unresolved?]

theorem cycle?_eq_some_iff {sighting : Sighting} {cut : CycleCut} :
    sighting.cycle? = some cut ↔
      sighting = .cut cut.type cut.path cut.location := by
  cases sighting <;> cases cut <;> simp [Sighting.cycle?]

def maskedPaths (schema : Schema) (onPath : List QualifiedName)
    (type : QualifiedName) : List FieldPath :=
  (schema.sightings onPath type).filterMap Sighting.masked?

theorem pairwise_maskedPaths (onPath : List QualifiedName)
    (type : QualifiedName) :
    (schema.maskedPaths onPath type).Pairwise (schema.Precedes type) := by
  refine pairwise_filterMap_sightings Sighting.masked? id ?_ ?_ onPath type
  · intro sighting path hmasked
    rw [masked?_eq_some_iff.mp hmasked]
    rfl
  · intro left right _ _ hleft hright
    rw [masked?_eq_some_iff.mp hleft, masked?_eq_some_iff.mp hright]
    rfl

/-- Where names are distinct, nothing is dropped when paths are collected. -/
theorem toList_paths_resolveOnPath (hdistinct : schema.DistinctNames)
    (type : QualifiedName) (onPath : List QualifiedName) :
    (schema.resolveOnPath type onPath).paths.toList =
      schema.maskedPaths onPath type :=
  PathSet.toList_ofList_of_nodup
    (nodup_of_pairwise_precedes hdistinct id
      (pairwise_maskedPaths onPath type))

theorem mem_paths_iff {type : QualifiedName} {onPath : List QualifiedName}
    {path : FieldPath} :
    path ∈ (schema.resolveOnPath type onPath).paths.toList ↔
      .masked path ∈ schema.sightings onPath type := by
  simp [resolveOnPath, Resolution.ofSightings, masked?_eq_some_iff]

theorem mem_unresolved_iff {type : QualifiedName}
    {onPath : List QualifiedName} {entry : UnresolvedField} :
    entry ∈ (schema.resolveOnPath type onPath).unresolved ↔
      .unknown entry.owner entry.path entry.type entry.location ∈
        schema.sightings onPath type := by
  simp [resolveOnPath, Resolution.ofSightings, unresolved?_eq_some_iff]

theorem mem_cycles_iff {type : QualifiedName} {onPath : List QualifiedName}
    {cut : CycleCut} :
    cut ∈ (schema.resolveOnPath type onPath).cycles ↔
      .cut cut.type cut.path cut.location ∈
        schema.sightings onPath type := by
  simp [resolveOnPath, Resolution.ofSightings, cycle?_eq_some_iff]

theorem pairwise_unresolved (type : QualifiedName)
    (onPath : List QualifiedName) :
    (schema.resolveOnPath type onPath).unresolved.Pairwise
      fun left right => schema.Precedes type left.path right.path := by
  refine pairwise_filterMap_sightings Sighting.unresolved?
    UnresolvedField.path ?_ ?_ onPath type
  · intro sighting entry hunresolved
    rw [unresolved?_eq_some_iff.mp hunresolved]
    rfl
  · intro left right _ _ hleft hright
    rw [unresolved?_eq_some_iff.mp hleft, unresolved?_eq_some_iff.mp hright]
    rfl

theorem pairwise_cycles (type : QualifiedName)
    (onPath : List QualifiedName) :
    (schema.resolveOnPath type onPath).cycles.Pairwise
      fun left right => schema.Precedes type left.path right.path := by
  refine pairwise_filterMap_sightings Sighting.cycle? CycleCut.path
    ?_ ?_ onPath type
  · intro sighting cut hcycle
    rw [cycle?_eq_some_iff.mp hcycle]
    rfl
  · intro left right _ _ hleft hright
    rw [cycle?_eq_some_iff.mp hleft, cycle?_eq_some_iff.mp hright]
    rfl

/-! ## Resolving from a root -/

structure SimpleWalkTo (schema : Schema) (root : QualifiedName)
    (steps : List Descent) (owner : QualifiedName) (field : Field) :
    Prop where
  walk : schema.Walk root steps owner
  simple : (root :: Descent.types steps).Nodup
  mem_fields : field ∈ schema.fields owner

theorem mem_wayBack_root_iff {root type : QualifiedName}
    {steps : List Descent} :
    type ∈ wayBack [root] steps ↔ type ∈ root :: Descent.types steps := by
  rw [mem_wayBack_iff, List.mem_singleton, List.mem_cons, or_comm]

theorem mem_sightings_root_iff {root : QualifiedName}
    {sighting : Sighting} :
    sighting ∈ schema.sightings [root] root ↔
      ∃ steps owner field seen,
        schema.SimpleWalkTo root steps owner field ∧
          schema.Sights (wayBack [root] steps) owner field seen ∧
          sighting = seen.below (Descent.path steps) := by
  rw [mem_sightings_iff]
  constructor
  · rintro ⟨steps, owner, field, seen, hwalk, hfresh, hfield, hsights, heq⟩
    exact ⟨steps, owner, field, seen,
      ⟨hwalk, fresh_singleton_iff.mp hfresh, hfield⟩, hsights, heq⟩
  · rintro ⟨steps, owner, field, seen, hto, hsights, heq⟩
    exact ⟨steps, owner, field, seen, hto.walk,
      fresh_singleton_iff.mpr hto.simple, hto.mem_fields, hsights, heq⟩

theorem mem_paths_root_iff {root : QualifiedName} {path : FieldPath} :
    path ∈ (schema.resolve root).paths.toList ↔
      ∃ steps owner field, schema.SimpleWalkTo root steps owner field ∧
        field.sensitive = true ∧
        path = Descent.path steps ++ [field.name] := by
  unfold resolve
  rw [mem_paths_iff, mem_sightings_root_iff]
  constructor
  · rintro ⟨steps, owner, field, seen, hto, hsights, heq⟩
    cases hsights with
    | masked hsensitive =>
        exact ⟨steps, owner, field, hto, hsensitive, by simpa using heq⟩
    | unknown _ _ => simp at heq
    | cut _ _ => simp at heq
  · rintro ⟨steps, owner, field, hto, hsensitive, rfl⟩
    exact ⟨steps, owner, field, _, hto, .masked hsensitive, by simp⟩

theorem mem_unresolved_root_iff {root : QualifiedName}
    {entry : UnresolvedField} :
    entry ∈ (schema.resolve root).unresolved ↔
      ∃ steps owner field type, schema.SimpleWalkTo root steps owner field ∧
        schema.UnknownType field type ∧
        entry = ⟨owner, Descent.path steps ++ [field.name], type,
          field.location⟩ := by
  unfold resolve
  rw [mem_unresolved_iff, mem_sightings_root_iff]
  constructor
  · rintro ⟨steps, owner, field, seen, hto, hsights, heq⟩
    cases hsights with
    | masked _ => simp at heq
    | @unknown type hunknown _ =>
        refine ⟨steps, owner, field, type, hto, hunknown, ?_⟩
        cases entry
        simpa using heq
    | cut _ _ => simp at heq
  · rintro ⟨steps, owner, field, type, hto, hunknown, rfl⟩
    refine ⟨steps, owner, field, _, hto, .unknown hunknown ?_, by simp⟩
    -- An absent type is not on the way: the types of a walk are declared.
    intro id hon htype
    have hdeclared := hto.walk.isSome_lookup hto.mem_fields id
      (mem_wayBack_root_iff.mp hon)
    cases hunknown with
    | unresolved htext => simp [htype] at htext
    | absent habsentType habsent =>
        obtain rfl : id = _ := by simpa [htype] using habsentType
        simp [habsent] at hdeclared

theorem mem_cycles_root_iff {root : QualifiedName} {cut : CycleCut} :
    cut ∈ (schema.resolve root).cycles ↔
      ∃ steps owner field type, schema.SimpleWalkTo root steps owner field ∧
        field.type = .declared type ∧ type ∈ root :: Descent.types steps ∧
        cut = ⟨type, Descent.path steps ++ [field.name],
          field.location⟩ := by
  unfold resolve
  rw [mem_cycles_iff, mem_sightings_root_iff]
  constructor
  · rintro ⟨steps, owner, field, seen, hto, hsights, heq⟩
    cases hsights with
    | masked _ => simp at heq
    | unknown _ _ => simp at heq
    | @cut type htype hon =>
        refine ⟨steps, owner, field, type, hto, htype,
          mem_wayBack_root_iff.mp hon, ?_⟩
        cases cut
        simpa using heq
  · rintro ⟨steps, owner, field, type, hto, htype, hon, rfl⟩
    exact ⟨steps, owner, field, _, hto,
      .cut htype (mem_wayBack_root_iff.mpr hon), by simp⟩

/-- From every root, of whatever schema with distinct names, the walk ends
and its three lists are determined: paths of sensitive fields, fields of
unknown type with their owners, and fields whose type the walk has passed. -/
theorem resolve_enumerates (schema : Schema)
    (hdistinct : schema.DistinctNames) (root : QualifiedName) :
    schema.Enumerates root id (schema.resolve root).paths.toList
        (fun path => ∃ steps owner field,
          schema.SimpleWalkTo root steps owner field ∧
            field.sensitive = true ∧
            path = Descent.path steps ++ [field.name]) ∧
      schema.Enumerates root UnresolvedField.path
        (schema.resolve root).unresolved
        (fun entry => ∃ steps owner field type,
          schema.SimpleWalkTo root steps owner field ∧
            schema.UnknownType field type ∧
            entry = ⟨owner, Descent.path steps ++ [field.name], type,
              field.location⟩) ∧
      schema.Enumerates root CycleCut.path (schema.resolve root).cycles
        (fun cut => ∃ steps owner field type,
          schema.SimpleWalkTo root steps owner field ∧
            field.type = .declared type ∧
            type ∈ root :: Descent.types steps ∧
            cut = ⟨type, Descent.path steps ++ [field.name],
              field.location⟩) ∧
      ∀ sighting ∈ schema.sightings [root] root,
        sighting.path.length ≤ schema.declarations.length := by
  refine ⟨⟨fun _ => mem_paths_root_iff, ?_, ?_⟩,
    ⟨fun _ => mem_unresolved_root_iff, pairwise_unresolved root [root], ?_⟩,
    ⟨fun _ => mem_cycles_root_iff, pairwise_cycles root [root], ?_⟩, ?_⟩
  · unfold resolve
    rw [toList_paths_resolveOnPath hdistinct]
    exact pairwise_maskedPaths [root] root
  · exact PathSet.nodup_ofList _
  · exact nodup_of_pairwise_precedes hdistinct UnresolvedField.path
      (pairwise_unresolved root [root])
  · exact nodup_of_pairwise_precedes hdistinct CycleCut.path
      (pairwise_cycles root [root])
  · intro sighting hmem
    obtain ⟨steps, owner, field, seen, hto, hsights, rfl⟩ :=
      mem_sightings_root_iff.mp hmem
    have hlength := hto.walk.length_lt_of_simple hto.simple hto.mem_fields
    cases hsights <;> simp [Sighting.path] <;> omega

open Samples in
theorem circle_resolve_node :
    circle.DistinctNames ∧
      circle.Enumerates (named "Node") CycleCut.path
        [⟨named "Node", [.named "link", .named "back"], none⟩]
        (fun cut => ∃ steps owner field type,
          circle.SimpleWalkTo (named "Node") steps owner field ∧
            field.type = .declared type ∧
            type ∈ named "Node" :: Descent.types steps ∧
            cut = ⟨type, Descent.path steps ++ [field.name],
              field.location⟩) := by
  have hdistinct : circle.DistinctNames := by decide
  have hcycles : (circle.resolve (named "Node")).cycles =
      [⟨named "Node", [.named "link", .named "back"], none⟩] := by
    cbv
  have hall := resolve_enumerates circle hdistinct (named "Node")
  rw [hcycles] at hall
  exact ⟨hdistinct, hall.2.2.1⟩

end Schema

end RecordMasking

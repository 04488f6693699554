import RecordMasking.Proofs.Closure

/-!
# Paths below a field

Restricting the masked paths of a type to one of its fields and re-rooting
them gives the masked paths of the field's own type, resolved with that type
on the way.  So a restriction never has to be resolved again, and it knows of
everything sensitive below the field as long as nothing below the field is on
the way already.
-/

namespace RecordMasking

namespace Sighting

theorem masked?_under (field : FieldName) (sighting : Sighting) :
    (sighting.under field).masked? =
      sighting.masked?.map fun path => field :: path := by
  cases sighting <;> rfl

theorem path_of_masked? {sighting : Sighting} {path : FieldPath}
    (hmasked : sighting.masked? = some path) : sighting.path = path := by
  cases sighting <;> simp_all [masked?, Sighting.path]

end Sighting

namespace FieldPath

theorem below?_cons_self {field : FieldName} {path : FieldPath}
    (hpath : path ≠ []) : below? field (field :: path) = some path := by
  cases path with
  | nil => exact absurd rfl hpath
  | cons next rest => simp [below?]

theorem below?_cons_of_ne {field other : FieldName} (path : FieldPath)
    (hne : other ≠ field) : below? field (other :: path) = none := by
  cases path with
  | nil => rfl
  | cons next rest => simp [below?, hne]

end FieldPath

namespace Schema

variable {schema : Schema}

theorem maskedPaths_eq_flatMap (onPath : List QualifiedName)
    (type : QualifiedName) :
    schema.maskedPaths onPath type =
      (schema.fields type).flatMap fun field =>
        (schema.fieldSightings onPath type field).filterMap
          Sighting.masked? := by
  rw [maskedPaths, sightings_eq_flatMap, List.filterMap_flatMap]

theorem below_fieldSightings_self {onPath : List QualifiedName}
    {owner next : QualifiedName} {field : Field}
    (htype : field.type = .declared next) (hoff : next ∉ onPath)
    (hnext : (schema.lookup next).isSome) :
    ((schema.fieldSightings onPath owner field).filterMap
        Sighting.masked?).filterMap (FieldPath.below? field.name) =
      schema.maskedPaths (next :: onPath) next := by
  have howned : (if field.sensitive then
        [Sighting.masked [field.name]] else []).filterMap
      (fun sighting =>
        sighting.masked?.bind (FieldPath.below? field.name)) = [] := by
    cases field.sensitive <;> rfl
  rw [List.filterMap_filterMap, fieldSightings, List.filterMap_append,
    howned, List.nil_append, typeSightings, htype]
  simp only [hoff, hnext, if_true, if_false]
  rw [List.filterMap_map, maskedPaths]
  refine List.filterMap_congr fun sighting hmem => ?_
  rw [Function.comp_apply, Sighting.masked?_under]
  cases hmasked : sighting.masked? with
  | none => rfl
  | some path =>
      have hpath : path ≠ [] := by
        rw [← Sighting.path_of_masked? hmasked]
        exact path_ne_nil_of_mem_sightings hmem
      exact FieldPath.below?_cons_self hpath

theorem below_fieldSightings_of_ne {onPath : List QualifiedName}
    {owner : QualifiedName} {field : Field} {name : FieldName}
    (hne : field.name ≠ name) :
    ((schema.fieldSightings onPath owner field).filterMap
        Sighting.masked?).filterMap (FieldPath.below? name) = [] := by
  rw [List.filterMap_eq_nil_iff]
  intro path hpath
  obtain ⟨sighting, hmem, hmasked⟩ := List.mem_filterMap.mp hpath
  obtain ⟨rest, hrest⟩ := exists_path_of_mem_fieldSightings hmem
  rw [Sighting.path_of_masked? hmasked] at hrest
  rw [hrest]
  exact FieldPath.below?_cons_of_ne rest hne

/-- The masked paths below a field that is descended into are those of its
type. -/
theorem below_paths (hdistinct : schema.DistinctNames)
    {onPath : List QualifiedName} {owner next : QualifiedName} {field : Field}
    (hfield : field ∈ schema.fields owner)
    (htype : field.type = .declared next) (hoff : next ∉ onPath)
    (hnext : (schema.lookup next).isSome) :
    (schema.resolveOnPath owner onPath).paths.below field.name =
      (schema.resolveOnPath next (next :: onPath)).paths := by
  have hnames := hdistinct.nodup_names owner
  obtain ⟨before, after, hfields⟩ := List.append_of_mem hfield
  -- No other field has the name.
  have hothers : ∀ other ∈ before ++ after, other.name ≠ field.name := by
    rw [hfields, List.map_append, List.map_cons] at hnames
    have hmiddle := (List.nodup_middle.mp hnames)
    intro other hother heq
    apply (List.nodup_cons.mp hmiddle).1
    rw [← heq, ← List.map_append]
    exact List.mem_map_of_mem hother
  have hnothing : ∀ part, part ⊆ before ++ after →
      (part.flatMap fun other =>
        ((schema.fieldSightings onPath owner other).filterMap
          Sighting.masked?).filterMap (FieldPath.below? field.name)) = [] := by
    intro part hpart
    rw [List.flatMap_eq_nil_iff]
    intro other hother
    exact below_fieldSightings_of_ne (hothers other (hpart hother))
  have htoList : ((schema.resolveOnPath owner onPath).paths.below
        field.name).toList =
      (schema.resolveOnPath next (next :: onPath)).paths.toList := by
    rw [PathSet.below, toList_paths_resolveOnPath hdistinct,
      toList_paths_resolveOnPath hdistinct, maskedPaths_eq_flatMap,
      List.filterMap_flatMap, hfields, List.flatMap_append,
      List.flatMap_cons,
      below_fieldSightings_self htype hoff hnext,
      hnothing before (List.subset_append_left _ _),
      hnothing after (List.subset_append_right _ _)]
    simp
  exact congrArg PathSet.mk htoList

theorem exists_field_of_mem_paths {onPath : List QualifiedName}
    {owner : QualifiedName} {path : FieldPath}
    (hpath : path ∈ (schema.resolveOnPath owner onPath).paths.toList) :
    ∃ field ∈ schema.fields owner, ∃ rest, path = field.name :: rest := by
  have hsighted := mem_paths_iff.mp hpath
  rw [sightings_eq_flatMap] at hsighted
  obtain ⟨field, hfield, hmem⟩ := List.mem_flatMap.mp hsighted
  obtain ⟨rest, hrest⟩ := exists_path_of_mem_fieldSightings hmem
  exact ⟨field, hfield, rest, hrest⟩

theorem singleton_mem_paths_iff (hdistinct : schema.DistinctNames)
    {onPath : List QualifiedName} {owner : QualifiedName} {field : Field}
    (hfield : field ∈ schema.fields owner) :
    [field.name] ∈ (schema.resolveOnPath owner onPath).paths.toList ↔
      field.sensitive = true := by
  rw [mem_paths_iff, sightings_eq_flatMap, List.mem_flatMap]
  constructor
  · rintro ⟨other, hother, hmem⟩
    rcases mem_fieldSightings_iff.mp hmem with
      hsights | ⟨next, _, _, _, inner, hinner, heq⟩
    · generalize hseen : Sighting.masked [field.name] = seen at hsights
      cases hsights with
      | masked hsensitive =>
          have hname : field.name = other.name := by simpa using hseen
          rwa [hdistinct.eq_of_name_eq hfield hother hname]
      | unknown _ _ => simp at hseen
      | cut _ _ => simp at hseen
    · -- What is sighted below a field has a longer path.
      have hpath := congrArg Sighting.path heq
      rw [Sighting.path_under] at hpath
      have hinner' := path_ne_nil_of_mem_sightings hinner
      exact absurd (List.cons.inj hpath).2.symm hinner'
  · intro hsensitive
    exact ⟨field, hfield, mem_fieldSightings_iff.mpr
      (.inl (.masked hsensitive))⟩

/-- Only a field that is descended into has masked paths below it. -/
theorem exists_descent_of_below (hdistinct : schema.DistinctNames)
    {onPath : List QualifiedName} {owner : QualifiedName} {field : Field}
    (hfield : field ∈ schema.fields owner)
    (hbelow : ((schema.resolveOnPath owner onPath).paths.below
      field.name).isEmpty = false) :
    ∃ next, field.type = .declared next ∧ next ∉ onPath ∧
      (schema.lookup next).isSome := by
  obtain ⟨rest, hrest⟩ := PathSet.isEmpty_eq_false_iff.mp hbelow
  obtain ⟨hne, hpath⟩ := PathSet.mem_below.mp hrest
  have hsighted := mem_paths_iff.mp hpath
  rw [sightings_eq_flatMap] at hsighted
  obtain ⟨other, hother, hmem⟩ := List.mem_flatMap.mp hsighted
  obtain ⟨others, hothers⟩ := exists_path_of_mem_fieldSightings hmem
  have hname : field.name = other.name := (List.cons.inj hothers).1
  obtain rfl := hdistinct.eq_of_name_eq hfield hother hname
  rcases mem_fieldSightings_iff.mp hmem with
    hsights | ⟨next, htype, hoff, hnext, _, _, _⟩
  · generalize hseen : Sighting.masked (field.name :: rest) = seen at hsights
    cases hsights with
    | masked _ =>
        have hnil : rest = [] := by simpa using hseen
        exact absurd hnil hne
    | unknown _ _ => simp at hseen
    | cut _ _ => simp at hseen
  · exact ⟨next, htype, hoff, hnext⟩

theorem Walk.transGen_of_mem_types {root stop type : QualifiedName}
    {steps : List Descent} (hwalk : schema.Walk root steps stop)
    (htype : type ∈ Descent.types steps) :
    Relation.TransGen schema.Nests root type := by
  induction hwalk with
  | here => simp at htype
  | down hfield hdeclared hnext _ ih =>
      have hnests : schema.Nests _ _ := ⟨_, hfield, hdeclared, hnext⟩
      rcases List.mem_cons.mp htype with rfl | hlater
      · exact .single hnests
      · exact .head hnests (ih hlater)

/-- Where nothing below a type is on the way, a resolution without paths
means that nothing in the closure is sensitive. -/
theorem not_sensitive_of_isEmpty {onPath : List QualifiedName}
    {type : QualifiedName}
    (hclear : ∀ below, Relation.TransGen schema.Nests type below →
      below ∉ onPath)
    (hempty : (schema.resolveOnPath type (type :: onPath)).paths.isEmpty =
      true) :
    ¬ schema.ClosureHas type fun field => field.sensitive = true := by
  rintro ⟨stop, field, hclosure, hfield, hsensitive⟩
  obtain ⟨steps, hwalk, hsimple⟩ := hclosure.exists_simple_walk
  obtain ⟨hnew, hnodup⟩ := List.nodup_cons.mp hsimple
  have hfresh : Fresh (type :: onPath) steps := by
    refine ⟨hnodup, fun passed hpassed => ?_⟩
    rw [List.mem_cons, not_or]
    constructor
    · rintro rfl
      exact hnew hpassed
    · exact hclear passed (hwalk.transGen_of_mem_types hpassed)
  have hsighted : Sighting.masked (Descent.path steps ++ [field.name]) ∈
      schema.sightings (type :: onPath) type :=
    mem_sightings_iff.mpr ⟨steps, stop, field, _, hwalk, hfresh, hfield,
      .masked hsensitive, by simp⟩
  have hsome : (schema.resolveOnPath type (type :: onPath)).paths.isEmpty =
      false :=
    PathSet.isEmpty_eq_false_iff.mpr ⟨_, mem_paths_iff.mpr hsighted⟩
  simp [hsome] at hempty

end Schema

end RecordMasking

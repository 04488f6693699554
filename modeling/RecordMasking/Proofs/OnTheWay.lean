import Mathlib.Data.List.Flatten
import RecordMasking.Proofs.Rerooting

/-!
# Types on the way

A walk asks of the types on the way only whether a type is among them: their
order does not matter, nor how often one of them is there.  Where more types
are on the way, some descents become cuts, so that paths get lost and none
shows up that was not there before.

A field that is descended into is resolved with its own type on the way
besides, and the masked paths below the field are those of that resolution.
-/

namespace RecordMasking

namespace Schema

variable {schema : Schema} {onPath others : List QualifiedName}

/-! ## The same types on the way -/

theorem mem_cons_congr (hsame : ∀ id, id ∈ onPath ↔ id ∈ others)
    (next : QualifiedName) :
    ∀ id, id ∈ next :: onPath ↔ id ∈ next :: others := by
  intro id
  rw [List.mem_cons, List.mem_cons, hsame id]

theorem sightings_congr (hsame : ∀ id, id ∈ onPath ↔ id ∈ others)
    (owner : QualifiedName) :
    schema.sightings onPath owner = schema.sightings others owner := by
  induction onPath, owner using descent_induction schema
      generalizing others with
  | hstep onPath owner ih =>
      rw [sightings_eq_flatMap, sightings_eq_flatMap]
      refine List.flatMap_congr fun field hfield => ?_
      unfold fieldSightings typeSightings
      cases htype : field.type with
      | builtin _ => rfl
      | unresolved _ => rfl
      | declared next =>
          have hon := hsame next
          by_cases hmem : next ∈ onPath
          · simp [hmem, hon.mp hmem]
          · have hoff : next ∉ others := fun hother => hmem (hon.mpr hother)
            by_cases hnext : (schema.lookup next).isSome
            · have hinner := ih field hfield next htype hmem hnext
                (mem_cons_congr hsame next)
              simp [hmem, hoff, hnext, hinner]
            · simp [hmem, hoff, hnext]

theorem resolveOnPath_congr (hsame : ∀ id, id ∈ onPath ↔ id ∈ others)
    (type : QualifiedName) :
    schema.resolveOnPath type onPath = schema.resolveOnPath type others := by
  unfold resolveOnPath
  rw [sightings_congr hsame]

/-! ## More types on the way -/

theorem filterMap_masked?_under (field : FieldName)
    (sightings : List Sighting) :
    (sightings.map (Sighting.under field)).filterMap Sighting.masked? =
      (sightings.filterMap Sighting.masked?).map fun path => field :: path := by
  rw [List.filterMap_map, List.map_filterMap]
  exact List.filterMap_congr fun sighting _ => Sighting.masked?_under field sighting

/-- The masked paths below one field, given those below the types it can be
descended into. -/
theorem maskedPaths_field_sublist (hmore : onPath ⊆ others)
    (owner : QualifiedName) (field : Field)
    (hinner : ∀ next, field.type = .declared next → next ∉ onPath →
      (schema.lookup next).isSome →
      (schema.maskedPaths (next :: others) next).Sublist
        (schema.maskedPaths (next :: onPath) next)) :
    ((schema.fieldSightings others owner field).filterMap
        Sighting.masked?).Sublist
      ((schema.fieldSightings onPath owner field).filterMap
        Sighting.masked?) := by
  unfold fieldSightings
  rw [List.filterMap_append, List.filterMap_append]
  refine (List.Sublist.refl _).append ?_
  unfold typeSightings
  cases htype : field.type with
  | builtin _ => exact .slnil
  | unresolved _ => exact .slnil
  | declared next =>
      by_cases hother : next ∈ others
      · -- What was a descent may have become a cut, which masks nothing.
        simp only [hother, if_true]
        exact List.nil_sublist _
      · have hoff : next ∉ onPath := fun hmem => hother (hmore hmem)
        by_cases hnext : (schema.lookup next).isSome
        · simp only [hother, hoff, hnext, if_true, if_false]
          rw [filterMap_masked?_under, filterMap_masked?_under]
          exact (hinner next htype hoff hnext).map _
        · simp [hother, hoff, hnext]

theorem maskedPaths_sublist (hmore : onPath ⊆ others)
    (type : QualifiedName) :
    (schema.maskedPaths others type).Sublist
      (schema.maskedPaths onPath type) := by
  induction onPath, type using descent_induction schema
      generalizing others with
  | hstep onPath owner ih =>
      rw [maskedPaths_eq_flatMap, maskedPaths_eq_flatMap]
      refine List.Sublist.flatMap_right _ fun field hfield => ?_
      apply maskedPaths_field_sublist hmore
      intro next htype hoff hnext
      exact ih field hfield next htype hoff hnext
        (List.cons_subset_cons next hmore)

/-- With more types on the way a resolution keeps some of its masked paths, in
their order, and it depends on nothing but which types these are. -/
theorem resolution_shrinks_on_the_way (schema : Schema)
    (type : QualifiedName) (onPath others : List QualifiedName) :
    (schema.DistinctNames → onPath ⊆ others →
      (schema.resolveOnPath type others).paths.toList.Sublist
        (schema.resolveOnPath type onPath).paths.toList) ∧
      ((∀ id, id ∈ onPath ↔ id ∈ others) →
        schema.resolveOnPath type onPath =
          schema.resolveOnPath type others) := by
  constructor
  · intro hdistinct hmore
    rw [toList_paths_resolveOnPath hdistinct,
      toList_paths_resolveOnPath hdistinct]
    exact maskedPaths_sublist hmore type
  · intro hsame
    exact resolveOnPath_congr hsame type

open Samples in
theorem circle_shrinks_on_the_way :
    circle.DistinctNames ∧
      (circle.resolveOnPath (named "Node") []).paths.display =
        ["label", "link.back.label"] ∧
      (circle.resolveOnPath (named "Node") [named "Node"]).paths.display =
        ["label"] ∧
      (circle.resolveOnPath (named "Node") [named "Node"]).paths.toList.Sublist
        (circle.resolveOnPath (named "Node") []).paths.toList ∧
      circle.resolveOnPath (named "Node") [named "Link", named "Node"] =
        circle.resolveOnPath (named "Node")
          [named "Node", named "Link", named "Node"] := by
  have hdistinct : circle.DistinctNames := by decide
  have hsame : ∀ id, id ∈ [named "Link", named "Node"] ↔
      id ∈ [named "Node", named "Link", named "Node"] := by
    intro id
    simp only [List.mem_cons, List.not_mem_nil, or_false]
    tauto
  refine ⟨hdistinct, by cbv, by cbv, ?_, ?_⟩
  · exact (resolution_shrinks_on_the_way circle (named "Node") []
      [named "Node"]).1 hdistinct (List.nil_subset _)
  · exact (resolution_shrinks_on_the_way circle (named "Node") _ _).2 hsame

/-! ## Below a field -/

/-- Restricting a resolution to a field leaves the masked paths of the field's
type, resolved with that type on the way besides; it leaves none where there
is no such type, or where the type is on the way already. -/
theorem restricted_resolution_is_nested (schema : Schema)
    (hdistinct : schema.DistinctNames) (type : QualifiedName)
    (onPath : List QualifiedName) (field : Field)
    (hfield : field ∈ schema.fields type) :
    (∀ next, field.type = .declared next → (schema.lookup next).isSome →
        next ∉ onPath →
        (schema.resolveOnPath type onPath).paths.below field.name =
          (schema.resolveOnPath next (onPath ++ [next])).paths) ∧
      ((¬ ∃ next, field.type = .declared next ∧
          (schema.lookup next).isSome ∧ next ∉ onPath) →
        (schema.resolveOnPath type onPath).paths.below field.name =
          PathSet.empty) ∧
      (schema.resolveOnPath type onPath).paths.toList.Nodup ∧
      ((schema.resolveOnPath type onPath).paths.below
        field.name).toList.Nodup := by
  have hbelow : ∀ next, (∀ id, id ∈ onPath ++ [next] ↔ id ∈ next :: onPath) := by
    intro next id
    rw [List.mem_append, List.mem_singleton, List.mem_cons, or_comm]
  refine ⟨?_, ?_, PathSet.nodup_ofList _,
    PathSet.nodup_below (PathSet.nodup_ofList _) field.name⟩
  · intro next htype hnext hoff
    rw [below_paths hdistinct hfield htype hoff hnext,
      resolveOnPath_congr (hbelow next)]
  · intro hclosed
    cases hempty : ((schema.resolveOnPath type onPath).paths.below
        field.name).isEmpty with
    | true => exact PathSet.eq_empty_of_isEmpty hempty
    | false =>
        obtain ⟨next, htype, hoff, hnext⟩ :=
          exists_descent_of_below hdistinct hfield hempty
        exact absurd ⟨next, htype, hnext, hoff⟩ hclosed

open Samples in
theorem circle_restricted_to_link :
    circle.DistinctNames ∧
      nested "link" "Link" ∈ circle.fields (named "Node") ∧
      (circle.lookup (named "Link")).isSome ∧
      (circle.resolveOnPath (named "Node") []).paths.below (.named "link") =
        (circle.resolveOnPath (named "Link") [named "Link"]).paths ∧
      (circle.resolveOnPath (named "Link") [named "Link"]).paths.display =
        ["back.label"] ∧
      (circle.resolveOnPath (named "Node") [named "Link"]).paths.below
        (.named "link") = PathSet.empty := by
  have hdistinct : circle.DistinctNames := by decide
  have hfield : nested "link" "Link" ∈ circle.fields (named "Node") := by
    decide
  have hlink : (circle.lookup (named "Link")).isSome := by decide
  refine ⟨hdistinct, hfield, hlink, ?_, by cbv, ?_⟩
  · exact (restricted_resolution_is_nested circle hdistinct (named "Node") []
      _ hfield).1 _ rfl hlink List.not_mem_nil
  · refine (restricted_resolution_is_nested circle hdistinct (named "Node")
      [named "Link"] _ hfield).2.1 ?_
    rintro ⟨next, htype, _, hoff⟩
    cases htype
    exact hoff (List.mem_singleton_self _)

end Schema

end RecordMasking

import RecordMasking.Proofs.Sighting

/-!
# The order of a resolution

Depth first in declaration order means: a field comes before everything below
it, and what is at or below an earlier field comes before what is at or below
a later one.  Where field names are distinct this is a strict order on paths,
and the walk sights in it.  A field that is sensitive and of unknown or
repeated type is sighted as sensitive first.
-/

namespace RecordMasking

namespace Schema

variable {schema : Schema}

/-- The order in which a depth-first walk from `owner` comes to two paths. -/
inductive Precedes (schema : Schema) :
    QualifiedName → FieldPath → FieldPath → Prop
  | above {owner : QualifiedName} {field next : FieldName}
      {rest : FieldPath} :
      Precedes schema owner [field] (field :: next :: rest)
  | beside {owner : QualifiedName} {earlier later : FieldName}
      {left right : FieldPath}
      (horder : [earlier, later].Sublist
        ((schema.fields owner).map Field.name)) :
      Precedes schema owner (earlier :: left) (later :: right)
  | inside {owner next : QualifiedName} {field : Field}
      {left right : FieldPath}
      (hfield : field ∈ schema.fields owner)
      (htype : field.type = .declared next)
      (hinner : Precedes schema next left right) :
      Precedes schema owner (field.name :: left) (field.name :: right)

theorem not_sublist_pair_self {names : List FieldName} (hnodup : names.Nodup)
    (name : FieldName) : ¬ [name, name].Sublist names :=
  List.nodup_iff_sublist.mp hnodup name

theorem Precedes.irrefl (hdistinct : schema.DistinctNames)
    {owner : QualifiedName} {path : FieldPath} :
    ¬ schema.Precedes owner path path := by
  induction path generalizing owner with
  | nil => intro hbefore; cases hbefore
  | cons head rest ih =>
      intro hbefore
      cases hbefore with
      | beside horder =>
          exact not_sublist_pair_self (hdistinct.nodup_names owner) _ horder
      | inside _ _ hinner => exact ih hinner

theorem not_sublist_pair_swap {names : List FieldName} (hnodup : names.Nodup)
    {earlier later : FieldName} (horder : [earlier, later].Sublist names) :
    ¬ [later, earlier].Sublist names := by
  induction names with
  | nil => cases horder
  | cons head rest ih =>
      obtain ⟨hhead, hrest⟩ := List.nodup_cons.mp hnodup
      intro hswap
      cases horder with
      | cons _ horder =>
          cases hswap with
          | cons _ hswap => exact ih hrest horder hswap
          | cons_cons _ _ =>
              exact hhead (horder.subset (by simp))
      | cons_cons _ horder =>
          cases hswap with
          | cons _ hswap => exact hhead (hswap.subset (by simp))
          | cons_cons _ hswap => exact hhead (hswap.subset (by simp))

theorem Precedes.asymm (hdistinct : schema.DistinctNames)
    {owner : QualifiedName} {left right : FieldPath}
    (hbefore : schema.Precedes owner left right) :
    ¬ schema.Precedes owner right left := by
  induction hbefore with
  | above =>
      intro hafter
      cases hafter with
      | beside horder =>
          exact not_sublist_pair_self (hdistinct.nodup_names _) _ horder
      | inside _ _ hinner => cases hinner
  | beside horder =>
      intro hafter
      cases hafter with
      | above =>
          exact not_sublist_pair_self (hdistinct.nodup_names _) _ horder
      | beside hswap =>
          exact not_sublist_pair_swap (hdistinct.nodup_names _) horder hswap
      | inside _ _ _ =>
          exact not_sublist_pair_self (hdistinct.nodup_names _) _ horder
  | @inside owner next field left right hfield htype hinner ih =>
      intro hafter
      generalize hname : field.name = name at hafter
      cases hafter with
      | above => cases hinner
      | beside horder =>
          exact not_sublist_pair_self (hdistinct.nodup_names _) _ horder
      | @inside _ _ other _ _ hother hothertype hinner' =>
          obtain rfl := hdistinct.eq_of_name_eq hfield hother hname
          obtain rfl : next = _ := by simpa [htype] using hothertype
          exact ih hinner'

end Schema

namespace Sighting

def isMasked : Sighting → Bool
  | .masked _ => true
  | _ => false

@[simp] theorem isMasked_under (field : FieldName) (sighting : Sighting) :
    (sighting.under field).isMasked = sighting.isMasked := by
  cases sighting <;> rfl

end Sighting

namespace Schema

variable {schema : Schema}

/-- The order of two sightings of one walk: by path, and at one field the
sensitive mark first. -/
def SightedBefore (schema : Schema) (owner : QualifiedName)
    (left right : Sighting) : Prop :=
  schema.Precedes owner left.path right.path ∨
    left.path = right.path ∧ left.isMasked = true ∧ right.isMasked = false

theorem SightedBefore.under {owner next : QualifiedName} {field : Field}
    {left right : Sighting} (hfield : field ∈ schema.fields owner)
    (htype : field.type = .declared next)
    (hbefore : schema.SightedBefore next left right) :
    schema.SightedBefore owner (left.under field.name)
      (right.under field.name) := by
  rcases hbefore with hpath | ⟨hpath, hleft, hright⟩
  · left
    simpa using Precedes.inside hfield htype hpath
  · right
    simpa [hpath] using And.intro hleft hright

theorem exists_path_of_mem_fieldSightings {onPath : List QualifiedName}
    {owner : QualifiedName} {field : Field} {sighting : Sighting}
    (hmem : sighting ∈ schema.fieldSightings onPath owner field) :
    ∃ rest, sighting.path = field.name :: rest := by
  rcases mem_fieldSightings_iff.mp hmem with
    hsights | ⟨_, _, _, _, inner, _, rfl⟩
  · cases hsights <;> exact ⟨[], rfl⟩
  · exact ⟨inner.path, by simp⟩

theorem path_ne_nil_of_mem_sightings {onPath : List QualifiedName}
    {owner : QualifiedName} {sighting : Sighting}
    (hmem : sighting ∈ schema.sightings onPath owner) :
    sighting.path ≠ [] := by
  rw [sightings_eq_flatMap] at hmem
  obtain ⟨field, _, hsighted⟩ := List.mem_flatMap.mp hmem
  obtain ⟨rest, hpath⟩ := exists_path_of_mem_fieldSightings hsighted
  simp [hpath]

theorem sightedBefore_of_mem_typeSightings {onPath : List QualifiedName}
    {owner : QualifiedName} {field : Field} {sighting : Sighting}
    (hmem : sighting ∈ schema.typeSightings onPath owner field) :
    schema.SightedBefore owner (.masked [field.name]) sighting := by
  unfold typeSightings at hmem
  split at hmem
  next => simp at hmem
  next =>
    obtain rfl := List.mem_singleton.mp hmem
    exact .inr ⟨rfl, rfl, rfl⟩
  next =>
    split at hmem
    next =>
      obtain rfl := List.mem_singleton.mp hmem
      exact .inr ⟨rfl, rfl, rfl⟩
    next =>
      split at hmem
      next =>
        obtain ⟨inner, hinner, rfl⟩ := List.mem_map.mp hmem
        obtain ⟨head, rest, hpath⟩ :=
          List.exists_cons_of_ne_nil (path_ne_nil_of_mem_sightings hinner)
        left
        rw [Sighting.path_under, hpath]
        exact .above
      next =>
        obtain rfl := List.mem_singleton.mp hmem
        exact .inr ⟨rfl, rfl, rfl⟩

theorem pairwise_sightedBefore (onPath : List QualifiedName)
    (owner : QualifiedName) :
    (schema.sightings onPath owner).Pairwise (schema.SightedBefore owner) := by
  induction onPath, owner using descent_induction schema with
  | hstep onPath owner ih =>
      rw [sightings_eq_flatMap, List.pairwise_flatMap]
      constructor
      · intro field hfield
        unfold fieldSightings
        refine List.pairwise_append.mpr ⟨?_, ?_, ?_⟩
        · split <;> simp
        · unfold typeSightings
          split
          next => exact .nil
          next => exact List.pairwise_singleton _ _
          next next htype =>
            split
            next => exact List.pairwise_singleton _ _
            next hoff =>
              split
              next hnext =>
                rw [List.pairwise_map]
                exact (ih field hfield next htype hoff hnext).imp
                  fun hbefore => hbefore.under hfield htype
              next => exact List.pairwise_singleton _ _
        · intro left hleft right hright
          split at hleft
          next =>
            obtain rfl := List.mem_singleton.mp hleft
            exact sightedBefore_of_mem_typeSightings hright
          next => simp at hleft
      · rw [List.pairwise_iff_forall_sublist]
        intro earlier later horder left hleft right hright
        obtain ⟨leftRest, hleftPath⟩ := exists_path_of_mem_fieldSightings hleft
        obtain ⟨rightRest, hrightPath⟩ :=
          exists_path_of_mem_fieldSightings hright
        left
        rw [hleftPath, hrightPath]
        exact .beside (horder.map Field.name)

end Schema

end RecordMasking

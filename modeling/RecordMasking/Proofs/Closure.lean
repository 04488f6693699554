import RecordMasking.Proofs.Resolution

/-!
# Resolution and closure

The walk is cut where a type is met again, and where it is cut depends on the
way that was taken.  Nothing is lost by this: a resolution is empty, complete
or free of cuts exactly when the closure of the root has no sensitive field,
no field of unknown type and no cycle.

One direction reads a closure off a walk.  For fields the other one rests on
walks without repetition; for cycles it follows the recursion instead, since
without a cut nothing on the way can be reached again.
-/

namespace RecordMasking

namespace Schema

variable {schema : Schema}

def ClosureHas (schema : Schema) (root : QualifiedName)
    (property : Field → Prop) : Prop :=
  ∃ type field, schema.InClosure root type ∧ field ∈ schema.fields type ∧
    property field

theorem SimpleWalkTo.inClosure {root owner : QualifiedName}
    {steps : List Descent} {field : Field}
    (hto : schema.SimpleWalkTo root steps owner field) :
    schema.InClosure root owner :=
  hto.walk.inClosure

theorem InClosure.exists_simpleWalkTo {root type : QualifiedName}
    (hclosure : schema.InClosure root type) {field : Field}
    (hfield : field ∈ schema.fields type) :
    ∃ steps, schema.SimpleWalkTo root steps type field := by
  obtain ⟨steps, hwalk, hsimple⟩ := hclosure.exists_simple_walk
  exact ⟨steps, hwalk, hsimple, hfield⟩

theorem paths_isEmpty_eq_false_iff (root : QualifiedName) :
    (schema.resolve root).paths.isEmpty = false ↔
      schema.ClosureHas root fun field => field.sensitive = true := by
  rw [PathSet.isEmpty_eq_false_iff]
  constructor
  · rintro ⟨path, hpath⟩
    obtain ⟨steps, owner, field, hto, hsensitive, _⟩ :=
      mem_paths_root_iff.mp hpath
    exact ⟨owner, field, hto.inClosure, hto.mem_fields, hsensitive⟩
  · rintro ⟨type, field, hclosure, hfield, hsensitive⟩
    obtain ⟨steps, hto⟩ := hclosure.exists_simpleWalkTo hfield
    exact ⟨_, mem_paths_root_iff.mpr
      ⟨steps, type, field, hto, hsensitive, rfl⟩⟩

theorem isComplete_eq_false_iff (root : QualifiedName) :
    (schema.resolve root).isComplete = false ↔
      schema.ClosureHas root fun field =>
        ∃ text, schema.UnknownType field text := by
  unfold Resolution.isComplete
  rw [List.isEmpty_eq_false_iff_exists_mem]
  constructor
  · rintro ⟨entry, hentry⟩
    obtain ⟨steps, owner, field, text, hto, hunknown, _⟩ :=
      mem_unresolved_root_iff.mp hentry
    exact ⟨owner, field, hto.inClosure, hto.mem_fields, text, hunknown⟩
  · rintro ⟨type, field, hclosure, hfield, text, hunknown⟩
    obtain ⟨steps, hto⟩ := hclosure.exists_simpleWalkTo hfield
    exact ⟨_, mem_unresolved_root_iff.mpr
      ⟨steps, type, field, text, hto, hunknown, rfl⟩⟩

/-! ## Cycles -/

def NestsWithin (schema : Schema) (root owner next : QualifiedName) : Prop :=
  schema.Nests owner next ∧ schema.InClosure root owner ∧
    schema.InClosure root next

theorem InClosure.transGen_nestsWithin {root owner type : QualifiedName}
    (hclosure : schema.InClosure root owner)
    (hnested : Relation.TransGen schema.Nests owner type) :
    Relation.TransGen (schema.NestsWithin root) owner type := by
  induction hnested with
  | single hnests => exact .single ⟨hnests, hclosure, hclosure.tail hnests⟩
  | @tail middle last hbefore hnests ih =>
      have hmiddle : schema.InClosure root middle :=
        hclosure.trans hbefore.to_reflTransGen
      exact ih.tail ⟨hnests, hmiddle, hmiddle.tail hnests⟩

theorem transGen_nests_of_within {root owner type : QualifiedName}
    (hnested : Relation.TransGen (schema.NestsWithin root) owner type) :
    Relation.TransGen schema.Nests owner type :=
  Relation.TransGen.mono (fun _ _ hwithin => hwithin.1) _ _ hnested

theorem inClosure_of_nestsWithin {root owner type : QualifiedName}
    (hnested : Relation.TransGen (schema.NestsWithin root) owner type) :
    schema.InClosure root type := by
  cases hnested with
  | single hwithin => exact hwithin.2.2
  | tail _ hwithin => exact hwithin.2.2

/-- A cut closes a cycle: the walk leads from the type that is met again to
the field that nests it. -/
theorem SimpleWalkTo.transGen_of_passed {root owner type : QualifiedName}
    {steps : List Descent} {field : Field}
    (hto : schema.SimpleWalkTo root steps owner field)
    (htype : field.type = .declared type)
    (hpassed : type ∈ root :: Descent.types steps) :
    Relation.TransGen schema.Nests type type := by
  obtain ⟨after, hafter, _⟩ := hto.walk.exists_suffix hpassed
  have hdeclared := hto.walk.isSome_lookup hto.mem_fields type hpassed
  have hback : schema.Nests owner type :=
    ⟨field, hto.mem_fields, htype, hdeclared⟩
  exact .tail' hafter.inClosure hback

/-- Without a cut, nothing below a type is on the way, and nothing below it
is below itself. -/
theorem acyclic_of_no_cut (onPath : List QualifiedName)
    (owner : QualifiedName)
    (hnocut : ∀ type path location,
      Sighting.cut type path location ∉ schema.sightings onPath owner) :
    ∀ type, Relation.TransGen schema.Nests owner type →
      type ∉ onPath ∧ ¬ Relation.TransGen schema.Nests type type := by
  induction onPath, owner using descent_induction schema with
  | hstep onPath owner ih =>
      intro type hnested
      obtain ⟨next, ⟨field, hfield, htype, hnext⟩, hrest⟩ :=
        Relation.TransGen.head'_iff.mp hnested
      have hsighted : ∀ sighting,
          sighting ∈ schema.fieldSightings onPath owner field →
          sighting ∈ schema.sightings onPath owner := by
        intro sighting hmem
        rw [sightings_eq_flatMap]
        exact List.mem_flatMap.mpr ⟨field, hfield, hmem⟩
      have hoff : next ∉ onPath := by
        intro hon
        exact hnocut _ _ _ (hsighted _
          (mem_fieldSightings_iff.mpr (.inl (.cut htype hon))))
      have hbelow := ih field hfield next htype hoff hnext (by
        intro cutType path location hcut
        exact hnocut _ _ _ (hsighted _ (mem_fieldSightings_iff.mpr
          (.inr ⟨next, htype, hoff, hnext, _, hcut, rfl⟩))))
      -- The type is the one gone down to, or lies below it.
      rcases Relation.reflTransGen_iff_eq_or_transGen.mp hrest with
        rfl | hrest
      · refine ⟨hoff, fun hcycle => ?_⟩
        exact (hbelow type hcycle).1 List.mem_cons_self
      · obtain ⟨hfresh, hacyclic⟩ := hbelow type hrest
        exact ⟨fun hon => hfresh (List.mem_cons_of_mem next hon), hacyclic⟩

theorem cycles_ne_nil_iff (root : QualifiedName) :
    (schema.resolve root).cycles ≠ [] ↔
      ∃ type, Relation.TransGen (schema.NestsWithin root) type type := by
  constructor
  · intro hcycles
    obtain ⟨cut, hcut⟩ := List.exists_mem_of_ne_nil _ hcycles
    obtain ⟨steps, owner, field, type, hto, htype, hpassed, _⟩ :=
      mem_cycles_root_iff.mp hcut
    have hcycle := hto.transGen_of_passed htype hpassed
    have hclosure : schema.InClosure root type := by
      have hdeclared := hto.walk.isSome_lookup hto.mem_fields type hpassed
      exact hto.inClosure.tail ⟨field, hto.mem_fields, htype, hdeclared⟩
    exact ⟨type, hclosure.transGen_nestsWithin hcycle⟩
  · rintro ⟨type, hcycle⟩ hnil
    have hnocut : ∀ cutType path location,
        Sighting.cut cutType path location ∉
          schema.sightings [root] root := by
      intro cutType path location hcut
      have hmem : (⟨cutType, path, location⟩ : CycleCut) ∈
          (schema.resolve root).cycles := mem_cycles_iff.mpr hcut
      simp [hnil] at hmem
    have hbelow := acyclic_of_no_cut [root] root hnocut
    have hnested := transGen_nests_of_within hcycle
    rcases Relation.reflTransGen_iff_eq_or_transGen.mp
        (inClosure_of_nestsWithin hcycle) with rfl | hreached
    · exact (hbelow type hnested).1 (List.mem_singleton_self type)
    · exact (hbelow type hreached).2 hnested

end Schema

end RecordMasking

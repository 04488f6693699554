import RecordMasking.Generator
import RecordMasking.Proofs.MaskTable
import RecordMasking.Proofs.Sighting

/-!
# Schemas that find the same records

What a run does to a model depends on what the schema finds under a name and
on its marker, and on nothing else: neither the order of the listed
declarations nor the other models matter.  So two schemas with the same
look-up and the same marker resolve, decide, render and process every model
alike.
-/

namespace RecordMasking

namespace Schema

/-- Two schemas that find the same record under every name and have the same
marker. -/
structure FindsAlike (one other : Schema) : Prop where
  lookup : one.lookup = other.lookup
  marker : one.marker = other.marker

namespace FindsAlike

variable {one other : Schema} (halike : one.FindsAlike other)

include halike

theorem fields_eq : one.fields = other.fields := by
  funext id
  unfold fields
  rw [halike.lookup]

theorem isModel_eq : one.isModel = other.isModel := by
  funext id
  unfold isModel
  rw [halike.lookup, halike.marker]

theorem delegates_eq : one.delegates = other.delegates := by
  funext id
  unfold delegates
  rw [halike.isModel_eq, halike.lookup]

theorem declarationOf_eq : one.declarationOf = other.declarationOf := by
  funext id
  unfold declarationOf
  rw [halike.lookup]

theorem checkVisible_eq : one.checkVisible = other.checkVisible := by
  funext root nested
  unfold checkVisible
  rw [halike.declarationOf_eq]

/-! ## Resolution -/

theorem sightings_eq (onPath : List QualifiedName) (owner : QualifiedName) :
    one.sightings onPath owner = other.sightings onPath owner := by
  induction onPath, owner using descent_induction one with
  | hstep onPath owner ih =>
      rw [sightings_eq_flatMap, sightings_eq_flatMap, ← halike.fields_eq]
      refine List.flatMap_congr fun field hfield => ?_
      unfold fieldSightings typeSightings
      cases htype : field.type with
      | builtin text => rfl
      | unresolved text => rfl
      | declared next =>
          dsimp only
          by_cases hon : next ∈ onPath
          · rw [if_pos hon, if_pos hon]
          · rw [if_neg hon, if_neg hon, ← halike.lookup]
            by_cases hnext : (one.lookup next).isSome = true
            · rw [if_pos hnext, if_pos hnext,
                ih field hfield next htype hon hnext]
            · rw [if_neg hnext, if_neg hnext]

theorem resolve_eq : one.resolve = other.resolve := by
  funext root
  unfold resolve resolveOnPath
  rw [halike.sightings_eq]

/-! ## Decisions -/

theorem decideFrom_eq (root type : QualifiedName) (paths : PathSet) :
    one.decideFrom root type paths = other.decideFrom root type paths := by
  induction hweight : paths.weight using Nat.strongRecOn
      generalizing type paths with
  | _ weight ih =>
      have hfield : one.decideField root paths =
          other.decideField root paths := by
        funext field
        unfold decideField
        rw [halike.delegates_eq, halike.checkVisible_eq]
        cases field.type with
        | builtin text => rfl
        | unresolved text => rfl
        | declared nested =>
            dsimp only
            by_cases hbelow : (paths.below field.name).isEmpty = false
            · have hlt := PathSet.weight_below_lt hbelow
              rw [ih _ (hweight ▸ hlt) nested (paths.below field.name) rfl]
            · rw [dif_neg hbelow, dif_neg hbelow]
      rw [Schema.decideFrom_eq, Schema.decideFrom_eq, halike.declarationOf_eq,
        hfield]

theorem decide_eq : one.decide = other.decide := by
  funext type paths
  exact halike.decideFrom_eq type type paths

/-! ## Code -/

omit halike in
mutual

theorem valueCode_eq (halike : one.FindsAlike other) (config : Config)
    (binding : String) :
    ∀ decision : Decision,
      one.valueCode config binding decision =
        other.valueCode config binding decision
  | .clear => by rw [valueCode, valueCode]
  | .delegate _ => by rw [valueCode, valueCode]
  | .keep => by rw [valueCode, valueCode]
  | .rebuild type entries => by
      rw [valueCode, valueCode, halike.declarationOf_eq]
      simp only [halike.memberCodes_eq config _ _ entries]

theorem memberCodes_eq (halike : one.FindsAlike other) (config : Config)
    (owner : QualifiedName) (fields : List Field) :
    ∀ entries : List (FieldName × Decision),
      one.memberCodes config owner fields entries =
        other.memberCodes config owner fields entries
  | [] => by rw [memberCodes, memberCodes]
  | (_, decision) :: entries => by
      cases fields with
      | nil => rw [memberCodes, memberCodes]
      | cons field fields =>
          rw [memberCodes, memberCodes]
          simp only [halike.valueCode_eq config _ decision,
            halike.memberCodes_eq config owner fields entries]

end

theorem renderMask_eq (config : Config) (declaration : Declaration)
    (table : MaskTable) (paths : PathSet) :
    one.renderMask config declaration table paths =
      other.renderMask config declaration table paths := by
  unfold renderMask maskBody
  rw [halike.memberCodes_eq]

theorem synthesize_eq (config : Config) (declaration : Declaration)
    (paths : PathSet) :
    one.synthesize config declaration paths =
      other.synthesize config declaration paths := by
  unfold synthesize
  simp only [halike.decide_eq, halike.renderMask_eq]

/-- A model is processed alike, in whatever state. -/
theorem processModel_eq (config : Config) (declaration : Declaration)
    (state : RunState) :
    one.processModel config declaration state =
      other.processModel config declaration state := by
  unfold processModel
  simp only [halike.resolve_eq, halike.synthesize_eq]

end FindsAlike

end Schema

end RecordMasking

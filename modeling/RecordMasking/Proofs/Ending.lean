import RecordMasking.Proofs.Delegation
import RecordMasking.Proofs.Registry
import RecordMasking.Samples

/-!
# How a run ends

A run deals with its models in turn.  Each one is passed over, emitted or
failed, and the log, which holds all that a sink is given, says which of them
it was; a failure leaves the models behind it alone.  Only a position that
code cannot name is no failure of its model: the first mask that would name it
breaks the run off.  So a run over positions that code can name returns,
whatever else its schema holds.
-/

namespace RecordMasking

namespace Schema

variable {schema : Schema} {config : Config} {declaration : Declaration}

/-! ## Models that break a run off -/

/-- The mask of a model is not synthesized for a position in it, although
there is something to mask. -/
def BreaksAt (schema : Schema) (config : Config) (declaration : Declaration)
    (index : Nat) : Prop :=
  (schema.resolve declaration.id).paths.isEmpty = false ∧
    schema.synthesize config declaration
      (schema.resolve declaration.id).paths = .error (.positionOverflow index)

def HasField (schema : Schema) (name : FieldName) : Prop :=
  ∃ declaration ∈ schema.declarations, ∃ field ∈ declaration.fields,
    field.name = name

/-- A position of some field that code cannot name. -/
def Oversteps (schema : Schema) (index : Nat) : Prop :=
  memberBound ≤ index ∧ schema.HasField (.position index)

theorem covered_hasField (schema : Schema) : schema.Covered schema.HasField :=
  fun declaration hdeclaration field hfield =>
    ⟨declaration, hdeclaration, field, hfield, rfl⟩

theorem BreaksAt.oversteps (hlisted : declaration ∈ schema.declarations)
    {index : Nat} (hbreaks : schema.BreaksAt config declaration index) :
    schema.Oversteps index := by
  have hcovered := schema.covered_hasField
  exact synthesize_isDueTo hcovered config (hcovered declaration hlisted) _ _
    hbreaks.2

/-- Whether a model breaks a run off does not depend on the state it is
processed in. -/
theorem processModel_eq_brokenOff_iff {state : RunState} {index : Nat} :
    (schema.processModel config declaration state).2 = .brokenOff index ↔
      schema.BreaksAt config declaration index := by
  unfold BreaksAt
  cases hpaths : (schema.resolve declaration.id).paths.isEmpty with
  | true => simp [processModel_of_isEmpty hpaths]
  | false =>
      rw [processModel_eq_settled hpaths]
      rcases schema.synthesize config declaration
          (schema.resolve declaration.id).paths with (fault | other) | synthesis
      · simp [settled]
      · simp [settled]
      · simp [settled]

end Schema

/-! ## Models that are dealt with -/

/-- The report of a state shows what came of a model, and the log the reason
when it failed. -/
def RunState.Shows (state : RunState) (declaration : Declaration) :
    Except Fault Outcome → Prop
  | .ok outcome => (declaration.id.maskKey, outcome) ∈ state.report.emitted
  | .error fault =>
      declaration.id ∈ state.report.failed ∧ fault.IsError ∧
        fault.toDiagnostic declaration.location ∈ state.log

theorem RunState.Shows.extends {state after : RunState}
    {declaration : Declaration} {result : Except Fault Outcome}
    (hshows : state.Shows declaration result)
    (hextends : state.Extends after) : after.Shows declaration result := by
  cases result with
  | ok outcome => exact hextends.emitted.subset hshows
  | error fault =>
      obtain ⟨hfailed, herror, hlogged⟩ := hshows
      exact ⟨hextends.failed.subset hfailed, herror,
        hextends.log.subset hlogged⟩

theorem RunState.shows_fail (state : RunState) (declaration : Declaration)
    {fault : Fault} (herror : fault.IsError) :
    (state.fail declaration fault).Shows declaration (.error fault) :=
  ⟨List.mem_append_right _ (List.mem_singleton_self _), herror,
    List.mem_append_right _ (List.mem_singleton_self _)⟩

theorem RunState.shows_emit (state : RunState) {declaration : Declaration}
    {synthesis : Synthesis}
    (hkey : synthesis.artifact.key = declaration.id.maskKey) :
    (state.emit declaration synthesis).Shows declaration
      (state.emission.emit state.tree synthesis.artifact).2.2 := by
  have herror := state.emission.failsOnly_emit state.tree synthesis.artifact
  obtain ⟨emission, tree, ⟨outcome, hresult, hemit⟩ | ⟨fault, hresult, hemit⟩⟩ :=
    state.emit_cases declaration synthesis
  · rw [hemit, hresult]
    refine List.mem_append_right _ (List.mem_singleton.mpr ?_)
    rw [hkey]
  · rw [hresult] at herror
    rw [hemit, hresult]
    exact shows_fail _ declaration (herror fault rfl)

namespace Schema

variable {schema : Schema} {config : Config} {declaration : Declaration}

/-- What a state holds of a model that has been processed to its end. -/
structure Answered (schema : Schema) (config : Config)
    (declaration : Declaration) (state : RunState) : Prop where
  passedOver : (schema.resolve declaration.id).paths.isEmpty = true →
    notEligible declaration ∈ state.log
  unsynthesized : (schema.resolve declaration.id).paths.isEmpty = false →
    ∀ fault, schema.synthesize config declaration
        (schema.resolve declaration.id).paths = .error (.fault fault) →
      state.Shows declaration (.error fault)
  synthesized : (schema.resolve declaration.id).paths.isEmpty = false →
    ∀ synthesis, schema.synthesize config declaration
        (schema.resolve declaration.id).paths = .ok synthesis →
      ∃ emission tree, state.Shows declaration
        (Emission.emit emission tree synthesis.artifact).2.2
  unbroken : ∀ index, ¬ schema.BreaksAt config declaration index

theorem Answered.extends {state after : RunState}
    (hanswered : schema.Answered config declaration state)
    (hextends : state.Extends after) :
    schema.Answered config declaration after where
  passedOver hempty := hextends.log.subset (hanswered.passedOver hempty)
  unsynthesized hpaths fault hfault :=
    (hanswered.unsynthesized hpaths fault hfault).extends hextends
  synthesized hpaths synthesis hsynthesis := by
    obtain ⟨emission, tree, hshows⟩ :=
      hanswered.synthesized hpaths synthesis hsynthesis
    exact ⟨emission, tree, hshows.extends hextends⟩
  unbroken := hanswered.unbroken

theorem answered_of_processModel {state after : RunState}
    (hprocess : schema.processModel config declaration state =
      (after, .finished)) :
    schema.Answered config declaration after where
  passedOver hempty := by
    rw [processModel_of_isEmpty hempty] at hprocess
    obtain ⟨rfl, _⟩ := Prod.mk.inj hprocess
    exact List.mem_append_right _ (List.mem_singleton_self _)
  unsynthesized hpaths fault hfault := by
    rw [processModel_eq_settled hpaths, hfault] at hprocess
    obtain ⟨rfl, _⟩ := Prod.mk.inj hprocess
    exact RunState.shows_fail _ declaration
      (failsOnly_synthesize config declaration _ _ hfault fault rfl)
  synthesized hpaths synthesis hsynthesis := by
    rw [processModel_eq_settled hpaths, hsynthesis] at hprocess
    obtain ⟨rfl, _⟩ := Prod.mk.inj hprocess
    exact ⟨_, _, RunState.shows_emit _ (synthesize_eq_ok hsynthesis).2.2⟩
  unbroken index hbreaks := by
    have hbroken : (schema.processModel config declaration state).2 = _ :=
      processModel_eq_brokenOff_iff.mpr hbreaks
    rw [hprocess] at hbroken
    cases hbroken

/-! ## The models of a run -/

/-- How the processing of models ends: all of them are dealt with, or those
before the first one that breaks it off. -/
inductive Ends (schema : Schema) (config : Config)
    (models : List Declaration) (state : RunState) : Ending → Prop
  | finished
      (hanswered : ∀ declaration ∈ models,
        schema.Answered config declaration state) :
      Ends schema config models state .finished
  | brokenOff {handled rest : List Declaration} {broken : Declaration}
      {index : Nat} (hmodels : models = handled ++ broken :: rest)
      (hanswered : ∀ declaration ∈ handled,
        schema.Answered config declaration state)
      (hbreaks : schema.BreaksAt config broken index)
      (hposition : schema.Oversteps index) :
      Ends schema config models state (.brokenOff index)

theorem Ends.cons {models : List Declaration} {state : RunState}
    {ending : Ending} (hfirst : schema.Answered config declaration state)
    (hends : schema.Ends config models state ending) :
    schema.Ends config (declaration :: models) state ending := by
  cases hends with
  | finished hanswered =>
      exact .finished (List.forall_mem_cons.mpr ⟨hfirst, hanswered⟩)
  | brokenOff hmodels hanswered hbreaks hposition =>
      rw [hmodels, ← List.cons_append]
      exact .brokenOff rfl (List.forall_mem_cons.mpr ⟨hfirst, hanswered⟩)
        hbreaks hposition

theorem Ends.extends {models : List Declaration} {state after : RunState}
    {ending : Ending} (hends : schema.Ends config models state ending)
    (hextends : state.Extends after) :
    schema.Ends config models after ending := by
  cases hends with
  | finished hanswered =>
      exact .finished fun declaration hmodel =>
        (hanswered declaration hmodel).extends hextends
  | brokenOff hmodels hanswered hbreaks hposition =>
      exact .brokenOff hmodels
        (fun declaration hmodel =>
          (hanswered declaration hmodel).extends hextends) hbreaks hposition

theorem ends_of_processModels {declarations : List Declaration}
    (hlisted : ∀ declaration ∈ declarations,
      declaration ∈ schema.declarations)
    {state after : RunState} {ending : Ending}
    (hrun : schema.processModels config declarations state =
      (after, ending)) :
    state.Extends after ∧
      schema.Ends config
        (declarations.filter fun declaration => schema.isModel declaration.id)
        after ending := by
  -- What the first model leaves in the state is carried along by `Extends`.
  induction declarations generalizing state with
  | nil =>
      obtain ⟨rfl, rfl⟩ := Prod.mk.inj hrun
      exact ⟨.refl state, .finished (by simp)⟩
  | cons first rest ih =>
      rw [List.forall_mem_cons] at hlisted
      unfold processModels at hrun
      split at hrun
      next hmodel =>
        simp only [List.filter_cons, hmodel, if_true]
        split at hrun
        next middle hmiddle =>
          obtain ⟨hextends, hends⟩ := ih hlisted.2 hrun
          have hfirst := (processed_of_eq hmiddle).extends
          exact ⟨hfirst.trans hextends,
            hends.cons ((answered_of_processModel hmiddle).extends hextends)⟩
        next middle index hmiddle =>
          obtain ⟨rfl, rfl⟩ := Prod.mk.inj hrun
          have hbreaks : schema.BreaksAt config first index :=
            processModel_eq_brokenOff_iff.mp (congrArg Prod.snd hmiddle)
          exact ⟨(processed_of_eq hmiddle).extends,
            .brokenOff (List.nil_append _).symm (by simp) hbreaks
              (hbreaks.oversteps hlisted.1)⟩
      next hother =>
        simp only [List.filter_cons, hother]
        exact ih hlisted.2 hrun

/-- A run answers for its models in turn.  It is halted when the marker is
out of scope; else every model up to its end is passed over, emitted or failed
with its reason in the log, and the end is that of the models unless one of
them breaks the run off by the position of some field that code cannot name.
A run over a schema without such a position returns. -/
theorem run_ends (schema : Schema) (config : Config) (emission : Emission)
    (tree : OutputTree) {state : RunState} {ending : Ending}
    (hrun : schema.run config emission tree = (state, ending)) :
    (schema.markerResolved = false →
      ending = .finished ∧ state.report.halted = true ∧
        state.report.deferred = schema.names ∧
        state.log = [(Fault.missingMarker schema.marker).toDiagnostic none]) ∧
      (schema.markerResolved = true →
        schema.Ends config schema.models state ending) ∧
      ((∀ index, ¬ schema.Oversteps index) → ending = .finished) := by
  have hhalted : schema.markerResolved = false →
      ending = .finished ∧ state.report.halted = true ∧
        state.report.deferred = schema.names ∧
        state.log =
          [(Fault.missingMarker schema.marker).toDiagnostic none] := by
    intro hresolved
    simp only [run, hresolved, Bool.false_eq_true, if_false] at hrun
    obtain ⟨rfl, rfl⟩ := Prod.mk.inj hrun
    exact ⟨rfl, rfl, rfl, rfl⟩
  have hends : schema.markerResolved = true →
      schema.Ends config schema.models state ending := by
    intro hresolved
    simp only [run, hresolved, if_true] at hrun
    split at hrun
    next after hafter =>
      obtain ⟨rfl, rfl⟩ := Prod.mk.inj hrun
      exact (ends_of_processModels (fun _ hlisted => hlisted) hafter).2.extends
        (after.extends_tell _)
    next after index hafter =>
      obtain ⟨rfl, rfl⟩ := Prod.mk.inj hrun
      exact (ends_of_processModels (fun _ hlisted => hlisted) hafter).2
  refine ⟨hhalted, hends, fun hnamable => ?_⟩
  cases hresolved : schema.markerResolved with
  | false => exact (hhalted hresolved).1
  | true =>
      cases hends hresolved with
      | finished => rfl
      | brokenOff _ _ _ hposition => exact absurd hposition (hnamable _)

open Samples in
/-- A run that is broken off by its first model: the second one is neither
emitted nor failed. -/
theorem overlong_run_ends :
    let schema := (Registry.ofList
      [model "Long" [{
          name := .position memberBound, type := text, sensitive := true }],
        model "Inner" [secret "value" text]]).toSchema "Model" true
    let result := schema.run {} { root := ["out"] } .empty
    result.2 = .brokenOff memberBound ∧
      result.1.report.emitted = [] ∧ result.1.report.failed = [] ∧
      schema.Ends {} schema.models result.1 (.brokenOff memberBound) := by
  intro schema result
  have hending : result.2 = .brokenOff memberBound := by decide +kernel
  have hrun : schema.run {} { root := ["out"] } .empty =
      (result.1, .brokenOff memberBound) := Prod.ext rfl hending
  exact ⟨hending, by decide +kernel, by decide +kernel,
    (run_ends schema {} _ _ hrun).2.1 rfl⟩

end Schema

end RecordMasking

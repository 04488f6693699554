import Mathlib.Logic.Basic
import RecordMasking.Generator

/-!
# The steps of a run

One model is processed in one of four ways, which `Schema.Processed` lists
with everything that each of them does to the state.  What a run adds to a
list of its state follows model by model: `Schema.Through.append` turns a
statement about one model into one about all models of a finished run.
-/

namespace RecordMasking

@[simp] theorem DiagnosticLog.ofKind_append (left right : DiagnosticLog)
    (kind : String) :
    DiagnosticLog.ofKind (left ++ right) kind =
      left.ofKind kind ++ right.ofKind kind :=
  List.filter_append left right

namespace RunState

variable (state : RunState)

@[simp] theorem tell_log (diagnostics : List Diagnostic) :
    (state.tell diagnostics).log = state.log ++ diagnostics := rfl

@[simp] theorem tell_report (diagnostics : List Diagnostic) :
    (state.tell diagnostics).report = state.report := rfl

@[simp] theorem fail_log (declaration : Declaration) (fault : Fault) :
    (state.fail declaration fault).log =
      state.log ++ [fault.toDiagnostic declaration.location] := rfl

@[simp] theorem fail_incomplete (declaration : Declaration) (fault : Fault) :
    (state.fail declaration fault).report.incomplete =
      state.report.incomplete := rfl

@[simp] theorem finish_incomplete (synthesis : Synthesis)
    (outcome : Outcome) :
    (state.finish synthesis outcome).report.incomplete =
      state.report.incomplete := rfl

def announce (declaration : Declaration) (resolution : Resolution) :
    RunState :=
  let told := state.tell
    (resolution.issues.map fun issue => issue.1.toDiagnostic issue.2)
  if resolution.isComplete then told else told.markIncomplete declaration.id

theorem announce_log (declaration : Declaration) (resolution : Resolution) :
    (state.announce declaration resolution).log =
      state.log ++
        resolution.issues.map fun issue => issue.1.toDiagnostic issue.2 := by
  unfold announce
  cases resolution.isComplete <;> rfl

theorem announce_incomplete (declaration : Declaration)
    (resolution : Resolution) :
    (state.announce declaration resolution).report.incomplete =
      state.report.incomplete ++
        if !resolution.isComplete then [declaration.id] else [] := by
  unfold announce
  cases resolution.isComplete <;> simp [markIncomplete]

theorem announce_tree (declaration : Declaration)
    (resolution : Resolution) :
    (state.announce declaration resolution).tree = state.tree ∧
      (state.announce declaration resolution).emission = state.emission := by
  unfold announce
  split
  · exact ⟨rfl, rfl⟩
  · exact ⟨rfl, rfl⟩

theorem emit_cases (declaration : Declaration) (synthesis : Synthesis) :
    ∃ emission tree,
      (∃ outcome,
        state.emission.emit state.tree synthesis.artifact =
            (emission, tree, .ok outcome) ∧
          state.emit declaration synthesis =
            { state with emission, tree }.finish synthesis outcome) ∨
      ∃ fault,
        state.emission.emit state.tree synthesis.artifact =
            (emission, tree, .error fault) ∧
          state.emit declaration synthesis =
            { state with emission, tree }.fail declaration fault := by
  unfold emit
  rcases hemit : state.emission.emit state.tree synthesis.artifact with
    ⟨emission, tree, result⟩
  cases result with
  | ok outcome => exact ⟨emission, tree, .inl ⟨outcome, rfl, rfl⟩⟩
  | error fault => exact ⟨emission, tree, .inr ⟨fault, rfl, rfl⟩⟩

end RunState

namespace Schema

variable {schema : Schema} {config : Config}

/-- The state in which the masked paths of a model have been told. -/
def readied (schema : Schema) (declaration : Declaration)
    (state : RunState) : RunState :=
  let resolution := schema.resolve declaration.id
  (state.announce declaration resolution).tell
    (resolution.paths.toList.map (maskedPath declaration.id))

theorem readied_tree (declaration : Declaration) (state : RunState) :
    (schema.readied declaration state).tree = state.tree ∧
      (schema.readied declaration state).emission = state.emission :=
  state.announce_tree declaration (schema.resolve declaration.id)

/-- The ways of processing one model. -/
inductive Processed (schema : Schema) (config : Config)
    (declaration : Declaration) (state : RunState) :
    RunState × Ending → Prop
  | notEligible
      (hempty : (schema.resolve declaration.id).paths.isEmpty = true) :
      Processed schema config declaration state
        ((state.announce declaration (schema.resolve declaration.id)).tell
          [notEligible declaration], .finished)
  | emitted {synthesis : Synthesis}
      (hpaths : (schema.resolve declaration.id).paths.isEmpty = false)
      (hsynthesis : schema.synthesize config declaration
        (schema.resolve declaration.id).paths = .ok synthesis) :
      Processed schema config declaration state
        ((schema.readied declaration state).emit declaration synthesis,
          .finished)
  | failed {fault : Fault}
      (hpaths : (schema.resolve declaration.id).paths.isEmpty = false)
      (hfault : schema.synthesize config declaration
        (schema.resolve declaration.id).paths = .error (.fault fault)) :
      Processed schema config declaration state
        ((schema.readied declaration state).fail declaration fault,
          .finished)
  | brokenOff {index : Nat}
      (hpaths : (schema.resolve declaration.id).paths.isEmpty = false)
      (hoverflow : schema.synthesize config declaration
        (schema.resolve declaration.id).paths =
          .error (.positionOverflow index)) :
      Processed schema config declaration state
        (schema.readied declaration state, .brokenOff index)

/-- What becomes of a model with masked paths, by the result of its
synthesis. -/
def settled (schema : Schema) (declaration : Declaration)
    (state : RunState) :
    Except SynthesisFailure Synthesis → RunState × Ending
  | .ok synthesis =>
      ((schema.readied declaration state).emit declaration synthesis,
        .finished)
  | .error (.fault fault) =>
      ((schema.readied declaration state).fail declaration fault, .finished)
  | .error (.positionOverflow index) =>
      (schema.readied declaration state, .brokenOff index)

theorem processModel_eq_settled {declaration : Declaration}
    {state : RunState}
    (hpaths : (schema.resolve declaration.id).paths.isEmpty = false) :
    schema.processModel config declaration state =
      schema.settled declaration state
        (schema.synthesize config declaration
          (schema.resolve declaration.id).paths) := by
  simp only [processModel, hpaths, Bool.false_eq_true, if_false]
  rcases schema.synthesize config declaration
      (schema.resolve declaration.id).paths with (fault | index) | synthesis
  · rfl
  · rfl
  · rfl

theorem processModel_of_isEmpty {declaration : Declaration}
    (hempty : (schema.resolve declaration.id).paths.isEmpty = true)
    (state : RunState) :
    schema.processModel config declaration state =
      ((state.announce declaration (schema.resolve declaration.id)).tell
        [notEligible declaration], .finished) := by
  simp only [processModel, hempty, if_true]
  rfl

theorem processed_processModel (declaration : Declaration)
    (state : RunState) :
    schema.Processed config declaration state
      (schema.processModel config declaration state) := by
  cases hpaths : (schema.resolve declaration.id).paths.isEmpty with
  | true =>
      rw [processModel_of_isEmpty hpaths]
      exact .notEligible hpaths
  | false =>
      rw [processModel_eq_settled hpaths]
      cases hsynthesis : schema.synthesize config declaration
          (schema.resolve declaration.id).paths with
      | ok synthesis => exact .emitted hpaths hsynthesis
      | error failure =>
          cases failure with
          | fault fault => exact .failed hpaths hsynthesis
          | positionOverflow index => exact .brokenOff hpaths hsynthesis

theorem processed_of_eq {declaration : Declaration} {state : RunState}
    {result : RunState × Ending}
    (hprocess : schema.processModel config declaration state = result) :
    schema.Processed config declaration state result := by
  rw [← hprocess]
  exact processed_processModel declaration state

theorem flatMap_ite_singleton {α β : Type} (keep : α → Bool) (value : α → β)
    (items : List α) :
    (items.flatMap fun item => if keep item then [value item] else []) =
      (items.filter keep).map value := by
  induction items with
  | nil => rfl
  | cons item rest ih =>
      cases hkeep : keep item <;> simp [hkeep, ih]

def models (schema : Schema) : List Declaration :=
  schema.declarations.filter fun declaration => schema.isModel declaration.id

/-- A run through models, each of which is processed to its end. -/
inductive Through (schema : Schema) (config : Config) :
    RunState → List Declaration → RunState → Prop
  | done {state : RunState} : Through schema config state [] state
  | next {state middle after : RunState} {declaration : Declaration}
      {rest : List Declaration}
      (hprocess : schema.processModel config declaration state =
        (middle, .finished))
      (hrest : Through schema config middle rest after) :
      Through schema config state (declaration :: rest) after

theorem through_of_processModels {declarations : List Declaration}
    {state after : RunState}
    (hrun : schema.processModels config declarations state =
      (after, .finished)) :
    schema.Through config state
      (declarations.filter fun declaration => schema.isModel declaration.id)
      after := by
  induction declarations generalizing state with
  | nil =>
      obtain ⟨rfl, _⟩ := Prod.mk.inj hrun
      exact .done
  | cons declaration rest ih =>
      unfold processModels at hrun
      split at hrun
      next hmodel =>
        split at hrun
        next middle hmiddle =>
          simp only [List.filter_cons, hmodel, if_true]
          exact .next hmiddle (ih hrun)
        next => simp at hrun
      next hother =>
        simp only [List.filter_cons, hother]
        exact ih hrun

/-- When every model adds its share to a list of the state, going through the
models adds all shares in order. -/
theorem Through.append {α : Type} (view : RunState → List α)
    (share : Declaration → List α)
    (hstep : ∀ declaration state after,
      schema.Processed config declaration state (after, .finished) →
        view after = view state ++ share declaration)
    {models : List Declaration} {state after : RunState}
    (hthrough : schema.Through config state models after) :
    view after = view state ++ models.flatMap share := by
  induction hthrough with
  | done => simp
  | @next state middle after declaration rest hprocess _ ih =>
      rw [ih, hstep declaration state middle (processed_of_eq hprocess),
        List.flatMap_cons, List.append_assoc]

theorem run_finished {emission : Emission} {tree : OutputTree}
    {state : RunState}
    (hrun : schema.run config emission tree = (state, .finished))
    (hhalted : state.report.halted = false) :
    ∃ after,
      schema.processModels config schema.declarations { emission, tree } =
        (after, .finished) ∧ state = summarize after := by
  simp only [run] at hrun
  split at hrun
  next =>
    split at hrun
    next after hafter =>
      obtain ⟨rfl, _⟩ := Prod.mk.inj hrun
      exact ⟨after, hafter, rfl⟩
    next => simp at hrun
  next =>
    obtain ⟨rfl, _⟩ := Prod.mk.inj hrun
    simp [haltRun] at hhalted

theorem run_through {emission : Emission} {tree : OutputTree}
    {state : RunState}
    (hrun : schema.run config emission tree = (state, .finished))
    (hhalted : state.report.halted = false) :
    ∃ after, schema.Through config { emission, tree } schema.models after ∧
      state = summarize after := by
  obtain ⟨after, hprocessed, hstate⟩ := run_finished hrun hhalted
  exact ⟨after, through_of_processModels hprocessed, hstate⟩

end Schema

end RecordMasking

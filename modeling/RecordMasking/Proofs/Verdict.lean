import RecordMasking.Proofs.History
import RecordMasking.Proofs.Run
import RecordMasking.Proofs.Severity
import RecordMasking.Proofs.Synthesis

/-!
# Verdicts

Each model of a finished run is passed over, emitted or failed.  The verdict
and the declaration decide all that the run tells and reports of the model;
the state it was processed in only decides the verdict, by the attempt to emit
its artifact.  So the log and the report of a run are those of its models, one
after the other.
-/

namespace RecordMasking

/-- What becomes of a model in a run that is not broken off. -/
inductive Verdict where
  | passedOver
  | emitted (synthesis : Synthesis) (outcome : Outcome)
  | failed (fault : Fault)

def Synthesis.outcomeEntry (synthesis : Synthesis) : Outcome → Diagnostic
  | .written =>
      { severity := .info, kind := "written"
        message := "generated `" ++ synthesis.artifact.key.display ++ "` (" ++
          toString synthesis.table.overrides ++ " field override(s))" }
  | .skipped =>
      (Fault.duplicateArtifact synthesis.artifact.key).toDiagnostic none

namespace Verdict

def ofAttempt (synthesis : Synthesis) : Except Fault Outcome → Verdict
  | .ok outcome => .emitted synthesis outcome
  | .error fault => .failed fault

/-- The last thing that is told of a model. -/
def closing (declaration : Declaration) : Verdict → Diagnostic
  | .passedOver => notEligible declaration
  | .emitted synthesis outcome => synthesis.outcomeEntry outcome
  | .failed fault => fault.toDiagnostic declaration.location

def emissions : Verdict → List (QualifiedName × Outcome)
  | .emitted synthesis outcome => [(synthesis.artifact.key, outcome)]
  | _ => []

def failures (declaration : Declaration) : Verdict → List QualifiedName
  | .failed _ => [declaration.id]
  | _ => []

end Verdict

namespace Schema

variable {schema : Schema} {config : Config}

/-- The verdict on a model that is processed with the given emission and
tree, unless the run is broken off there. -/
def verdict? (schema : Schema) (config : Config) (emission : Emission)
    (tree : OutputTree) (declaration : Declaration) : Option Verdict :=
  let paths := (schema.resolve declaration.id).paths
  if paths.isEmpty then some .passedOver
  else
    match schema.synthesize config declaration paths with
    | .ok synthesis =>
        some (.ofAttempt synthesis
          (emission.attempt tree synthesis.artifact).2)
    | .error (.fault fault) => some (.failed fault)
    | .error (.positionOverflow _) => none

/-- What is told of a model before its verdict. -/
def findings (schema : Schema) (declaration : Declaration) :
    List Diagnostic :=
  let resolution := schema.resolve declaration.id
  (resolution.issues.map fun issue => issue.1.toDiagnostic issue.2) ++
    resolution.paths.toList.map (maskedPath declaration.id)

def told (schema : Schema) (declaration : Declaration) (verdict : Verdict) :
    List Diagnostic :=
  schema.findings declaration ++ [verdict.closing declaration]

/-- The model's part in the list of incomplete types. -/
def gaps (schema : Schema) (declaration : Declaration) :
    List QualifiedName :=
  if !(schema.resolve declaration.id).isComplete then [declaration.id] else []

/-- What a verdict adds to a state besides its tree and its manifest. -/
structure Gains (schema : Schema) (declaration : Declaration)
    (verdict : Verdict) (state after : RunState) : Prop where
  log : after.log = state.log ++ schema.told declaration verdict
  incomplete : after.report.incomplete =
    state.report.incomplete ++ schema.gaps declaration
  failed : after.report.failed =
    state.report.failed ++ verdict.failures declaration
  emitted : after.report.emitted = state.report.emitted ++ verdict.emissions
  halted : after.report.halted = state.report.halted
  deferred : after.report.deferred = state.report.deferred

inductive Justified (schema : Schema) (declaration : Declaration) :
    Verdict → Prop
  | passedOver
      (hempty : (schema.resolve declaration.id).paths.isEmpty = true) :
      Justified schema declaration .passedOver
  | emitted {synthesis : Synthesis} {outcome : Outcome}
      (hpaths : (schema.resolve declaration.id).paths.isEmpty = false)
      (hkey : synthesis.artifact.key = declaration.id.maskKey) :
      Justified schema declaration (.emitted synthesis outcome)
  | failed {fault : Fault}
      (hpaths : (schema.resolve declaration.id).paths.isEmpty = false)
      (herror : fault.IsError) : Justified schema declaration (.failed fault)

theorem justified_of_verdict? {emission : Emission} {tree : OutputTree}
    {declaration : Declaration} {verdict : Verdict}
    (hverdict : schema.verdict? config emission tree declaration =
      some verdict) : schema.Justified declaration verdict := by
  unfold verdict? at hverdict
  dsimp only at hverdict
  split at hverdict
  next hempty =>
    obtain rfl := Option.some.inj hverdict
    exact .passedOver hempty
  next hpaths =>
    rw [Bool.not_eq_true] at hpaths
    split at hverdict
    next synthesis hsynthesis =>
      obtain rfl := Option.some.inj hverdict
      have herror := emission.failsOnly_emit tree synthesis.artifact
      obtain ⟨next, hemit, _⟩ := emission.emit_eq tree synthesis.artifact
      rw [hemit] at herror
      cases hattempt : (emission.attempt tree synthesis.artifact).2 with
      | ok outcome => exact .emitted hpaths (synthesize_eq_ok hsynthesis).2.2
      | error fault => exact .failed hpaths (herror fault hattempt)
    next fault hfault =>
      obtain rfl := Option.some.inj hverdict
      exact .failed hpaths
        (failsOnly_synthesize config declaration _ _ hfault fault rfl)
    next => simp at hverdict

end Schema

namespace RunState

def conclude (state : RunState) (declaration : Declaration)
    (synthesis : Synthesis) : Except Fault Outcome → RunState
  | .ok outcome => state.finish synthesis outcome
  | .error fault => state.fail declaration fault

theorem conclude_tree (state : RunState) (declaration : Declaration)
    (synthesis : Synthesis) (result : Except Fault Outcome) :
    (state.conclude declaration synthesis result).tree = state.tree ∧
      (state.conclude declaration synthesis result).emission =
        state.emission := by
  cases result with
  | ok outcome => exact ⟨rfl, rfl⟩
  | error fault => exact ⟨rfl, rfl⟩

theorem emit_eq_conclude (state : RunState) (declaration : Declaration)
    (synthesis : Synthesis) :
    let attempt := state.emission.attempt state.tree synthesis.artifact
    ∃ emission : Emission, emission.root = state.emission.root ∧
      state.emit declaration synthesis =
        ({ state with emission, tree := attempt.1 } : RunState).conclude
          declaration synthesis attempt.2 := by
  intro attempt
  obtain ⟨emission, hemit, hroot, _⟩ :=
    state.emission.emit_eq state.tree synthesis.artifact
  refine ⟨emission, hroot, ?_⟩
  unfold RunState.emit
  rw [hemit]
  cases hresult : attempt.2 with
  | ok outcome => simp only [attempt, hresult, conclude]
  | error fault => simp only [attempt, hresult, conclude]

variable (schema : Schema) (state : RunState)

theorem announce_report (declaration : Declaration) :
    (state.announce declaration (schema.resolve declaration.id)).report =
      { state.report with
        incomplete := state.report.incomplete ++ schema.gaps declaration } := by
  unfold announce Schema.gaps
  cases (schema.resolve declaration.id).isComplete with
  | true => simp
  | false => simp [markIncomplete]

theorem readied_log (declaration : Declaration) :
    (schema.readied declaration state).log =
      state.log ++ schema.findings declaration := by
  unfold Schema.readied Schema.findings
  rw [tell_log, announce_log, List.append_assoc]

theorem readied_report (declaration : Declaration) :
    (schema.readied declaration state).report =
      { state.report with
        incomplete := state.report.incomplete ++ schema.gaps declaration } :=
  state.announce_report schema declaration

theorem finish_log (synthesis : Synthesis) (outcome : Outcome) :
    (state.finish synthesis outcome).log =
      state.log ++ [synthesis.outcomeEntry outcome] := by
  cases outcome with
  | written => rfl
  | skipped => rfl

variable {schema}

theorem gains_fail {declaration : Declaration} {fault : Fault}
    {ready : RunState}
    (hlog : ready.log = state.log ++ schema.findings declaration)
    (hreport : ready.report = { state.report with
      incomplete := state.report.incomplete ++ schema.gaps declaration }) :
    schema.Gains declaration (.failed fault) state
      (ready.fail declaration fault) := by
  constructor
  · rw [fail_log, hlog, List.append_assoc]
    rfl
  all_goals simp [RunState.fail, RunState.tell, hreport, Verdict.failures,
    Verdict.emissions]

theorem gains_finish {declaration : Declaration} {synthesis : Synthesis}
    {outcome : Outcome} {ready : RunState}
    (hlog : ready.log = state.log ++ schema.findings declaration)
    (hreport : ready.report = { state.report with
      incomplete := state.report.incomplete ++ schema.gaps declaration }) :
    schema.Gains declaration (.emitted synthesis outcome) state
      (ready.finish synthesis outcome) := by
  constructor
  · rw [finish_log, hlog, List.append_assoc]
    rfl
  all_goals simp [RunState.finish, RunState.tell, hreport, Verdict.failures,
    Verdict.emissions]

end RunState

namespace Schema

variable {schema : Schema} {config : Config}

theorem findings_of_isEmpty {declaration : Declaration}
    (hempty : (schema.resolve declaration.id).paths.isEmpty = true) :
    schema.findings declaration =
      (schema.resolve declaration.id).issues.map fun issue =>
        issue.1.toDiagnostic issue.2 := by
  have hnone : (schema.resolve declaration.id).paths.toList = [] := by
    simpa [PathSet.isEmpty] using hempty
  simp [findings, hnone]

/-- A processed model has a verdict, and all that is added to the state comes
from it. -/
theorem gains_of_processModel {declaration : Declaration}
    {state after : RunState}
    (hprocess : schema.processModel config declaration state =
      (after, .finished)) :
    ∃ verdict,
      schema.verdict? config state.emission state.tree declaration =
          some verdict ∧
        schema.Gains declaration verdict state after := by
  cases processed_of_eq hprocess with
  | notEligible hempty =>
      refine ⟨.passedOver, by simp [verdict?, hempty], ?_⟩
      have hreport := state.announce_report schema declaration
      constructor
      · rw [RunState.tell_log, RunState.announce_log, List.append_assoc, told,
          findings_of_isEmpty hempty]
        rfl
      all_goals simp [RunState.tell, hreport, Verdict.failures,
        Verdict.emissions]
  | @emitted synthesis hpaths hsynthesis =>
      have hlog := state.readied_log schema declaration
      have hreport := state.readied_report schema declaration
      obtain ⟨htree, hemission⟩ := schema.readied_tree declaration state
      obtain ⟨next, _, hemit⟩ := RunState.emit_eq_conclude
        (schema.readied declaration state) declaration synthesis
      rw [htree, hemission] at hemit
      rw [hemit]
      refine ⟨.ofAttempt synthesis
        (state.emission.attempt state.tree synthesis.artifact).2,
        by simp [verdict?, hpaths, hsynthesis], ?_⟩
      cases (state.emission.attempt state.tree synthesis.artifact).2 with
      | ok outcome => exact state.gains_finish hlog hreport
      | error fault => exact state.gains_fail hlog hreport
  | @failed fault hpaths hfault =>
      refine ⟨.failed fault, by simp [verdict?, hpaths, hfault], ?_⟩
      exact state.gains_fail (state.readied_log schema declaration)
        (state.readied_report schema declaration)

end Schema

end RecordMasking

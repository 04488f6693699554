import RecordMasking.Emission
import RecordMasking.Resolution
import RecordMasking.Synthesis

/-!
# Runs

A run goes through the models of a schema in the order of their declaration:
it resolves each one, synthesizes its mask and emits it.  What fails for one
model is reported, and the run goes on with the next one.  Only a marker that
is out of scope halts a run before it starts, and only a position without a
place in code breaks it off.
-/

namespace RecordMasking

/-- What a run did. -/
structure RunReport where
  /-- The marker was out of scope and nothing was processed. -/
  halted : Bool := false
  /-- Types to be processed in a later round. -/
  deferred : List QualifiedName := []
  /-- Types with a field of unknown type somewhere below them. -/
  incomplete : List QualifiedName := []
  /-- Types whose mask was not synthesized or not emitted. -/
  failed : List QualifiedName := []
  /-- Keys with their outcomes in the order of emission. -/
  emitted : List (QualifiedName × Outcome) := []
deriving DecidableEq, Repr, Inhabited

namespace RunReport

def outcome? (report : RunReport) (type : QualifiedName) : Option Outcome :=
  (report.emitted.find? fun entry => entry.1 == type.maskKey).map Prod.snd

def count (report : RunReport) (outcome : Outcome) : Nat :=
  (report.emitted.filter fun entry => entry.2 == outcome).length

def written (report : RunReport) : Nat := report.count .written

def skipped (report : RunReport) : Nat := report.count .skipped

/-- Whether the same run is worth repeating in a later round. -/
def needsAnotherRound (report : RunReport) : Bool :=
  report.halted || !report.deferred.isEmpty || !report.incomplete.isEmpty

def summary (report : RunReport) : String :=
  toString report.written ++ " mask(s) written, " ++
    toString report.skipped ++ " skipped, " ++
    toString report.failed.length ++ " failed, " ++
    toString report.incomplete.length ++ " incomplete"

end RunReport

/-- What a run works on and what it has done so far. -/
structure RunState where
  emission : Emission
  tree : OutputTree
  log : DiagnosticLog := []
  report : RunReport := {}

namespace RunState

def tell (state : RunState) (diagnostics : List Diagnostic) : RunState :=
  { state with log := state.log ++ diagnostics }

/-- Reports a fault of a model at its declaration. -/
def fail (state : RunState) (declaration : Declaration) (fault : Fault) :
    RunState :=
  { state.tell [fault.toDiagnostic declaration.location] with
    report := { state.report with
      failed := state.report.failed ++ [declaration.id] } }

def markIncomplete (state : RunState) (type : QualifiedName) : RunState :=
  { state with
    report := { state.report with
      incomplete := state.report.incomplete ++ [type] } }

/-- Reports the outcome of an emission. -/
def finish (state : RunState) (synthesis : Synthesis) (outcome : Outcome) :
    RunState :=
  let key := synthesis.artifact.key
  let entry : Diagnostic :=
    match outcome with
    | .written =>
        { severity := .info, kind := "written"
          message := "generated `" ++ key.display ++ "` (" ++
            toString synthesis.table.overrides ++ " field override(s))" }
    | .skipped => (Fault.duplicateArtifact key).toDiagnostic none
  { state.tell [entry] with
    report := { state.report with
      emitted := state.report.emitted ++ [(key, outcome)] } }

/-- Emits the mask of a declaration. -/
def emit (state : RunState) (declaration : Declaration)
    (synthesis : Synthesis) : RunState :=
  let (emission, tree, result) :=
    state.emission.emit state.tree synthesis.artifact
  let after := { state with emission := emission, tree := tree }
  match result with
  | .ok outcome => after.finish synthesis outcome
  | .error fault => after.fail declaration fault

end RunState

def notEligible (declaration : Declaration) : Diagnostic where
  severity := .debug
  kind := "not_eligible"
  message :=
    "`" ++ declaration.id.display ++
      "` has no sensitive fields; no mask generated"
  location := declaration.location

def maskedPath (type : QualifiedName) (path : FieldPath) : Diagnostic where
  severity := .debug
  kind := "masked_path"
  message := "found sensitive field " ++ type.display ++ "." ++ path.display

/-- How a run ends. -/
inductive Ending where
  | finished
  /-- A position that code cannot name was met. -/
  | brokenOff (position : Nat)
deriving DecidableEq, Repr

namespace Schema

/-- Processes one model. -/
def processModel (schema : Schema) (config : Config)
    (declaration : Declaration) (state : RunState) : RunState × Ending :=
  let resolution := schema.resolve declaration.id
  let told :=
    state.tell (resolution.issues.map fun issue => issue.1.toDiagnostic issue.2)
  let marked :=
    if resolution.isComplete then told else told.markIncomplete declaration.id
  if resolution.paths.isEmpty then
    (marked.tell [notEligible declaration], .finished)
  else
    let ready :=
      marked.tell (resolution.paths.toList.map (maskedPath declaration.id))
    match schema.synthesize config declaration resolution.paths with
    | .ok synthesis => (ready.emit declaration synthesis, .finished)
    | .error (.fault fault) => (ready.fail declaration fault, .finished)
    | .error (.positionOverflow index) => (ready, .brokenOff index)

/-- Processes the models among the given declarations. -/
def processModels (schema : Schema) (config : Config) :
    List Declaration → RunState → RunState × Ending
  | [], state => (state, .finished)
  | declaration :: rest, state =>
      if schema.isModel declaration.id then
        match schema.processModel config declaration state with
        | (after, .finished) => schema.processModels config rest after
        | (after, .brokenOff index) => (after, .brokenOff index)
      else schema.processModels config rest state

/-- The end of a run whose marker is out of scope. -/
def haltRun (schema : Schema) (state : RunState) : RunState :=
  { state.tell [(Fault.missingMarker schema.marker).toDiagnostic none] with
    report := { state.report with halted := true, deferred := schema.names } }

def summarize (state : RunState) : RunState :=
  state.tell [
    { severity := .info, kind := "summary"
      message := state.report.summary }]

/-- One run over all declarations. -/
def run (schema : Schema) (config : Config) (emission : Emission)
    (tree : OutputTree) : RunState × Ending :=
  let start : RunState := { emission := emission, tree := tree }
  if schema.markerResolved then
    match schema.processModels config schema.declarations start with
    | (after, .finished) => (summarize after, .finished)
    | (after, .brokenOff index) => (after, .brokenOff index)
  else (schema.haltRun start, .finished)

end Schema

end RecordMasking

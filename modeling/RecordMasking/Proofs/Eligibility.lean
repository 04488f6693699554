import RecordMasking.Proofs.Closure
import RecordMasking.Proofs.Run

/-!
# What a run says about the closure of a model

A model is passed over as not eligible when nothing in its closure is
sensitive, and counts as incomplete when something in its closure is unknown.
A run says so of each model in turn, and of nothing else.
-/

namespace RecordMasking

def passedOver : String := "not_eligible"

@[simp] theorem Fault.toDiagnostic_kind (fault : Fault)
    (location : Option Location) :
    (fault.toDiagnostic location).kind = fault.kind := rfl

theorem Fault.kind_ne_passedOver (fault : Fault) :
    fault.kind ≠ passedOver := by
  cases fault <;> simp [Fault.kind, passedOver]

namespace DiagnosticLog

theorem ofKind_eq_nil {log : DiagnosticLog} {kind : String}
    (hother : ∀ entry ∈ log, entry.kind ≠ kind) : log.ofKind kind = [] := by
  refine List.filter_eq_nil_iff.mpr fun entry hentry => ?_
  simpa using hother entry hentry

theorem ofKind_singleton {entry : Diagnostic} {kind : String}
    (hkind : entry.kind = kind) : ofKind [entry] kind = [entry] := by
  simp [ofKind, hkind]

end DiagnosticLog

namespace RunState

variable (state : RunState)

theorem announce_passedOver (declaration : Declaration)
    (resolution : Resolution) :
    (state.announce declaration resolution).log.ofKind passedOver =
      state.log.ofKind passedOver := by
  rw [announce_log, DiagnosticLog.ofKind_append]
  have hissues : DiagnosticLog.ofKind
      (resolution.issues.map fun issue => issue.1.toDiagnostic issue.2)
      passedOver = [] := by
    apply DiagnosticLog.ofKind_eq_nil
    intro entry hentry
    obtain ⟨issue, _, rfl⟩ := List.mem_map.mp hentry
    exact issue.1.kind_ne_passedOver
  rw [hissues, List.append_nil]

theorem fail_passedOver (declaration : Declaration) (fault : Fault) :
    (state.fail declaration fault).log.ofKind passedOver =
      state.log.ofKind passedOver := by
  rw [fail_log, DiagnosticLog.ofKind_append]
  have hentry : DiagnosticLog.ofKind
      [fault.toDiagnostic declaration.location] passedOver = [] := by
    apply DiagnosticLog.ofKind_eq_nil
    simpa using fault.kind_ne_passedOver
  rw [hentry, List.append_nil]

theorem finish_passedOver (synthesis : Synthesis) (outcome : Outcome) :
    (state.finish synthesis outcome).log.ofKind passedOver =
      state.log.ofKind passedOver := by
  cases outcome with
  | written => simp [finish, DiagnosticLog.ofKind, passedOver]
  | skipped =>
      have hkind := (Fault.duplicateArtifact
        synthesis.artifact.key).kind_ne_passedOver
      simpa [finish, DiagnosticLog.ofKind] using hkind

theorem emit_passedOver (declaration : Declaration) (synthesis : Synthesis) :
    (state.emit declaration synthesis).log.ofKind passedOver =
      state.log.ofKind passedOver := by
  obtain ⟨emission, tree, ⟨outcome, _, hemit⟩ | ⟨fault, _, hemit⟩⟩ :=
    state.emit_cases declaration synthesis
  · rw [hemit, finish_passedOver]
  · rw [hemit, fail_passedOver]

theorem emit_incomplete (declaration : Declaration) (synthesis : Synthesis) :
    (state.emit declaration synthesis).report.incomplete =
      state.report.incomplete := by
  obtain ⟨emission, tree, ⟨outcome, _, hemit⟩ | ⟨fault, _, hemit⟩⟩ :=
    state.emit_cases declaration synthesis
  · rw [hemit, finish_incomplete]
  · rw [hemit, fail_incomplete]

end RunState

namespace Schema

variable {schema : Schema} {config : Config}

theorem readied_passedOver (declaration : Declaration) (state : RunState) :
    (schema.readied declaration state).log.ofKind passedOver =
      state.log.ofKind passedOver := by
  unfold readied
  rw [RunState.tell_log, DiagnosticLog.ofKind_append,
    RunState.announce_passedOver]
  have hpaths : DiagnosticLog.ofKind
      ((schema.resolve declaration.id).paths.toList.map
        (maskedPath declaration.id)) passedOver = [] := by
    apply DiagnosticLog.ofKind_eq_nil
    intro entry hentry
    obtain ⟨path, _, rfl⟩ := List.mem_map.mp hentry
    simp [maskedPath, passedOver]
  rw [hpaths, List.append_nil]

theorem Processed.passedOver {declaration : Declaration}
    {state : RunState} {result : RunState × Ending}
    (hprocessed : schema.Processed config declaration state result) :
    result.1.log.ofKind passedOver =
      state.log.ofKind passedOver ++
        if (schema.resolve declaration.id).paths.isEmpty then
          [RecordMasking.notEligible declaration]
        else [] := by
  cases hprocessed with
  | notEligible hempty =>
      have hown : DiagnosticLog.ofKind [RecordMasking.notEligible declaration]
          RecordMasking.passedOver = [RecordMasking.notEligible declaration] :=
        DiagnosticLog.ofKind_singleton rfl
      rw [RunState.tell_log, DiagnosticLog.ofKind_append,
        RunState.announce_passedOver, hown, if_pos hempty]
  | emitted hpaths _ =>
      rw [RunState.emit_passedOver, readied_passedOver]
      simp [hpaths]
  | failed hpaths _ =>
      rw [RunState.fail_passedOver, readied_passedOver]
      simp [hpaths]
  | brokenOff hpaths _ =>
      rw [readied_passedOver]
      simp [hpaths]

theorem Processed.incomplete {declaration : Declaration}
    {state : RunState} {result : RunState × Ending}
    (hprocessed : schema.Processed config declaration state result) :
    result.1.report.incomplete =
      state.report.incomplete ++
        if !(schema.resolve declaration.id).isComplete then [declaration.id]
        else [] := by
  rw [← RunState.announce_incomplete]
  cases hprocessed with
  | notEligible _ => rfl
  | emitted _ _ => exact RunState.emit_incomplete _ _ _
  | failed _ _ => rfl
  | brokenOff _ _ => rfl

theorem summarize_passedOver (state : RunState) :
    (summarize state).log.ofKind passedOver = state.log.ofKind passedOver := by
  simp [summarize, DiagnosticLog.ofKind, passedOver]

theorem run_passedOver {emission : Emission} {tree : OutputTree}
    {state : RunState}
    (hrun : schema.run config emission tree = (state, .finished))
    (hhalted : state.report.halted = false) :
    state.log.ofKind passedOver =
      (schema.models.filter fun declaration =>
        (schema.resolve declaration.id).paths.isEmpty).map notEligible := by
  obtain ⟨after, hthrough, rfl⟩ := run_through hrun hhalted
  rw [summarize_passedOver]
  rw [hthrough.append (fun state => state.log.ofKind passedOver) _
    fun _ _ _ hprocessed => hprocessed.passedOver]
  rw [flatMap_ite_singleton]
  rfl

theorem run_incomplete {emission : Emission} {tree : OutputTree}
    {state : RunState}
    (hrun : schema.run config emission tree = (state, .finished))
    (hhalted : state.report.halted = false) :
    state.report.incomplete =
      (schema.models.filter fun declaration =>
        !(schema.resolve declaration.id).isComplete).map Declaration.id := by
  obtain ⟨after, hthrough, rfl⟩ := run_through hrun hhalted
  have hshares := hthrough.append (fun state => state.report.incomplete) _
    fun _ _ _ hprocessed => hprocessed.incomplete
  rw [flatMap_ite_singleton] at hshares
  exact hshares

open Classical in
/-- The cycle guard loses nothing.  A resolution has a path, an unknown type
or a cut exactly when the closure of its root has a sensitive field, a field
of unknown type or a cycle.  So a run passes over the models whose closure
has no sensitive field, and lists as incomplete those with an unknown type in
their closure. -/
theorem resolution_observes_closure (schema : Schema) :
    (∀ root,
      ((schema.resolve root).paths.isEmpty = false ↔
        schema.ClosureHas root fun field => field.sensitive = true) ∧
      ((schema.resolve root).isComplete = false ↔
        schema.ClosureHas root fun field =>
          ∃ text, schema.UnknownType field text) ∧
      ((schema.resolve root).cycles ≠ [] ↔
        ∃ type, Relation.TransGen (schema.NestsWithin root) type type)) ∧
    ∀ (config : Config) (emission : Emission) (tree : OutputTree)
      (state : RunState),
      schema.run config emission tree = (state, .finished) →
      state.report.halted = false →
      state.log.ofKind passedOver =
          (schema.models.filter fun declaration =>
            ¬ schema.ClosureHas declaration.id fun field =>
              field.sensitive = true).map notEligible ∧
        state.report.incomplete =
          (schema.models.filter fun declaration =>
            schema.ClosureHas declaration.id fun field =>
              ∃ text, schema.UnknownType field text).map
            Declaration.id := by
  refine ⟨fun root => ⟨paths_isEmpty_eq_false_iff root,
    isComplete_eq_false_iff root, cycles_ne_nil_iff root⟩, ?_⟩
  intro config emission tree state hrun hhalted
  rw [run_passedOver hrun hhalted, run_incomplete hrun hhalted]
  constructor
  · congr 2
    funext declaration
    simp [← paths_isEmpty_eq_false_iff]
  · congr 2
    funext declaration
    simp [← isComplete_eq_false_iff]

open Classical Samples in
theorem draftsRun_observes_closure :
    draftsRun.2 = .finished ∧ draftsRun.1.report.halted = false ∧
      [⟨.debug, passedOver,
          "`models::Draft` has no sensitive fields; no mask generated", none⟩] =
        (drafts.models.filter fun declaration =>
          ¬ drafts.ClosureHas declaration.id fun field =>
            field.sensitive = true).map notEligible ∧
      [named "Draft"] =
        (drafts.models.filter fun declaration =>
          drafts.ClosureHas declaration.id fun field =>
            ∃ text, drafts.UnknownType field text).map Declaration.id := by
  have hfinished : draftsRun.2 = .finished := by decide +kernel
  have hhalted : draftsRun.1.report.halted = false := by decide +kernel
  have hlog : draftsRun.1.log.ofKind passedOver =
      [⟨.debug, passedOver,
        "`models::Draft` has no sensitive fields; no mask generated",
        none⟩] := by
    decide +kernel
  have hincomplete : draftsRun.1.report.incomplete = [named "Draft"] := by
    decide +kernel
  have hrun : drafts.run {} { root := ["out"] } .empty =
      (draftsRun.1, .finished) := Prod.ext rfl hfinished
  have hreport := (resolution_observes_closure drafts).2 _ _ _ _ hrun hhalted
  exact ⟨hfinished, hhalted, hlog.symm.trans hreport.1,
    hincomplete.symm.trans hreport.2⟩

end Schema

end RecordMasking

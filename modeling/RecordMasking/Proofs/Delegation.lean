import RecordMasking.Proofs.Coverage
import RecordMasking.Proofs.Eligibility
import RecordMasking.Proofs.Severity

/-!
# Models that values are handed over to

A table hands values over to a model because of paths that were found from
another root.  The model has masked paths of its own all the same, since
blocking types on the way only takes paths away; so a finished run has
emitted its mask or has reported why not, wherever the model was declared.
-/

namespace RecordMasking

namespace Schema

variable {schema : Schema} {config : Config}

/-! ## Masked paths of the model -/

theorem closureHas_of_mem_paths {onPath : List QualifiedName}
    {type : QualifiedName} {path : FieldPath}
    (hpath : path ∈ (schema.resolveOnPath type onPath).paths.toList) :
    schema.ClosureHas type fun field => field.sensitive = true := by
  obtain ⟨steps, stop, field, seen, hwalk, _, hfield, hsights, heq⟩ :=
    mem_sightings_iff.mp (mem_paths_iff.mp hpath)
  cases hsights with
  | masked hsensitive => exact ⟨stop, field, hwalk.inClosure, hfield, hsensitive⟩
  | unknown _ _ => simp at heq
  | cut _ _ => simp at heq

/-- Wherever a table hands a value over, it is to a model with masked paths
from its own root. -/
theorem Resolved.handed_over (hdistinct : schema.DistinctNames)
    {root type : QualifiedName} {onPath : List QualifiedName}
    {entries : List (FieldName × Decision)}
    (hresolved : schema.Resolved root type onPath entries)
    {place : FieldPath} {model : QualifiedName}
    (hat : EntryAt entries place (.delegate model)) :
    schema.delegates model = true ∧
      (schema.resolve model).paths.isEmpty = false := by
  obtain ⟨_, owner, way, field, hfield, _, hdecides, _⟩ :=
    hresolved.locate hdistinct hat
  cases hdecides with
  | delegate _ htype hbelow hdelegates =>
      obtain ⟨next, hnext, hoff, hdeclared⟩ :=
        exists_descent_of_below hdistinct hfield hbelow
      obtain rfl : model = next := by simpa [htype] using hnext
      obtain ⟨path, hpath⟩ := PathSet.isEmpty_eq_false_iff.mp hbelow
      rw [below_paths hdistinct hfield htype hoff hdeclared] at hpath
      exact ⟨hdelegates, (paths_isEmpty_eq_false_iff model).mpr
        (closureHas_of_mem_paths hpath)⟩

theorem exists_model_of_delegates {id : QualifiedName}
    (hdelegates : schema.delegates id = true) :
    ∃ declaration ∈ schema.models, declaration.id = id ∧
      schema.lookup id = some declaration ∧ declaration.generics = [] := by
  unfold delegates at hdelegates
  rw [Bool.and_eq_true] at hdelegates
  obtain ⟨hmodel, hplain⟩ := hdelegates
  cases hlookup : schema.lookup id with
  | none => simp [hlookup] at hplain
  | some declaration =>
      obtain ⟨hlisted, hid⟩ := schema.lookup_sound hlookup
      have hmem : declaration ∈ schema.models :=
        List.mem_filter.mpr ⟨hlisted, by rw [hid]; exact hmodel⟩
      exact ⟨declaration, hmem, hid, rfl, by simpa [hlookup] using hplain⟩

end Schema

/-! ## What a run keeps -/

/-- Nothing that was told or reported is taken back. -/
structure RunState.Extends (before after : RunState) : Prop where
  log : before.log <+: after.log
  emitted : before.report.emitted <+: after.report.emitted
  failed : before.report.failed <+: after.report.failed
  halted : after.report.halted = before.report.halted

namespace RunState

theorem Extends.refl (state : RunState) : state.Extends state :=
  ⟨List.prefix_refl _, List.prefix_refl _, List.prefix_refl _, rfl⟩

theorem Extends.trans {first second third : RunState}
    (hleft : first.Extends second) (hright : second.Extends third) :
    first.Extends third where
  log := hleft.log.trans hright.log
  emitted := hleft.emitted.trans hright.emitted
  failed := hleft.failed.trans hright.failed
  halted := hright.halted.trans hleft.halted

theorem extends_tell (state : RunState) (diagnostics : List Diagnostic) :
    state.Extends (state.tell diagnostics) :=
  ⟨List.prefix_append _ _, List.prefix_refl _, List.prefix_refl _, rfl⟩

theorem extends_fail (state : RunState) (declaration : Declaration)
    (fault : Fault) : state.Extends (state.fail declaration fault) :=
  ⟨List.prefix_append _ _, List.prefix_refl _, List.prefix_append _ _, rfl⟩

theorem extends_finish (state : RunState) (synthesis : Synthesis)
    (outcome : Outcome) : state.Extends (state.finish synthesis outcome) :=
  ⟨List.prefix_append _ _, List.prefix_append _ _, List.prefix_refl _, rfl⟩

theorem extends_announce (state : RunState) (declaration : Declaration)
    (resolution : Resolution) :
    state.Extends (state.announce declaration resolution) := by
  unfold announce
  split
  · exact state.extends_tell _
  · exact (state.extends_tell _).trans
      ⟨List.prefix_refl _, List.prefix_refl _, List.prefix_refl _, rfl⟩

theorem extends_emit (state : RunState) (declaration : Declaration)
    (synthesis : Synthesis) :
    state.Extends (state.emit declaration synthesis) := by
  obtain ⟨emission, tree, ⟨outcome, _, hemit⟩ | ⟨fault, _, hemit⟩⟩ :=
    state.emit_cases declaration synthesis
  · rw [hemit]
    have hfinish := extends_finish { state with emission, tree } synthesis
      outcome
    exact ⟨hfinish.log, hfinish.emitted, hfinish.failed, hfinish.halted⟩
  · rw [hemit]
    have hfail := extends_fail { state with emission, tree } declaration fault
    exact ⟨hfail.log, hfail.emitted, hfail.failed, hfail.halted⟩

end RunState

namespace Schema

variable {schema : Schema} {config : Config}

theorem extends_readied (declaration : Declaration) (state : RunState) :
    state.Extends (schema.readied declaration state) :=
  (state.extends_announce declaration _).trans (RunState.extends_tell _ _)

theorem Processed.extends {declaration : Declaration} {state : RunState}
    {result : RunState × Ending}
    (hprocessed : schema.Processed config declaration state result) :
    state.Extends result.1 := by
  cases hprocessed with
  | notEligible _ =>
      exact (state.extends_announce declaration _).trans
        (RunState.extends_tell _ _)
  | emitted _ _ =>
      exact (extends_readied declaration state).trans
        (RunState.extends_emit _ _ _)
  | failed _ _ =>
      exact (extends_readied declaration state).trans
        (RunState.extends_fail _ _ _)
  | brokenOff _ _ => exact extends_readied declaration state

/-- What a state says of a model with masked paths when it has been dealt
with: its key is emitted, or it has failed for a reason that the log holds as
an error. -/
inductive Settled (schema : Schema) (config : Config)
    (declaration : Declaration) (state : RunState) : Prop
  | emitted {outcome : Outcome}
      (hemitted : (declaration.id.maskKey, outcome) ∈ state.report.emitted) :
      Settled schema config declaration state
  | failed {fault : Fault} (hfailed : declaration.id ∈ state.report.failed)
      (hlogged : fault.toDiagnostic declaration.location ∈ state.log)
      (herror : fault.severity = .error)
      (hcause : schema.synthesize config declaration
            (schema.resolve declaration.id).paths = .error (.fault fault) ∨
          ∃ synthesis emission tree,
            schema.synthesize config declaration
              (schema.resolve declaration.id).paths = .ok synthesis ∧
            (Emission.emit emission tree synthesis.artifact).2.2 =
              .error fault) :
      Settled schema config declaration state

theorem Settled.extends {declaration : Declaration} {state after : RunState}
    (hsettled : schema.Settled config declaration state)
    (hextends : state.Extends after) :
    schema.Settled config declaration after := by
  cases hsettled with
  | emitted hemitted => exact .emitted (hextends.emitted.subset hemitted)
  | failed hfailed hlogged herror hcause =>
      exact .failed (hextends.failed.subset hfailed)
        (hextends.log.subset hlogged) herror hcause

theorem Processed.settled {declaration : Declaration}
    {state after : RunState}
    (hprocessed : schema.Processed config declaration state
      (after, .finished))
    (hpaths : (schema.resolve declaration.id).paths.isEmpty = false) :
    schema.Settled config declaration after := by
  cases hprocessed with
  | notEligible hempty => simp [hpaths] at hempty
  | @emitted synthesis _ hsynthesis =>
      obtain ⟨emission, tree, ⟨outcome, _, hemit⟩ | ⟨fault, hfault, hemit⟩⟩ :=
        (schema.readied declaration state).emit_cases declaration synthesis
      · rw [hemit]
        refine .emitted (show (declaration.id.maskKey, outcome) ∈ _ from ?_)
        rw [← (synthesize_eq_ok hsynthesis).2.2]
        exact List.mem_append_right _ (List.mem_singleton_self _)
      · have hresult := congrArg (fun result => result.2.2) hfault
        have herror := Emission.failsOnly_emit _ _ _ fault hresult
        rw [hemit]
        exact .failed (List.mem_append_right _ (List.mem_singleton_self _))
          (List.mem_append_right _ (List.mem_singleton_self _)) herror
          (.inr ⟨synthesis, _, _, hsynthesis, hresult⟩)
  | @failed fault _ hfault =>
      have herror := failsOnly_synthesize config declaration _ _ hfault fault
        rfl
      exact .failed (List.mem_append_right _ (List.mem_singleton_self _))
        (List.mem_append_right _ (List.mem_singleton_self _)) herror
        (.inl hfault)

/-- Whatever comes before or after it, a model with masked paths is settled
when the models are through. -/
theorem Through.settled {models : List Declaration} {state after : RunState}
    (hthrough : schema.Through config state models after) :
    state.Extends after ∧
      ∀ declaration ∈ models,
        (schema.resolve declaration.id).paths.isEmpty = false →
        schema.Settled config declaration after := by
  induction hthrough with
  | @done state => exact ⟨.refl state, by simp⟩
  | @next state middle after first rest hprocess _ ih =>
      obtain ⟨hextends, hothers⟩ := ih
      have hprocessed := processed_of_eq hprocess
      refine ⟨hprocessed.extends.trans hextends, ?_⟩
      rw [List.forall_mem_cons]
      exact ⟨fun hpaths => (hprocessed.settled hpaths).extends hextends,
        hothers⟩

theorem run_settled {emission : Emission} {tree : OutputTree}
    {state : RunState}
    (hrun : schema.run config emission tree = (state, .finished))
    (hhalted : state.report.halted = false) {declaration : Declaration}
    (hmodel : declaration ∈ schema.models)
    (hpaths : (schema.resolve declaration.id).paths.isEmpty = false) :
    schema.Settled config declaration state := by
  obtain ⟨after, hthrough, rfl⟩ := run_through hrun hhalted
  have hsettled := hthrough.settled.2 declaration hmodel hpaths
  exact hsettled.extends (RunState.extends_tell _ _)

theorem not_halted_of_resolved (hresolved : schema.markerResolved = true)
    {emission : Emission} {tree : OutputTree} {state : RunState}
    (hrun : schema.run config emission tree = (state, .finished)) :
    state.report.halted = false := by
  simp only [run, hresolved, if_true] at hrun
  split at hrun
  next after hafter =>
    obtain ⟨rfl, _⟩ := Prod.mk.inj hrun
    exact (through_of_processModels hafter).settled.1.halted
  next => simp at hrun

end Schema

end RecordMasking

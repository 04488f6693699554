import RecordMasking.Proofs.MaskTable
import RecordMasking.Generator

/-!
# How severe a failure is

Whatever keeps a mask from being decided, rendered or emitted is an error.
The milder faults are notes that a run makes beside its work, and the one
failure that is no fault is due to the position of a field.  The statements
go function by function, along the steps that may fail.
-/

namespace RecordMasking

/-- All failures of a step are of a kind. -/
def FailsOnly {ε α : Type} (kind : ε → Prop) (step : Except ε α) : Prop :=
  ∀ failure, step = .error failure → kind failure

namespace FailsOnly

variable {ε α β : Type} {kind : ε → Prop}

theorem ok (value : α) : FailsOnly kind (.ok value) := by
  intro failure hfailure
  cases hfailure

theorem error {failure : ε} (hkind : kind failure) :
    FailsOnly kind (.error failure : Except ε α) := by
  intro other hother
  obtain rfl := Except.error.inj hother
  exact hkind

theorem bind {step : Except ε α} {next : α → Except ε β}
    (hstep : FailsOnly kind step)
    (hnext : ∀ value, step = .ok value → FailsOnly kind (next value)) :
    FailsOnly kind (step >>= next) := by
  cases hresult : step with
  | ok value => exact hnext value hresult
  | error failure => exact error (hstep failure hresult)

theorem mapM {step : α → Except ε β} {items : List α}
    (hstep : ∀ item ∈ items, FailsOnly kind (step item)) :
    FailsOnly kind (items.mapM step) := by
  induction items with
  | nil => exact ok []
  | cons item rest ih =>
      rw [List.mapM_cons]
      apply bind (hstep item List.mem_cons_self)
      intro result _
      apply bind (ih fun other hother =>
        hstep other (List.mem_cons_of_mem item hother))
      intro results _
      exact ok (result :: results)

end FailsOnly

def Fault.IsError (fault : Fault) : Prop := fault.severity = .error

/-- A failure is an error when it is a fault at all. -/
def SynthesisFailure.IsError (failure : SynthesisFailure) : Prop :=
  ∀ fault, failure = .fault fault → fault.IsError

/-- A failure is an error, or it is due to the position of one of the given
fields. -/
def SynthesisFailure.IsDueTo (fields : FieldName → Prop) :
    SynthesisFailure → Prop
  | .fault cause => cause.IsError
  | .positionOverflow index => memberBound ≤ index ∧ fields (.position index)

theorem failsOnly_pathTokens (type : QualifiedName) (text : String) :
    FailsOnly Fault.IsError (pathTokens type text) := by
  unfold pathTokens
  split
  · exact .ok _
  · exact .error rfl

theorem failsOnly_constructorOf (config : Config) (type : QualifiedName) :
    FailsOnly Fault.IsError (constructorOf config type) := by
  unfold constructorOf typePath
  apply FailsOnly.bind (failsOnly_pathTokens _ _)
  intro path _
  exact .ok _

theorem failsOnly_bindingOf (owner : QualifiedName) (name : FieldName) :
    FailsOnly Fault.IsError (bindingOf owner name) := by
  cases name with
  | named text =>
      simp only [bindingOf]
      split
      · exact .ok _
      · exact .error rfl
  | position index => exact .ok _

theorem position_of_bindingOf {owner : QualifiedName} {name : FieldName}
    {bound : FieldName × String} (hbound : bindingOf owner name = .ok bound)
    {index : Nat} (hposition : bound.1 = .position index) :
    name = .position index := by
  cases name with
  | named text =>
      simp only [bindingOf] at hbound
      split at hbound
      next =>
        obtain rfl := Except.ok.inj hbound
        cases hposition
      next => cases hbound
  | position other =>
      obtain rfl := Except.ok.inj hbound
      exact hposition

theorem failsOnly_lifetimeNames (declaration : Declaration) :
    FailsOnly Fault.IsError (lifetimeNames declaration) := by
  unfold lifetimeNames
  apply FailsOnly.mapM
  intro text _
  split
  · exact .ok _
  · exact .error rfl

namespace Schema

variable {schema : Schema}

theorem failsOnly_declarationOf (id : QualifiedName) :
    FailsOnly Fault.IsError (schema.declarationOf id) := by
  unfold declarationOf
  split
  · exact .ok _
  · exact .error rfl

theorem failsOnly_checkVisible (root nested : QualifiedName) :
    FailsOnly Fault.IsError (schema.checkVisible root nested) := by
  unfold checkVisible
  apply FailsOnly.bind (failsOnly_declarationOf nested)
  intro declaration _
  split
  · exact .error rfl
  · exact .ok ()

theorem failsOnly_decideFrom (root type : QualifiedName) (paths : PathSet) :
    FailsOnly Fault.IsError (schema.decideFrom root type paths) := by
  induction hweight : paths.weight using Nat.strongRecOn
      generalizing type paths with
  | _ weight ih =>
      rw [decideFrom_eq]
      apply FailsOnly.bind (failsOnly_declarationOf type)
      intro declaration _
      have hfield : ∀ field ∈ declaration.fields,
          FailsOnly Fault.IsError (schema.decideField root paths field) := by
        intro field _
        unfold decideField
        split
        · exact .ok _
        · split
          next nested _ =>
            split
            next hbelow =>
              split
              · exact .ok _
              · apply FailsOnly.bind (failsOnly_checkVisible root nested)
                intro _ _
                have hlt := PathSet.weight_below_lt hbelow
                apply FailsOnly.bind
                  (ih _ (hweight ▸ hlt) nested (paths.below field.name) rfl)
                intro table _
                exact .ok _
            next => exact .ok _
          next => exact .ok _
      apply FailsOnly.bind (.mapM hfield)
      intro entries _
      exact .ok _

section OfFields

variable {fields : FieldName → Prop}

theorem failsOnly_checkMember {member : FieldName}
    (hmember : ∀ index, member = .position index → fields member) :
    FailsOnly (SynthesisFailure.IsDueTo fields) (checkMember member) := by
  cases member with
  | named text => exact .ok ()
  | position index =>
      simp only [checkMember]
      split
      next => exact .ok ()
      next hbound =>
        have hdue : SynthesisFailure.IsDueTo fields
            (.positionOverflow index) := ⟨by omega, hmember index rfl⟩
        exact .error hdue

theorem failsOnly_bind_liftFault {α β : Type} {step : Except Fault α}
    {next : α → Except SynthesisFailure β}
    (hstep : FailsOnly Fault.IsError step)
    (hnext : ∀ value, step = .ok value →
      FailsOnly (SynthesisFailure.IsDueTo fields) (next value)) :
    FailsOnly (SynthesisFailure.IsDueTo fields) (liftFault step >>= next) := by
  cases hresult : step with
  | ok value => exact hnext value hresult
  | error fault =>
      have hdue : SynthesisFailure.IsDueTo fields (.fault fault) :=
        hstep fault hresult
      exact .error hdue

/-- The fields of all declarations are among the given ones. -/
def Covered (schema : Schema) (fields : FieldName → Prop) : Prop :=
  ∀ declaration ∈ schema.declarations, ∀ field ∈ declaration.fields,
    fields field.name

mutual

theorem failsOnly_valueCode (hcovered : schema.Covered fields)
    (config : Config) (binding : String) :
    ∀ decision : Decision, FailsOnly (SynthesisFailure.IsDueTo fields)
      (schema.valueCode config binding decision)
  | .clear => by rw [valueCode]; exact .ok _
  | .delegate _ => by rw [valueCode]; exact .ok _
  | .keep => by rw [valueCode]; exact .ok _
  | .rebuild type entries => by
      rw [valueCode]
      apply failsOnly_bind_liftFault (failsOnly_declarationOf type)
      intro declaration hdeclaration
      apply failsOnly_bind_liftFault (failsOnly_constructorOf config type)
      intro constructor _
      have hfound := schema.lookup_sound
        (declarationOf_eq_ok_iff.mp hdeclaration)
      apply FailsOnly.bind (failsOnly_memberCodes hcovered config
        declaration.id (hcovered declaration hfound.1) entries)
      intro members _
      exact .ok _

theorem failsOnly_memberCodes (hcovered : schema.Covered fields)
    (config : Config) (owner : QualifiedName) {own : List Field}
    (hown : ∀ field ∈ own, fields field.name) :
    ∀ entries : List (FieldName × Decision),
      FailsOnly (SynthesisFailure.IsDueTo fields)
        (schema.memberCodes config owner own entries)
  | [] => by rw [memberCodes]; exact .ok _
  | (_, decision) :: entries => by
      cases own with
      | nil => rw [memberCodes]; exact .ok _
      | cons field rest =>
          rw [List.forall_mem_cons] at hown
          rw [memberCodes]
          apply failsOnly_bind_liftFault (failsOnly_bindingOf owner field.name)
          intro bound hbound
          apply FailsOnly.bind
            (failsOnly_valueCode hcovered config bound.2 decision)
          intro value _
          have hmember : ∀ index, bound.1 = .position index →
              fields bound.1 := fun index hposition => by
            rw [hposition, ← position_of_bindingOf hbound hposition]
            exact hown.1
          apply FailsOnly.bind (failsOnly_checkMember hmember)
          intro _ _
          apply FailsOnly.bind
            (failsOnly_memberCodes hcovered config owner hown.2 entries)
          intro others _
          exact .ok _

end

theorem failsOnly_renderMask (hcovered : schema.Covered fields)
    (config : Config) {declaration : Declaration}
    (hown : ∀ field ∈ declaration.fields, fields field.name)
    (table : MaskTable) (paths : PathSet) :
    FailsOnly (SynthesisFailure.IsDueTo fields)
      (schema.renderMask config declaration table paths) := by
  unfold renderMask maskBody typePath
  apply failsOnly_bind_liftFault (failsOnly_pathTokens _ _)
  intro runtime _
  apply failsOnly_bind_liftFault (failsOnly_pathTokens _ _)
  intro path _
  apply failsOnly_bind_liftFault (failsOnly_lifetimeNames _)
  intro lifetimes _
  refine FailsOnly.bind ?_ fun body _ => .ok _
  apply FailsOnly.bind (failsOnly_memberCodes hcovered config _ hown _)
  intro members _
  exact .ok _

theorem synthesize_isDueTo (hcovered : schema.Covered fields)
    (config : Config) {declaration : Declaration}
    (hown : ∀ field ∈ declaration.fields, fields field.name)
    (paths : PathSet) :
    FailsOnly (SynthesisFailure.IsDueTo fields)
      (schema.synthesize config declaration paths) := by
  unfold synthesize
  have hrest : FailsOnly (SynthesisFailure.IsDueTo fields) (do
      let table ← liftFault (schema.decide declaration.id paths)
      let text ← schema.renderMask config declaration table paths
      return (⟨table, ⟨declaration.id.maskKey, declaration.id, text⟩⟩ :
        Synthesis)) := by
    apply failsOnly_bind_liftFault (failsOnly_decideFrom _ _ _)
    intro table _
    apply FailsOnly.bind (failsOnly_renderMask hcovered config hown table paths)
    intro text _
    exact .ok _
  split
  · apply FailsOnly.bind _ fun _ _ => hrest
    have hdue : SynthesisFailure.IsDueTo fields
        (.fault (.unsupportedType declaration.id .genericType)) := rfl
    exact .error hdue
  · exact hrest

end OfFields

theorem failsOnly_synthesize (config : Config) (declaration : Declaration)
    (paths : PathSet) :
    FailsOnly SynthesisFailure.IsError
      (schema.synthesize config declaration paths) := by
  rintro failure hfailure fault rfl
  have hdue : SynthesisFailure.IsDueTo (fun _ => True) (.fault fault) :=
    synthesize_isDueTo (fun _ _ _ _ => trivial) config (fun _ _ => trivial)
      paths _ hfailure
  exact hdue

end Schema

/-! ## Emission -/

theorem OutputTree.isError_fault (path : OutputPath) (obstacle : Obstacle) :
    (OutputTree.fault path obstacle).IsError := rfl

theorem OutputTree.failsOnly_stageFor (tree : OutputTree) (path : OutputPath)
    (text : String) :
    FailsOnly Fault.IsError (tree.stageFor path text).2 := by
  unfold stageFor
  split
  · exact .error (isError_fault _ _)
  · exact .ok _

theorem OutputTree.failsOnly_writeNew (tree : OutputTree) (path : OutputPath)
    (text : String) :
    FailsOnly Fault.IsError (tree.writeNew path text).2 := by
  have hstage := tree.failsOnly_stageFor path text
  unfold writeNew
  split
  next made fault hstaged =>
    rw [hstaged] at hstage
    exact .error (hstage fault rfl)
  next =>
    split
    · exact .ok _
    · exact .ok _
    · exact .error (isError_fault _ _)

theorem Emission.failsOnly_emit (emission : Emission) (tree : OutputTree)
    (artifact : Artifact) :
    FailsOnly Fault.IsError (emission.emit tree artifact).2.2 := by
  have hwrite := tree.failsOnly_writeNew
    (emission.targetPath artifact.key) artifact.text
  unfold emit
  by_cases hthere :
      tree.leadsSomewhere (emission.targetPath artifact.key) = true
  · simp only [hthere, if_true]
    exact .ok _
  · simp only [hthere, Bool.false_eq_true, if_false]
    split
    next => exact .ok _
    next fault hfault =>
      exact .error (hwrite fault hfault)

end RecordMasking

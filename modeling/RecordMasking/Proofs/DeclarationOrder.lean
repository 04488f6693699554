import RecordMasking.Proofs.Agreement
import RecordMasking.Proofs.Independence
import RecordMasking.Proofs.Registry

/-!
# Declarations in another order

Models do not get in each other's way.  What a finished run tells, reports and
leaves in the tree is what each of its models would tell, report and leave if
it were the only one, put together in the order of the models.  So declaring
the same records in another order changes nothing but that order.
-/

namespace RecordMasking

open OutputTree

/-! ## One model in different states -/

namespace Schema

variable {schema : Schema} {config : Config} {declaration : Declaration}

/-- The state after a run that has processed nothing but one model. -/
def alone (schema : Schema) (config : Config) (emission : Emission)
    (tree : OutputTree) (declaration : Declaration) : RunState :=
  (schema.processModel config declaration { emission, tree }).1

theorem processModel_ending (state other : RunState) :
    (schema.processModel config declaration state).2 =
      (schema.processModel config declaration other).2 := by
  cases hpaths : (schema.resolve declaration.id).paths.isEmpty with
  | true =>
      rw [processModel_of_isEmpty hpaths, processModel_of_isEmpty hpaths]
  | false =>
      rw [processModel_eq_settled hpaths, processModel_eq_settled hpaths]
      rcases schema.synthesize config declaration
          (schema.resolve declaration.id).paths with (fault | index) | synthesis
      · rfl
      · rfl
      · rfl

/-- A model leaves the tree as it is, or an artifact is attempted that depends
on the model only. -/
theorem processModel_tree (schema : Schema) (config : Config)
    (declaration : Declaration) :
    (∀ state, let after := (schema.processModel config declaration state).1
      after.tree = state.tree ∧ after.emission.root = state.emission.root) ∨
    ∃ artifact : Artifact, artifact.key = declaration.id.maskKey ∧
      ∀ state, let after := (schema.processModel config declaration state).1
        after.tree = (state.emission.attempt state.tree artifact).1 ∧
          after.emission.root = state.emission.root := by
  cases hpaths : (schema.resolve declaration.id).paths.isEmpty with
  | true =>
      refine .inl fun state => ?_
      obtain ⟨htree, hemission⟩ := state.announce_tree declaration
        (schema.resolve declaration.id)
      rw [processModel_of_isEmpty hpaths]
      exact ⟨htree, congrArg Emission.root hemission⟩
  | false =>
      have hready := schema.readied_tree declaration
      simp only [processModel_eq_settled hpaths]
      rcases hsynthesis : schema.synthesize config declaration
          (schema.resolve declaration.id).paths with (fault | index) | synthesis
      · exact .inl fun state =>
          ⟨(hready state).1, congrArg Emission.root (hready state).2⟩
      · exact .inl fun state =>
          ⟨(hready state).1, congrArg Emission.root (hready state).2⟩
      · refine .inr ⟨synthesis.artifact,
          (synthesize_eq_ok hsynthesis).2.2, fun state => ?_⟩
        obtain ⟨htree, hemission⟩ := hready state
        obtain ⟨next, hroot, hemit⟩ := RunState.emit_eq_conclude
          (schema.readied declaration state) declaration synthesis
        rw [htree, hemission] at hemit
        rw [hemission] at hroot
        simp only [settled, hemit]
        rw [(RunState.conclude_tree _ _ _ _).1,
          (RunState.conclude_tree _ _ _ _).2]
        exact ⟨rfl, hroot⟩

/-- The verdict depends on emission and tree only by what an attempt to emit
comes to. -/
theorem verdict?_congr {emission other : Emission} {tree later : OutputTree}
    (hattempt : ∀ artifact : Artifact,
      artifact.key = declaration.id.maskKey →
      (other.attempt later artifact).2 = (emission.attempt tree artifact).2) :
    schema.verdict? config other later declaration =
      schema.verdict? config emission tree declaration := by
  unfold verdict?
  dsimp only
  split
  next => rfl
  next =>
    split
    next synthesis hsynthesis =>
      rw [hattempt _ (synthesize_eq_ok hsynthesis).2.2]
    next => rfl
    next => rfl

end Schema

/-! ## Many models -/

/-- A state puts together what each of the models has come to alone, and what
was in the tree before; `closing` is told at the end. -/
structure RunState.Gathers (state : RunState)
    (alone : Declaration → RunState) (tree : OutputTree)
    (models : List Declaration) (closing : List Diagnostic) : Prop where
  entries : ∀ place entry, state.tree.entry? place = some entry ↔
    tree.entry? place = some entry ∨
      ∃ declaration ∈ models,
        entry? (alone declaration).tree place = some entry
  log : state.log =
    (models.flatMap fun declaration => (alone declaration).log) ++ closing
  incomplete : state.report.incomplete =
    models.flatMap fun declaration => (alone declaration).report.incomplete
  failed : state.report.failed =
    models.flatMap fun declaration => (alone declaration).report.failed
  emitted : state.report.emitted =
    models.flatMap fun declaration => (alone declaration).report.emitted
  halted : state.report.halted = false
  deferred : state.report.deferred = []

namespace Schema

variable {schema : Schema} {config : Config} {emission : Emission}
  {tree : OutputTree} {models earlier : List Declaration}

theorem gathers_nil :
    ({ emission, tree } : RunState).Gathers
      (schema.alone config emission tree) tree [] [] := by
  constructor
  all_goals simp

/-- What a model leaves in the tree after others is added to what those have
left there. -/
theorem joins_next (schema : Schema) (config : Config)
    (htree : tree.IsDirectoryTree) {declaration : Declaration}
    {state : RunState} (hroot : state.emission.root = emission.root)
    (hleft : emission.LeftBy (earlier.map Declaration.id) tree state.tree)
    (hnames : declaration.id.IsMadeOfNames)
    (hothers : ∀ other ∈ earlier.map Declaration.id,
      other.IsMadeOfNames ∧ declaration.id ≠ other) :
    let after := (schema.processModel config declaration state).1
    after.emission.root = emission.root ∧
      emission.LeftBy ((earlier ++ [declaration]).map Declaration.id) tree
        after.tree ∧
      Joins state.tree (schema.alone config emission tree declaration).tree
        after.tree := by
  intro after
  rw [List.map_append, List.map_singleton]
  rcases schema.processModel_tree config declaration with
    hsame | ⟨artifact, hkey, hattempts⟩
  · obtain ⟨hafter, hafterRoot⟩ := hsame state
    have halone : (schema.alone config emission tree declaration).tree =
        tree := (hsame { emission, tree }).1
    refine ⟨hafterRoot.trans hroot, ?_, ?_⟩
    · rw [show after.tree = state.tree from hafter]
      exact hleft.mono (List.subset_append_left _ _)
    · rw [show after.tree = state.tree from hafter, halone]
      exact .of_grows hleft.later.grows
  · obtain ⟨hafter, hafterRoot⟩ := hattempts state
    have halone : (schema.alone config emission tree declaration).tree =
        (emission.attempt tree artifact).1 := (hattempts { emission, tree }).1
    rw [Emission.attempt_of_root hroot] at hafter
    refine ⟨hafterRoot.trans hroot, ?_, ?_⟩
    · rw [show after.tree = _ from hafter]
      exact hleft.attempt hnames.isProper hkey
    · rw [show after.tree = _ from hafter, halone]
      exact (Emission.attempt_beside htree hnames hkey hleft hothers).2

/-- A model that is processed after others comes to what it comes to alone. -/
theorem gathers_next (htree : tree.IsDirectoryTree)
    {declaration : Declaration} {state after : RunState}
    (hroot : state.emission.root = emission.root)
    (hleft : emission.LeftBy (earlier.map Declaration.id) tree state.tree)
    (hgathers : state.Gathers (schema.alone config emission tree) tree
      earlier [])
    (hnames : declaration.id.IsMadeOfNames)
    (hothers : ∀ other ∈ earlier.map Declaration.id,
      other.IsMadeOfNames ∧ declaration.id ≠ other)
    (hprocess : schema.processModel config declaration state =
      (after, .finished)) :
    after.Gathers (schema.alone config emission tree) tree
      (earlier ++ [declaration]) [] := by
  obtain ⟨_, _, hjoins⟩ := joins_next schema config htree hroot hleft
    hnames hothers
  rw [hprocess] at hjoins
  have halone : schema.processModel config declaration { emission, tree } =
      (schema.alone config emission tree declaration, .finished) := by
    refine Prod.ext rfl ?_
    rw [processModel_ending _ state, hprocess]
  -- The verdict is that of the model alone, and with it all that is told.
  obtain ⟨verdict, hverdict, hgains⟩ := gains_of_processModel hprocess
  obtain ⟨own, hown, hshare⟩ := gains_of_processModel halone
  have hsame : schema.verdict? config state.emission state.tree declaration =
      schema.verdict? config emission tree declaration := by
    refine verdict?_congr fun artifact hkey => ?_
    rw [Emission.attempt_of_root hroot]
    exact (Emission.attempt_beside htree hnames hkey hleft hothers).1
  obtain rfl : verdict = own := by
    rw [hsame] at hverdict
    exact Option.some.inj (hverdict.symm.trans hown)
  constructor
  · intro place entry
    rw [hjoins place entry, hgathers.entries place entry, or_assoc]
    simp [or_and_right, exists_or]
  · simp [hgains.log, hgathers.log, hshare.log]
  · simp [hgains.incomplete, hgathers.incomplete, hshare.incomplete]
  · simp [hgains.failed, hgathers.failed, hshare.failed]
  · simp [hgains.emitted, hgathers.emitted, hshare.emitted]
  · rw [hgains.halted, hgathers.halted]
  · rw [hgains.deferred, hgathers.deferred]

/-- Models that are processed one after the other come to what they come to
alone. -/
theorem Through.gathers (htree : tree.IsDirectoryTree)
    {state after : RunState}
    (hthrough : schema.Through config state models after)
    (hroot : state.emission.root = emission.root)
    (hleft : emission.LeftBy (earlier.map Declaration.id) tree state.tree)
    (hgathers : state.Gathers (schema.alone config emission tree) tree
      earlier [])
    (hnames : ∀ declaration ∈ earlier ++ models,
      declaration.id.IsMadeOfNames)
    (hdistinct : ((earlier ++ models).map Declaration.id).Nodup) :
    after.Gathers (schema.alone config emission tree) tree
      (earlier ++ models) [] := by
  -- The models that are through move over to the earlier ones.
  induction hthrough generalizing earlier with
  | done =>
      rw [List.append_nil]
      exact hgathers
  | @next state middle after declaration rest hprocess _ ih =>
      have hown := hnames declaration (by simp)
      have hothers : ∀ other ∈ earlier.map Declaration.id,
          other.IsMadeOfNames ∧ declaration.id ≠ other := by
        rw [List.map_append, List.map_cons] at hdistinct
        intro other hother
        have hne := (List.nodup_append.mp hdistinct).2.2 other hother
          declaration.id List.mem_cons_self
        obtain ⟨found, hfound, rfl⟩ := List.mem_map.mp hother
        exact ⟨hnames found (List.mem_append_left _ hfound), hne.symm⟩
      have hjoined :=
        joins_next schema config htree hroot hleft hown hothers
      rw [hprocess] at hjoined
      obtain ⟨hnextRoot, hnextLeft, _⟩ := hjoined
      have hnext :=
        gathers_next htree hroot hleft hgathers hown hothers hprocess
      rw [List.append_cons] at hnames hdistinct ⊢
      exact ih hnextRoot hnextLeft hnext hnames hdistinct

/-! ## Runs that return -/

theorem Through.ending {state after other : RunState}
    (hthrough : schema.Through config state models after) :
    ∀ declaration ∈ models,
      (schema.processModel config declaration other).2 = .finished := by
  induction hthrough with
  | done => simp
  | @next state middle after declaration rest hprocess _ ih =>
      rw [List.forall_mem_cons]
      refine ⟨?_, ih⟩
      rw [processModel_ending other state, hprocess]

/-- When every model is processed to its end, from whatever state, so are
all. -/
theorem exists_processModels {declarations : List Declaration}
    (hending : ∀ declaration ∈ declarations,
      schema.isModel declaration.id = true → ∀ state,
        (schema.processModel config declaration state).2 = .finished)
    (state : RunState) :
    ∃ after, schema.processModels config declarations state =
      (after, .finished) := by
  induction declarations generalizing state with
  | nil => exact ⟨state, rfl⟩
  | cons declaration rest ih =>
      rw [List.forall_mem_cons] at hending
      obtain ⟨hfirst, hrest⟩ := hending
      unfold processModels
      split
      next hmodel =>
        have hprocess : schema.processModel config declaration state =
            ((schema.processModel config declaration state).1, .finished) :=
          Prod.ext rfl (hfirst hmodel state)
        rw [hprocess]
        exact ih hrest _
      next => exact ih hrest state

/-- The models of a schema come to what they come to alone. -/
theorem gathers_models (htree : tree.IsDirectoryTree)
    (hdistinct : schema.names.Nodup)
    (hnames : ∀ declaration ∈ schema.declarations,
      declaration.id.IsMadeOfNames)
    {after : RunState}
    (hthrough : schema.Through config { emission, tree } schema.models
      after) :
    after.Gathers (schema.alone config emission tree) tree schema.models
      [] := by
  have hlisted : ∀ declaration ∈ schema.models,
      declaration.id.IsMadeOfNames :=
    fun declaration hmodel => hnames declaration (List.mem_filter.mp hmodel).1
  have hmodels : (schema.models.map Declaration.id).Nodup :=
    hdistinct.sublist (List.filter_sublist.map Declaration.id)
  have hstart : emission.LeftBy (List.map Declaration.id []) tree tree :=
    .refl emission htree
  exact hthrough.gathers htree rfl hstart gathers_nil hlisted hmodels

theorem FindsAlike.alone_eq {one other : Schema}
    (halike : one.FindsAlike other) : one.alone = other.alone := by
  funext config emission tree declaration
  unfold alone
  rw [halike.processModel_eq]

end Schema

/-! ## Registries -/

theorem Registry.findsAlike_of_perm {declared others : List Declaration}
    (hperm : declared.Perm others)
    (hdistinct : (declared.map Declaration.id).Nodup) (marker : String)
    (resolved : Bool) :
    ((ofList declared).toSchema marker resolved).FindsAlike
      ((ofList others).toSchema marker resolved) where
  lookup := by
    have hothers : (others.map Declaration.id).Nodup :=
      (hperm.map _).nodup_iff.mp hdistinct
    funext id
    ext declaration
    show (ofList declared).lookup id = some declaration ↔
      (ofList others).lookup id = some declaration
    rw [(indexed_ofList declared).lookup_eq_some_iff,
      (indexed_ofList others).lookup_eq_some_iff,
      declarations_ofList hdistinct, declarations_ofList hothers,
      hperm.mem_iff]
  marker := rfl

/-- Two reports that differ in the order of their lists only. -/
structure RunReport.Rearranges (one other : RunReport) : Prop where
  halted : other.halted = one.halted
  deferred : other.deferred.Perm one.deferred
  incomplete : other.incomplete.Perm one.incomplete
  failed : other.failed.Perm one.failed
  emitted : other.emitted.Perm one.emitted

theorem RunReport.Rearranges.summary_eq {one other : RunReport}
    (hsame : one.Rearranges other) : other.summary = one.summary := by
  have hcount : ∀ outcome, other.count outcome = one.count outcome :=
    fun outcome => (hsame.emitted.filter _).length_eq
  unfold RunReport.summary RunReport.written RunReport.skipped
  rw [hcount, hcount, hsame.failed.length_eq, hsame.incomplete.length_eq]

namespace RunState.Gathers

variable {alone : Declaration → RunState} {tree : OutputTree}
  {one other : RunState} {models others : List Declaration}
  {closing ending : List Diagnostic}

theorem rearranges (hone : one.Gathers alone tree models closing)
    (hother : other.Gathers alone tree others ending)
    (hperm : models.Perm others) : one.report.Rearranges other.report where
  halted := by rw [hone.halted, hother.halted]
  deferred := by rw [hone.deferred, hother.deferred]
  incomplete := by
    rw [hone.incomplete, hother.incomplete]
    exact hperm.symm.flatMap_right _
  failed := by
    rw [hone.failed, hother.failed]
    exact hperm.symm.flatMap_right _
  emitted := by
    rw [hone.emitted, hother.emitted]
    exact hperm.symm.flatMap_right _

theorem entry?_eq (hone : one.Gathers alone tree models closing)
    (hother : other.Gathers alone tree others ending)
    (hperm : models.Perm others) (place : Place) :
    other.tree.entry? place = one.tree.entry? place := by
  ext entry
  rw [hone.entries, hother.entries]
  simp only [hperm.mem_iff]

theorem summarize (hone : one.Gathers alone tree models []) :
    (Schema.summarize one).Gathers alone tree models
      [{ severity := .info, kind := "summary"
         message := one.report.summary }] where
  entries := hone.entries
  log := by simp [Schema.summarize, hone.log]
  incomplete := hone.incomplete
  failed := hone.failed
  emitted := hone.emitted
  halted := hone.halted
  deferred := hone.deferred

end RunState.Gathers

namespace Schema

/-- Two runs that differ in the order of the records only.  Under a resolved
marker each of them is put together from what the models come to alone. -/
structure RunsAlike (schema reordered : Schema) (config : Config)
    (emission : Emission) (tree : OutputTree) (one other : RunState) :
    Prop where
  resolve : reordered.resolve = schema.resolve
  decide : reordered.decide = schema.decide
  entries : ∀ place, other.tree.entry? place = one.tree.entry? place
  report : one.report.Rearranges other.report
  gathers : schema.markerResolved = true → ∃ closing,
    one.Gathers (schema.alone config emission tree) tree schema.models
        closing ∧
      other.Gathers (schema.alone config emission tree) tree
        reordered.models closing
  unresolved : schema.markerResolved = false → other.log = one.log

section

variable {schema reordered : Schema} {config : Config} {emission : Emission}
  {tree : OutputTree} {one : RunState}

theorem FindsAlike.runsAlike_haltRun (halike : schema.FindsAlike reordered)
    (hperm : schema.declarations.Perm reordered.declarations)
    (hmarker : schema.markerResolved = false) :
    schema.RunsAlike reordered config emission tree
      (schema.haltRun { emission, tree })
      (reordered.haltRun { emission, tree }) where
  resolve := halike.resolve_eq.symm
  decide := halike.decide_eq.symm
  entries _ := rfl
  report := ⟨rfl, (hperm.map _).symm, .refl _, .refl _, .refl _⟩
  gathers hresolved := by
    rw [hmarker] at hresolved
    cases hresolved
  unresolved _ := by
    unfold haltRun
    rw [halike.marker]

/-- Models that are processed to their ends in one order are so in another
one. -/
theorem FindsAlike.processModels_finished
    (halike : schema.FindsAlike reordered)
    (hperm : schema.declarations.Perm reordered.declarations)
    {state after : RunState}
    (hthrough : schema.Through config state schema.models after) :
    ∃ last, reordered.processModels config reordered.declarations state =
      (last, .finished) := by
  refine exists_processModels ?_ state
  intro declaration hlisted hmodel other
  rw [← halike.isModel_eq] at hmodel
  rw [← halike.processModel_eq]
  exact hthrough.ending declaration
    (List.mem_filter.mpr ⟨hperm.mem_iff.mpr hlisted, hmodel⟩)

/-- Schemas that list the same records in different orders, and find them
alike, run alike. -/
theorem FindsAlike.runsAlike (halike : schema.FindsAlike reordered)
    (hresolved : reordered.markerResolved = schema.markerResolved)
    (hperm : schema.declarations.Perm reordered.declarations)
    (hdistinct : schema.names.Nodup)
    (hnames : ∀ declaration ∈ schema.declarations,
      declaration.id.IsMadeOfNames)
    (htree : tree.IsDirectoryTree)
    (hrun : schema.run config emission tree = (one, .finished)) :
    ∃ other, reordered.run config emission tree = (other, .finished) ∧
      schema.RunsAlike reordered config emission tree one other := by
  cases hmarker : schema.markerResolved with
  | false =>
      rw [hmarker] at hresolved
      simp only [run, hmarker, hresolved, Bool.false_eq_true, if_false]
        at hrun ⊢
      obtain ⟨rfl, _⟩ := Prod.mk.inj hrun
      exact ⟨_, rfl, halike.runsAlike_haltRun hperm hmarker⟩
  | true =>
      rw [hmarker] at hresolved
      obtain ⟨after, hthrough, rfl⟩ :=
        run_through hrun (not_halted_of_resolved hmarker hrun)
      obtain ⟨last, hlast⟩ := halike.processModels_finished hperm hthrough
      have hmodels : schema.models.Perm reordered.models := by
        unfold models
        rw [← halike.isModel_eq]
        exact hperm.filter _
      have hone := gathers_models htree hdistinct hnames hthrough
      have hother := gathers_models htree
        ((hperm.map Declaration.id).nodup_iff.mp hdistinct)
        (fun declaration hlisted =>
          hnames declaration (hperm.mem_iff.mpr hlisted))
        (through_of_processModels hlast)
      rw [← halike.alone_eq] at hother
      have hsame := hone.rearranges hother hmodels
      have hclosing := hother.summarize
      rw [hsame.summary_eq] at hclosing
      refine ⟨summarize last, ?_, {
        resolve := halike.resolve_eq.symm
        decide := halike.decide_eq.symm
        entries := fun place => hone.entry?_eq hother hmodels place
        report := hsame
        gathers := fun _ => ⟨_, hone.summarize, hclosing⟩
        unresolved := fun hfalse => ?_ }⟩
      · simp only [run, hresolved, if_true, hlast]
      · rw [hmarker] at hfalse
        cases hfalse

end

/-- The order of declaration does not matter.  When a run returns over records
with different names, it returns over the same records in any other order,
leaves the same tree and reports the same; every model is resolved, decided
and reported as if it were the only one. -/
theorem runsAlike_of_perm {declared others : List Declaration}
    (hperm : declared.Perm others)
    (hdistinct : (declared.map Declaration.id).Nodup)
    (hnames : ∀ declaration ∈ declared, declaration.id.IsMadeOfNames)
    (marker : String) (resolved : Bool) (config : Config)
    (emission : Emission) {tree : OutputTree} (htree : tree.IsDirectoryTree)
    {one : RunState}
    (hrun : ((Registry.ofList declared).toSchema marker resolved).run config
      emission tree = (one, .finished)) :
    ∃ other,
      ((Registry.ofList others).toSchema marker resolved).run config emission
          tree = (other, .finished) ∧
        RunsAlike ((Registry.ofList declared).toSchema marker resolved)
          ((Registry.ofList others).toSchema marker resolved) config emission
          tree one other := by
  have hothers : (others.map Declaration.id).Nodup :=
    (hperm.map _).nodup_iff.mp hdistinct
  have hlisted : ((Registry.ofList declared).toSchema marker
      resolved).declarations = declared :=
    Registry.declarations_ofList hdistinct
  have hrelisted : ((Registry.ofList others).toSchema marker
      resolved).declarations = others :=
    Registry.declarations_ofList hothers
  refine (Registry.findsAlike_of_perm hperm hdistinct marker
    resolved).runsAlike rfl ?_ ?_ ?_ htree hrun
  · rw [hlisted, hrelisted]
    exact hperm
  · rw [names, hlisted]
    exact hdistinct
  · rw [hlisted]
    exact hnames

open Samples in
theorem obstructed_runsAlike :
    let declared : List Declaration :=
      [invoice, recordOf "Blank" [secret "value" text],
        model "Inner" [secret "value" text]]
    let schema := (Registry.ofList declared).toSchema "Model" true
    let reordered :=
      (Registry.ofList declared.reverse).toSchema "Model" true
    declared.Perm declared.reverse ∧
      (declared.map Declaration.id).Nodup ∧
      (∀ declaration ∈ declared, declaration.id.IsMadeOfNames) ∧
      obstructed.IsDirectoryTree ∧
      ∃ one other,
        schema.run {} { root := ["out"] } obstructed = (one, .finished) ∧
        reordered.run {} { root := ["out"] } obstructed =
          (other, .finished) ∧
        schema.RunsAlike reordered {} { root := ["out"] } obstructed one
          other := by
  intro declared schema reordered
  have hperm : declared.Perm declared.reverse :=
    declared.reverse_perm.symm
  have hdistinct : (declared.map Declaration.id).Nodup := by decide
  have hnames : ∀ declaration ∈ declared,
      declaration.id.IsMadeOfNames := by decide +kernel
  have htree : obstructed.IsDirectoryTree := by decide
  have hfinished :
      (schema.run {} { root := ["out"] } obstructed).2 = .finished := by
    decide +kernel
  have hrun : schema.run {} { root := ["out"] } obstructed =
      ((schema.run {} { root := ["out"] } obstructed).1, .finished) :=
    Prod.ext rfl hfinished
  obtain ⟨other, hother⟩ := runsAlike_of_perm hperm hdistinct hnames "Model"
    true {} { root := ["out"] } htree hrun
  exact ⟨hperm, hdistinct, hnames, htree, _, other, hrun, hother⟩

end Schema

end RecordMasking

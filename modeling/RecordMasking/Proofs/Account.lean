import Mathlib.Data.List.Count
import RecordMasking.Proofs.Delegation
import RecordMasking.Proofs.Eligibility
import RecordMasking.Proofs.Registry
import RecordMasking.Proofs.Verdict
import RecordMasking.Samples

/-!
# What a run accounts for

The ledger of a finished run holds the verdict on each model in turn.  Its
log and its report are read off the ledger entry by entry, so that a count in
the report agrees with a count in the log as soon as the two agree for one
verdict.  Since a registry lists no name twice, a model is counted in the one
class that its verdict names.
-/

namespace RecordMasking

/-! ## Lists made of parts -/

section Parts

variable {α β γ : Type}

theorem length_filter_flatMap {items : List α} {left : α → List β}
    {right : α → List γ} {chosen : β → Bool} {counted : γ → Bool}
    (hparts : ∀ item ∈ items,
      ((left item).filter chosen).length =
        ((right item).filter counted).length) :
    ((items.flatMap left).filter chosen).length =
      ((items.flatMap right).filter counted).length := by
  induction items with
  | nil => rfl
  | cons item rest ih =>
      have hitem := hparts item List.mem_cons_self
      have hrest := ih fun other hother =>
        hparts other (List.mem_cons_of_mem item hother)
      simp only [List.flatMap_cons, List.filter_append, List.length_append]
      omega

theorem flatMap_sublist_map {items : List α} {part : α → List β}
    {name : α → β}
    (hpart : ∀ item ∈ items, (part item).Sublist [name item]) :
    (items.flatMap part).Sublist (items.map name) := by
  induction items with
  | nil => exact .slnil
  | cons item rest ih =>
      rw [List.flatMap_cons, List.map_cons, ← List.singleton_append]
      exact (hpart item List.mem_cons_self).append
        (ih fun other hother => hpart other (List.mem_cons_of_mem item hother))

/-- With different names, a name is counted in its own part only. -/
theorem count_flatMap [DecidableEq β] {items : List α} {part : α → List β}
    {name : α → β} (hdistinct : (items.map name).Nodup)
    (hpart : ∀ item ∈ items, (part item).Sublist [name item])
    {item : α} (hitem : item ∈ items) :
    (items.flatMap part).count (name item) = (part item).count (name item) := by
  obtain ⟨before, after, rfl⟩ := List.append_of_mem hitem
  have habsent : ∀ others : List α,
      (∀ other ∈ others, (part other).Sublist [name other]) →
      name item ∉ others.map name →
      (others.flatMap part).count (name item) = 0 := by
    intro others hothers hforeign
    apply List.count_eq_zero_of_not_mem
    exact fun hmem => hforeign ((flatMap_sublist_map hothers).subset hmem)
  rw [List.map_append, List.map_cons, List.nodup_append, List.nodup_cons]
    at hdistinct
  obtain ⟨_, ⟨hafter, _⟩, hbefore⟩ := hdistinct
  rw [List.flatMap_append, List.flatMap_cons, List.count_append,
    List.count_append]
  rw [habsent before (fun other hother => hpart other (by simp [hother]))
    fun hmem => hbefore _ hmem _ List.mem_cons_self rfl]
  rw [habsent after (fun other hother => hpart other (by simp [hother])) hafter]
  omega

end Parts

theorem DiagnosticLog.hasErrors_eq {log : DiagnosticLog}
    {names : List QualifiedName}
    (hlength : (log.filter fun entry => entry.severity == .error).length =
      names.length) : log.hasErrors = !names.isEmpty := by
  rw [Bool.eq_iff_iff]
  simp only [hasErrors, List.any_eq_true, Bool.not_eq_true',
    List.isEmpty_eq_false_iff_exists_mem]
  rw [← List.length_pos_iff_exists_mem, ← hlength,
    List.length_pos_iff_exists_mem]
  simp only [List.mem_filter]

theorem QualifiedName.maskKey_injective :
    Function.Injective QualifiedName.maskKey := by
  rintro ⟨package, name⟩ ⟨other, named⟩ hkey
  obtain ⟨hpackage, hlonger⟩ := QualifiedName.mk.inj hkey
  have hchars := congrArg String.toList hlonger
  rw [String.toList_append, String.toList_append] at hchars
  have hname : name = named :=
    String.toList_inj.mp (List.append_cancel_right hchars)
  rw [show package = other from hpackage, hname]

/-! ## What is told of a model, by kinds -/

def UnresolvedField.toDiagnostic (field : UnresolvedField) : Diagnostic :=
  (Fault.unresolvedField field.owner field.path.display field.type).toDiagnostic
    field.location

def CycleCut.toDiagnostic (root : QualifiedName) (cut : CycleCut) :
    Diagnostic :=
  (Fault.cyclicType cut.type
    (root.display ++ "." ++ cut.path.display)).toDiagnostic cut.location

theorem DiagnosticLog.ofKind_map {α : Type} {items : List α} {own : String}
    (entry : α → Diagnostic) (hown : ∀ item, (entry item).kind = own)
    (kind : String) :
    DiagnosticLog.ofKind (items.map entry) kind =
      if own = kind then items.map entry else [] := by
  split
  next hkind =>
    refine List.filter_eq_self.mpr fun found hfound => ?_
    obtain ⟨item, _, rfl⟩ := List.mem_map.mp hfound
    simp [hown item, hkind]
  next hkind =>
    apply ofKind_eq_nil
    intro found hfound
    obtain ⟨item, _, rfl⟩ := List.mem_map.mp hfound
    rwa [hown item]

/-- The kind of the entry that tells of an emission. -/
def Outcome.entryKind : Outcome → String
  | .written => "written"
  | .skipped => "duplicate_artifact"

/-- The kinds of what is told besides the verdicts. -/
def findingKinds : List String :=
  ["unresolved_field_type", "cyclic_type_graph", "masked_path", "summary"]

theorem Fault.IsError.kind_not_mem {fault : Fault} (herror : fault.IsError) :
    fault.kind ∉ "written" :: "duplicate_artifact" :: findingKinds := by
  unfold Fault.IsError at herror
  cases fault with
  | unresolvedField => simp [Fault.severity] at herror
  | cyclicType => simp [Fault.severity] at herror
  | duplicateArtifact => simp [Fault.severity] at herror
  | _ => simp [Fault.kind, findingKinds]

namespace Schema

variable {schema : Schema} {declaration : Declaration} {verdict : Verdict}

theorem findings_eq (declaration : Declaration) :
    schema.findings declaration =
      (schema.resolve declaration.id).unresolved.map
          UnresolvedField.toDiagnostic ++
        (schema.resolve declaration.id).cycles.map
          (CycleCut.toDiagnostic declaration.id) ++
        (schema.resolve declaration.id).paths.toList.map
          (maskedPath declaration.id) := by
  unfold findings Resolution.issues
  simp only [List.map_append, List.map_map]
  rfl

theorem findings_ofKind (declaration : Declaration) (kind : String) :
    DiagnosticLog.ofKind (schema.findings declaration) kind =
      (if "unresolved_field_type" = kind then
        (schema.resolve declaration.id).unresolved.map
          UnresolvedField.toDiagnostic else []) ++
      (if "cyclic_type_graph" = kind then
        (schema.resolve declaration.id).cycles.map
          (CycleCut.toDiagnostic declaration.id) else []) ++
      (if "masked_path" = kind then
        (schema.resolve declaration.id).paths.toList.map
          (maskedPath declaration.id) else []) := by
  rw [findings_eq, DiagnosticLog.ofKind_append, DiagnosticLog.ofKind_append,
    DiagnosticLog.ofKind_map UnresolvedField.toDiagnostic fun _ => rfl,
    DiagnosticLog.ofKind_map (CycleCut.toDiagnostic _) fun _ => rfl,
    DiagnosticLog.ofKind_map (maskedPath _) fun _ => rfl]

theorem Justified.closing_kind
    (hjustified : schema.Justified declaration verdict) :
    (verdict.closing declaration).kind ∉ findingKinds := by
  cases hjustified with
  | passedOver => simp [Verdict.closing, notEligible, findingKinds]
  | @emitted synthesis outcome =>
      cases outcome with
      | written =>
          simp [Verdict.closing, Synthesis.outcomeEntry, findingKinds]
      | skipped =>
          simp [Verdict.closing, Synthesis.outcomeEntry, Fault.kind,
            findingKinds]
  | @failed fault _ herror =>
      intro hfinding
      exact herror.kind_not_mem
        (List.mem_cons_of_mem _ (List.mem_cons_of_mem _ hfinding))

theorem Justified.told_ofKind
    (hjustified : schema.Justified declaration verdict) {kind : String}
    (hkind : kind ∈ findingKinds) :
    DiagnosticLog.ofKind (schema.told declaration verdict) kind =
      DiagnosticLog.ofKind (schema.findings declaration) kind := by
  have hclosing :
      DiagnosticLog.ofKind [verdict.closing declaration] kind = [] := by
    apply DiagnosticLog.ofKind_eq_nil
    intro entry hentry hsame
    obtain rfl := List.mem_singleton.mp hentry
    exact hjustified.closing_kind (hsame ▸ hkind)
  rw [told, DiagnosticLog.ofKind_append, hclosing, List.append_nil]

theorem severity_ne_of_mem_findings {entry : Diagnostic}
    (hentry : entry ∈ schema.findings declaration) :
    entry.severity ≠ .error := by
  rw [findings_eq, List.mem_append, List.mem_append] at hentry
  rcases hentry with (hentry | hentry) | hentry
  all_goals
    obtain ⟨item, _, rfl⟩ := List.mem_map.mp hentry
    simp [UnresolvedField.toDiagnostic, CycleCut.toDiagnostic,
      Fault.toDiagnostic, Fault.severity, maskedPath]

/-- A model gives rise to an error exactly when it fails. -/
theorem Justified.length_errors
    (hjustified : schema.Justified declaration verdict) :
    ((schema.told declaration verdict).filter fun entry =>
        entry.severity == .error).length =
      (verdict.failures declaration).length := by
  have hfindings : ((schema.findings declaration).filter fun entry =>
      entry.severity == .error) = [] := by
    refine List.filter_eq_nil_iff.mpr fun entry hentry => ?_
    simpa using severity_ne_of_mem_findings hentry
  rw [told, List.filter_append, hfindings, List.nil_append]
  cases hjustified with
  | passedOver => rfl
  | @emitted synthesis outcome =>
      cases outcome with
      | written => rfl
      | skipped => rfl
  | @failed fault _ herror =>
      have herror : fault.severity = .error := herror
      simp [Verdict.closing, Fault.toDiagnostic, Verdict.failures, herror]

theorem Justified.length_outcomes
    (hjustified : schema.Justified declaration verdict) (outcome : Outcome) :
    (DiagnosticLog.ofKind (schema.told declaration verdict)
        outcome.entryKind).length =
      (verdict.emissions.filter fun entry => entry.2 == outcome).length := by
  have hfindings : DiagnosticLog.ofKind (schema.findings declaration)
      outcome.entryKind = [] := by
    rw [findings_ofKind]
    cases outcome with
    | written => rfl
    | skipped => rfl
  rw [told, DiagnosticLog.ofKind_append, hfindings, List.nil_append]
  cases hjustified with
  | passedOver => cases outcome <;> rfl
  | @emitted synthesis own => cases own <;> cases outcome <;> rfl
  | @failed fault _ herror =>
      rw [DiagnosticLog.ofKind_eq_nil]
      · rfl
      · intro entry hentry hsame
        obtain rfl := List.mem_singleton.mp hentry
        apply herror.kind_not_mem
        rw [show fault.kind = outcome.entryKind from hsame]
        cases outcome with
        | written => exact List.mem_cons_self
        | skipped => exact List.mem_cons_of_mem _ List.mem_cons_self

/-! ## Ledgers -/

/-- What a ledger adds to a state besides its tree and its manifest. -/
structure Tallied (schema : Schema) (ledger : List (Declaration × Verdict))
    (state after : RunState) : Prop where
  justified : ∀ entry ∈ ledger, schema.Justified entry.1 entry.2
  log : after.log =
    state.log ++ ledger.flatMap fun entry => schema.told entry.1 entry.2
  failed : after.report.failed =
    state.report.failed ++ ledger.flatMap fun entry => entry.2.failures entry.1
  emitted : after.report.emitted =
    state.report.emitted ++ ledger.flatMap fun entry => entry.2.emissions
  halted : after.report.halted = state.report.halted
  deferred : after.report.deferred = state.report.deferred

theorem Through.tallied {config : Config} {models : List Declaration}
    {state after : RunState}
    (hthrough : schema.Through config state models after) :
    ∃ ledger : List (Declaration × Verdict),
      ledger.map Prod.fst = models ∧ schema.Tallied ledger state after := by
  induction hthrough with
  | done =>
      refine ⟨[], rfl, ?_⟩
      constructor
      all_goals simp
  | @next state middle after declaration rest hprocess _ ih =>
      obtain ⟨ledger, hmodels, htallied⟩ := ih
      obtain ⟨verdict, hverdict, hgains⟩ := gains_of_processModel hprocess
      refine ⟨(declaration, verdict) :: ledger, by simp [hmodels], ?_⟩
      constructor
      · intro entry hentry
        rcases List.mem_cons.mp hentry with rfl | hentry
        · exact justified_of_verdict? hverdict
        · exact htallied.justified entry hentry
      · simp [htallied.log, hgains.log]
      · simp [htallied.failed, hgains.failed]
      · simp [htallied.emitted, hgains.emitted]
      · rw [htallied.halted, hgains.halted]
      · rw [htallied.deferred, hgains.deferred]

end Schema

/-- A report and a log that account for every model of a schema. -/
structure RunState.Accounts (state : RunState) (schema : Schema) : Prop where
  halted : state.report.halted = false
  deferred : state.report.deferred = []
  emitted : (state.report.emitted.map Prod.fst).Sublist
    (schema.models.map fun declaration => declaration.id.maskKey)
  failed : state.report.failed.Sublist (schema.models.map Declaration.id)
  passedOver : state.log.ofKind passedOver =
    (schema.models.filter fun declaration =>
      (schema.resolve declaration.id).paths.isEmpty).map notEligible
  /-- A model is emitted, failed or passed over, and that once. -/
  once : ∀ declaration ∈ schema.models,
    (state.report.emitted.map Prod.fst).count declaration.id.maskKey +
      state.report.failed.count declaration.id +
      (if (schema.resolve declaration.id).paths.isEmpty then 1 else 0) = 1
  incomplete : state.report.incomplete =
    (schema.models.filter fun declaration =>
      !(schema.resolve declaration.id).isComplete).map Declaration.id
  errors : (state.log.filter fun entry => entry.severity == .error).length =
    state.report.failed.length
  hasErrors : state.log.hasErrors = !state.report.failed.isEmpty
  written : (state.log.ofKind "written").length = state.report.written
  skipped :
    (state.log.ofKind "duplicate_artifact").length = state.report.skipped
  unresolved : state.log.ofKind "unresolved_field_type" =
    schema.models.flatMap fun declaration =>
      (schema.resolve declaration.id).unresolved.map
        UnresolvedField.toDiagnostic
  cycles : state.log.ofKind "cyclic_type_graph" =
    schema.models.flatMap fun declaration =>
      (schema.resolve declaration.id).cycles.map
        (CycleCut.toDiagnostic declaration.id)
  maskedPaths : state.log.ofKind "masked_path" =
    schema.models.flatMap fun declaration =>
      (schema.resolve declaration.id).paths.toList.map
        (maskedPath declaration.id)
  /-- The summary is told at the end and nowhere else, with the numbers of
  masks that were written and skipped and of models that failed or are
  incomplete. -/
  summary : ∃ earlier : DiagnosticLog,
    earlier.ofKind "summary" = [] ∧
      state.log = earlier ++
        [{ severity := .info, kind := "summary"
           message := toString state.report.written ++ " mask(s) written, " ++
             toString state.report.skipped ++ " skipped, " ++
             toString state.report.failed.length ++ " failed, " ++
             toString state.report.incomplete.length ++ " incomplete" }]

namespace Schema

variable {schema : Schema} {config : Config}
variable {ledger : List (Declaration × Verdict)}

theorem nodup_ledger {α : Type} {name : QualifiedName → α}
    (hname : Function.Injective name) (hdistinct : schema.names.Nodup)
    (hmodels : ledger.map Prod.fst = schema.models) :
    (ledger.map fun entry => name entry.1.id).Nodup := by
  have hids : (schema.models.map Declaration.id).Nodup :=
    hdistinct.sublist (List.filter_sublist.map Declaration.id)
  have hnames : (ledger.map fun entry => name entry.1.id) =
      (schema.models.map Declaration.id).map name := by
    rw [← hmodels, List.map_map, List.map_map]
    rfl
  rw [hnames]
  exact hids.map hname

theorem Justified.emissions_sublist {declaration : Declaration}
    {verdict : Verdict} (hjustified : schema.Justified declaration verdict) :
    (verdict.emissions.map Prod.fst).Sublist [declaration.id.maskKey] := by
  cases hjustified with
  | passedOver => exact List.nil_sublist _
  | emitted _ hkey => simp [Verdict.emissions, hkey]
  | failed => exact List.nil_sublist _

theorem Justified.failures_sublist {declaration : Declaration}
    {verdict : Verdict} (hjustified : schema.Justified declaration verdict) :
    (verdict.failures declaration).Sublist [declaration.id] := by
  cases hjustified with
  | failed => exact List.Sublist.refl _
  | _ => exact List.nil_sublist _

/-- A verdict names one class. -/
theorem Justified.once {declaration : Declaration} {verdict : Verdict}
    (hjustified : schema.Justified declaration verdict) :
    (verdict.emissions.map Prod.fst).count declaration.id.maskKey +
      (verdict.failures declaration).count declaration.id +
      (if (schema.resolve declaration.id).paths.isEmpty then 1 else 0) = 1 := by
  cases hjustified with
  | passedOver hempty => simp [Verdict.emissions, Verdict.failures, hempty]
  | emitted hpaths hkey =>
      simp [Verdict.emissions, Verdict.failures, hpaths, hkey]
  | failed hpaths => simp [Verdict.emissions, Verdict.failures, hpaths]

/-! ## The ledger of a run -/

section OfRun

variable {emission : Emission} {tree : OutputTree} {after : RunState}
  (hmodels : ledger.map Prod.fst = schema.models)
  (htallied : schema.Tallied ledger { emission, tree } after)

include htallied

theorem Tallied.log_eq :
    after.log = ledger.flatMap fun entry => schema.told entry.1 entry.2 := by
  simpa using htallied.log

theorem Tallied.failed_eq :
    after.report.failed =
      ledger.flatMap fun entry => entry.2.failures entry.1 := by
  simpa using htallied.failed

theorem Tallied.emitted_eq :
    after.report.emitted = ledger.flatMap fun entry => entry.2.emissions := by
  simpa using htallied.emitted

theorem Tallied.keys_eq :
    after.report.emitted.map Prod.fst =
      ledger.flatMap fun entry => entry.2.emissions.map Prod.fst := by
  rw [htallied.emitted_eq, List.map_flatMap]

theorem Tallied.errors :
    (after.log.filter fun entry => entry.severity == .error).length =
      after.report.failed.length := by
  have hparts : (after.log.filter fun entry =>
      entry.severity == .error).length =
        (after.report.failed.filter fun _ => true).length := by
    rw [htallied.log_eq, htallied.failed_eq]
    apply length_filter_flatMap
    intro entry hentry
    simpa using (htallied.justified entry hentry).length_errors
  simpa using hparts

theorem Tallied.outcomes (outcome : Outcome) :
    (after.log.ofKind outcome.entryKind).length =
      after.report.count outcome := by
  rw [RunReport.count, htallied.log_eq, htallied.emitted_eq]
  apply length_filter_flatMap
  intro entry hentry
  exact (htallied.justified entry hentry).length_outcomes outcome

include hmodels

theorem Tallied.emitted_sublist :
    (after.report.emitted.map Prod.fst).Sublist
      (schema.models.map fun declaration => declaration.id.maskKey) := by
  rw [htallied.keys_eq, ← hmodels, List.map_map]
  exact flatMap_sublist_map fun entry hentry =>
    (htallied.justified entry hentry).emissions_sublist

theorem Tallied.failed_sublist :
    after.report.failed.Sublist (schema.models.map Declaration.id) := by
  rw [htallied.failed_eq, ← hmodels, List.map_map]
  exact flatMap_sublist_map fun entry hentry =>
    (htallied.justified entry hentry).failures_sublist

theorem Tallied.once (hdistinct : schema.names.Nodup)
    {declaration : Declaration} (hmodel : declaration ∈ schema.models) :
    (after.report.emitted.map Prod.fst).count declaration.id.maskKey +
      after.report.failed.count declaration.id +
      (if (schema.resolve declaration.id).paths.isEmpty then 1 else 0) = 1 := by
  rw [← hmodels] at hmodel
  obtain ⟨entry, hentry, rfl⟩ := List.mem_map.mp hmodel
  have hkeys := count_flatMap
    (nodup_ledger QualifiedName.maskKey_injective hdistinct hmodels)
    (fun other hother => (htallied.justified other hother).emissions_sublist)
    hentry
  have hnames := count_flatMap
    (nodup_ledger Function.injective_id hdistinct hmodels)
    (fun other hother => (htallied.justified other hother).failures_sublist)
    hentry
  rw [← htallied.keys_eq] at hkeys
  rw [← htallied.failed_eq, id_eq] at hnames
  rw [hkeys, hnames]
  exact (htallied.justified entry hentry).once

/-- The entries of a kind, when the declaration of a model decides them
whatever the verdict on it is. -/
theorem Tallied.ofKind {kind : String} {part : Declaration → List Diagnostic}
    (hpart : ∀ declaration verdict, schema.Justified declaration verdict →
      DiagnosticLog.ofKind (schema.told declaration verdict) kind =
        part declaration) :
    after.log.ofKind kind = schema.models.flatMap part := by
  rw [htallied.log_eq, ← hmodels, List.flatMap_map, DiagnosticLog.ofKind,
    List.filter_flatMap]
  exact List.flatMap_congr fun entry hentry =>
    hpart entry.1 entry.2 (htallied.justified entry hentry)

end OfRun

/-- A ledger of all models accounts for them in the state it leads to. -/
theorem Tallied.accounts {emission : Emission} {tree : OutputTree}
    {after : RunState} (hdistinct : schema.names.Nodup)
    (hmodels : ledger.map Prod.fst = schema.models)
    (htallied : schema.Tallied ledger { emission, tree } after)
    (hrun : schema.run config emission tree = (summarize after, .finished)) :
    (summarize after).Accounts schema := by
  have hhalted : after.report.halted = false := htallied.halted
  -- The summary is of a kind of its own.
  have hkinds : ∀ kind, "summary" ≠ kind →
      (summarize after).log.ofKind kind = after.log.ofKind kind := by
    intro kind hkind
    simp [summarize, DiagnosticLog.ofKind, hkind]
  have hnotes : ∀ kind ∈ findingKinds, after.log.ofKind kind =
      schema.models.flatMap fun declaration =>
        DiagnosticLog.ofKind (schema.findings declaration) kind :=
    fun kind hkind => htallied.ofKind hmodels fun _ _ hjustified =>
      hjustified.told_ofKind hkind
  have herrors : ((summarize after).log.filter fun entry =>
      entry.severity == .error).length = after.report.failed.length := by
    simpa [summarize] using htallied.errors
  constructor
  · exact hhalted
  · exact htallied.deferred
  · show (after.report.emitted.map Prod.fst).Sublist _
    exact htallied.emitted_sublist hmodels
  · show after.report.failed.Sublist _
    exact htallied.failed_sublist hmodels
  · exact run_passedOver hrun hhalted
  · exact fun _ hmodel => htallied.once hmodels hdistinct hmodel
  · exact run_incomplete hrun hhalted
  · exact herrors
  · exact DiagnosticLog.hasErrors_eq herrors
  · rw [hkinds _ (by decide)]
    exact htallied.outcomes .written
  · rw [hkinds _ (by decide)]
    exact htallied.outcomes .skipped
  · rw [hkinds _ (by decide), hnotes _ (by decide)]
    simp [findings_ofKind]
  · rw [hkinds _ (by decide), hnotes _ (by decide)]
    simp [findings_ofKind]
  · rw [hkinds _ (by decide), hnotes _ (by decide)]
    simp [findings_ofKind]
  · refine ⟨after.log, ?_, rfl⟩
    rw [hnotes _ (by decide)]
    simp [findings_ofKind]

/-- Every run over a registry that returns accounts for every model.  With
the marker out of scope nothing is processed and all names are deferred; else
each model is emitted, failed or passed over, and log and report agree. -/
theorem registry_run_accounts (declared : List Declaration) (marker : String)
    (resolved : Bool) (config : Config) (emission : Emission)
    (tree : OutputTree) {state : RunState}
    (hrun :
      ((Registry.ofList declared).toSchema marker resolved).run config
        emission tree = (state, .finished)) :
    (resolved = false →
      state.report = {
        halted := true
        deferred := (Registry.ofList declared).declarations.map Declaration.id
      } ∧
      state.log = [(Fault.missingMarker marker).toDiagnostic none] ∧
      state.emission = emission ∧ state.tree = tree) ∧
    (resolved = true →
      state.Accounts ((Registry.ofList declared).toSchema marker resolved)) := by
  constructor
  · rintro rfl
    obtain ⟨rfl, _⟩ := Prod.mk.inj hrun
    exact ⟨rfl, rfl, rfl, rfl⟩
  · intro hresolved
    obtain ⟨after, hthrough, rfl⟩ :=
      run_through hrun (not_halted_of_resolved hresolved hrun)
    obtain ⟨ledger, hmodels, htallied⟩ := hthrough.tallied
    exact htallied.accounts (Registry.indexed_ofList declared).nodup_names
      hmodels hrun

open Samples in
theorem obstructed_registry_accounts :
    let schema := (Registry.ofList
      [invoice, recordOf "Blank" [secret "value" text],
        model "Note" [plain "body" text],
        model "Inner" [secret "value" text]]).toSchema "Model" true
    let result := schema.run {} { root := ["out"] } obstructed
    result.2 = .finished ∧ result.1.Accounts schema := by
  intro schema result
  have hfinished : result.2 = .finished := by decide +kernel
  have hrun : schema.run {} { root := ["out"] } obstructed =
      (result.1, .finished) := Prod.ext rfl hfinished
  exact ⟨hfinished, (registry_run_accounts _ "Model" true {} _ _ hrun).2 rfl⟩

end Schema

end RecordMasking

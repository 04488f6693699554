import RecordMasking.Proofs.Account
import RecordMasking.Proofs.EntryFile
import RecordMasking.Proofs.FirstOfEach
import RecordMasking.Proofs.Repetition

/-!
# What a manifest tells

A manifest holds the first success for each key and nothing else, whatever
artifacts are emitted, again or in vain.  The file of an entry is the path of
its artifact below the root, and there is something at it from the success on.
In a run over a registry no key comes twice, so that the manifest lists what
the report lists.
-/

namespace RecordMasking

open Code OutputTree

/-! ## Recording -/

def ManifestEntry.key (entry : ManifestEntry) : QualifiedName :=
  ⟨entry.package, entry.artifact⟩

namespace Manifest

/-- The keys of a manifest with their outcomes. -/
def outcomes (manifest : Manifest) : List (QualifiedName × Outcome) :=
  manifest.artifacts.map fun entry => (entry.key, entry.outcome)

/-- The manifest of a history of successes: of several entries with one key
the first one is kept. -/
def Records (manifest : Manifest) (entries : List ManifestEntry) : Prop :=
  manifest.artifacts = firstOfEach ManifestEntry.key entries

variable {manifest : Manifest} {entries : List ManifestEntry}

theorem holdsKey_iff {key : QualifiedName} :
    manifest.holdsKey key = true ↔
      key ∈ manifest.artifacts.map ManifestEntry.key := by
  unfold holdsKey
  rw [List.any_eq_true, List.mem_map]
  simp only [Bool.and_eq_true, beq_iff_eq]
  constructor
  · rintro ⟨entry, hentry, hpackage, hname⟩
    exact ⟨entry, hentry, by rw [ManifestEntry.key, hpackage, hname]⟩
  · rintro ⟨entry, hentry, rfl⟩
    exact ⟨entry, hentry, rfl, rfl⟩

theorem Records.record (hrecords : manifest.Records entries)
    (artifact : Artifact) (outcome : Outcome) :
    (manifest.record artifact outcome).Records
      (entries ++ [.ofArtifact artifact outcome]) := by
  have hkeys : artifact.key ∈ manifest.artifacts.map ManifestEntry.key ↔
      (ManifestEntry.ofArtifact artifact outcome).key ∈
        entries.map ManifestEntry.key := by
    rw [show manifest.artifacts = _ from hrecords, mem_keys_firstOfEach]
    rfl
  unfold Records Manifest.record
  split
  next hheld =>
    rw [firstOfEach_concat_of_mem (hkeys.mp (holdsKey_iff.mp hheld))]
    exact hrecords
  next hfree =>
    have hnew := fun hkey => hfree (holdsKey_iff.mpr (hkeys.mpr hkey))
    rw [firstOfEach_concat_of_not_mem hnew]
    exact congrArg (· ++ _) hrecords

theorem Records.outcomes_eq (hrecords : manifest.Records entries) :
    manifest.outcomes = firstOfEach Prod.fst
      (entries.map fun entry => (entry.key, entry.outcome)) := by
  unfold outcomes
  rw [show manifest.artifacts = firstOfEach ManifestEntry.key entries
    from hrecords]
  have hkey : ∀ entry : ManifestEntry,
      Prod.fst (entry.key, entry.outcome) = entry.key := fun _ => rfl
  exact map_firstOfEach hkey entries

end Manifest

/-! ## What a success leaves behind -/

namespace OutputTree

variable {tree made : OutputTree} {path : OutputPath} {text : String}

theorem path_of_makeDirectories {place : Place}
    (hmake : tree.makeDirectories path = (made, .ok place)) :
    hasNul path = false ∧ isTooLong path = false := by
  unfold makeDirectories at hmake
  split at hmake
  next => simp at hmake
  next hnul =>
    split at hmake
    next => simp at hmake
    next hlong => exact ⟨by simpa using hnul, by simpa using hlong⟩

theorem writeBehind_eq_ok {result : Except Obstacle Place}
    {outcome : Outcome}
    (hwrite : (tree.writeBehind path text result).2 = .ok outcome) :
    ∃ directory, result = .ok directory ∧ nameObstacle? path = none ∧
      OutputTree.entry? (tree.writeBehind path text result).1
        (directory ++ [path.lastName]) ≠ none := by
  cases result with
  | error obstacle => simp [writeBehind] at hwrite
  | ok directory =>
      refine ⟨directory, rfl, ?_⟩
      unfold writeBehind at hwrite ⊢
      cases hobstacle : nameObstacle? path with
      | some obstacle => simp [hobstacle] at hwrite
      | none =>
          refine ⟨rfl, ?_⟩
          cases hentry : tree.entry? (directory ++ [path.lastName]) with
          | some entry => simp [hentry]
          | none =>
              simp only [hentry]
              rw [entry?_set_self (not_isStart_of_vacant hentry)]
              simp

/-- When a text has been written, or was there before, its path leads
somewhere. -/
theorem IsDirectoryTree.leadsSomewhere_of_writeAbsent
    (htree : tree.IsDirectoryTree) {lead : OutputPath} {last : String}
    (hlast : IsFileName last) (hlastNul : hasNul [last] = false)
    {outcome : Outcome}
    (hwrite : (tree.writeAbsent (lead ++ [last]) text).2 = .ok outcome) :
    (tree.writeAbsent (lead ++ [last]) text).1.leadsSomewhere
      (lead ++ [last]) = true := by
  cases hleads : tree.leadsSomewhere (lead ++ [last]) with
  | true =>
      rw [writeAbsent_of_leadsSomewhere hleads]
      exact hleads
  | false =>
      rcases hmake : tree.makeDirectories (OutputPath.parent (lead ++ [last]))
        with ⟨made, result⟩
      rw [writeAbsent_eq_writeNew hleads,
        writeNew_eq text (lastName_ne_temporary lead hlast) hmake] at hwrite ⊢
      obtain ⟨directory, rfl, hobstacle, hthere⟩ := writeBehind_eq_ok hwrite
      obtain ⟨hnul, hfits⟩ := path_of_makeDirectories hmake
      obtain ⟨hmade, hway, hgoal⟩ :=
        htree.way_of_makeDirectories hnul hfits hmake
      -- Only that the tree grows is of interest, so any root will do.
      have hroot : hasNul ([] : OutputPath) = false := rfl
      obtain ⟨hlater, _⟩ :=
        writeBehind_again hmade (lead ++ [last]) text hroot hgoal
      rw [OutputPath.lastName_concat lead hlast.isIdle_eq] at hthere
      exact (leadsSomewhere_behind_iff hlater.isDirectoryTree.linkFree hlast
        hlastNul (hway.grows hlater.grows)).mpr
          ⟨directory, rfl, hobstacle, hthere⟩

end OutputTree

theorem Emission.leadsSomewhere_of_attempt (emission : Emission)
    {tree : OutputTree} (htree : tree.IsDirectoryTree) {artifact : Artifact}
    {type : QualifiedName} (hproper : type.IsProper)
    (hkey : artifact.key = type.maskKey) {outcome : Outcome}
    (hattempt : (emission.attempt tree artifact).2 = .ok outcome) :
    (emission.attempt tree artifact).1.leadsSomewhere
      (emission.targetPath artifact.key) = true := by
  obtain ⟨lead, last, hpath, hname, hlastNul, _⟩ :=
    exists_properTarget emission hproper
  unfold attempt at hattempt ⊢
  rw [hkey, hpath] at hattempt ⊢
  exact htree.leadsSomewhere_of_writeAbsent hname.isFileName hlastNul hattempt

/-! ## Emitting one artifact after the other -/

/-- An artifact whose key is that of its type, which is properly named. -/
def Artifact.IsKeyed (artifact : Artifact) : Prop :=
  artifact.key = artifact.type.maskKey ∧ artifact.type.IsProper

instance (artifact : Artifact) : Decidable artifact.IsKeyed :=
  inferInstanceAs (Decidable (_ ∧ _))

/-- An emission at work on a tree, with the answers it has given so far. -/
structure Journal where
  emission : Emission
  tree : OutputTree
  answers : List (Artifact × Except Fault Outcome) := []

namespace Journal

def emit (journal : Journal) (artifact : Artifact) : Journal :=
  let (emission, tree, result) :=
    journal.emission.emit journal.tree artifact
  { emission, tree, answers := journal.answers ++ [(artifact, result)] }

def emitAll (journal : Journal) (artifacts : List Artifact) : Journal :=
  artifacts.foldl emit journal

theorem answers_emitAll (journal : Journal) (artifacts : List Artifact) :
    (journal.emitAll artifacts).answers.map Prod.fst =
      journal.answers.map Prod.fst ++ artifacts := by
  induction artifacts generalizing journal with
  | nil => simp [emitAll]
  | cons first rest ih =>
      have hfirst : (journal.emit first).answers.map Prod.fst =
          journal.answers.map Prod.fst ++ [first] := by
        simp [emit]
      rw [emitAll, List.foldl_cons, ← emitAll, ih, hfirst, List.append_assoc]
      rfl

/-- The artifacts that were not refused, with their outcomes. -/
def granted (journal : Journal) : List (Artifact × Outcome) :=
  journal.answers.filterMap fun answer =>
    answer.2.toOption.map fun outcome => (answer.1, outcome)

theorem mem_granted_iff {journal : Journal} {artifact : Artifact}
    {outcome : Outcome} :
    (artifact, outcome) ∈ journal.granted ↔
      (artifact, .ok outcome) ∈ journal.answers := by
  unfold granted
  rw [List.mem_filterMap]
  constructor
  · rintro ⟨⟨other, fault | found⟩, hanswer, hgrant⟩
    · simp [Except.toOption] at hgrant
    · obtain ⟨rfl, rfl⟩ : other = artifact ∧ found = outcome := by
        simpa [Except.toOption] using hgrant
      exact hanswer
  · intro hanswer
    exact ⟨_, hanswer, rfl⟩

variable {root : OutputPath} {journal : Journal} {tree : OutputTree}
  {artifact : Artifact}

theorem granted_refused (emission : Emission) (fault : Fault) :
    granted ⟨emission, tree, journal.answers ++ [(artifact, .error fault)]⟩ =
      journal.granted := by
  simp [granted, Except.toOption]

theorem granted_concat (emission : Emission) (outcome : Outcome) :
    granted ⟨emission, tree, journal.answers ++ [(artifact, .ok outcome)]⟩ =
      journal.granted ++ [(artifact, outcome)] := by
  simp [granted, Except.toOption]

theorem emit_eq {after : OutputTree} {result : Except Fault Outcome}
    (hattempt : journal.emission.attempt journal.tree artifact =
      (after, result)) :
    journal.emit artifact =
      ⟨journal.emission.recorded artifact result, after,
        journal.answers ++ [(artifact, result)]⟩ := by
  unfold emit
  rw [journal.emission.emit_eq_recorded, hattempt]

/-- What is there already is recorded as skipped, and the tree stays as it
is. -/
theorem emitAll_of_leadsSomewhere {artifacts : List Artifact}
    (hthere : ∀ artifact ∈ artifacts, journal.tree.leadsSomewhere
      (journal.emission.targetPath artifact.key) = true) :
    (journal.emitAll artifacts).tree = journal.tree ∧
      (journal.emitAll artifacts).emission =
        { journal.emission with
          manifest := artifacts.foldl
            (fun manifest artifact => manifest.record artifact .skipped)
            journal.emission.manifest } := by
  induction artifacts generalizing journal with
  | nil => exact ⟨rfl, rfl⟩
  | cons first rest ih =>
      obtain ⟨hfirst, hrest⟩ := List.forall_mem_cons.mp hthere
      have hattempt : journal.emission.attempt journal.tree first =
          (journal.tree, .ok .skipped) :=
        writeAbsent_of_leadsSomewhere hfirst
      unfold emitAll
      rw [List.foldl_cons, ← emitAll, emit_eq hattempt]
      exact ih hrest

/-- What the emissions below a root keep up, whatever types the artifacts are
of. -/
structure Sound (root : OutputPath) (journal : Journal) : Prop where
  rooted : journal.emission.root = root
  isDirectoryTree : journal.tree.IsDirectoryTree
  records : journal.emission.manifest.Records
    (journal.granted.map fun grant => .ofArtifact grant.1 grant.2)
  present : ∀ grant ∈ journal.granted,
    journal.tree.leadsSomewhere (root.join grant.1.key.filePath) = true

theorem sound_start (root : OutputPath) (htree : tree.IsDirectoryTree) :
    Sound root { emission := { root }, tree } where
  rooted := rfl
  isDirectoryTree := htree
  records := rfl
  present := by simp [granted]

theorem Sound.emit (hsound : journal.Sound root) {type : QualifiedName}
    (hproper : type.IsProper) (hkey : artifact.key = type.maskKey) :
    (journal.emit artifact).Sound root := by
  have htree := hsound.isDirectoryTree
  have hlater :=
    (journal.emission.attempt_again htree hproper hkey).1
  have hthere : ∀ outcome,
      (journal.emission.attempt journal.tree artifact).2 = .ok outcome →
      (journal.emission.attempt journal.tree artifact).1.leadsSomewhere
        (journal.emission.targetPath artifact.key) = true :=
    fun _ => journal.emission.leadsSomewhere_of_attempt htree hproper hkey
  rcases hattempt : journal.emission.attempt journal.tree artifact with
    ⟨after, result⟩
  rw [hattempt] at hlater hthere
  -- The tree only grows, so what was there for earlier answers is there still.
  have hpresent : ∀ grant ∈ journal.granted,
      after.leadsSomewhere (root.join grant.1.key.filePath) = true :=
    fun grant hgrant =>
      leadsSomewhere_grows htree.linkFree hlater.isDirectoryTree.linkFree
        hlater.grows (hsound.present grant hgrant)
  rw [emit_eq hattempt]
  cases result with
  | error fault =>
      constructor
      · exact hsound.rooted
      · exact hlater.isDirectoryTree
      · rw [granted_refused]
        exact hsound.records
      · rw [granted_refused]
        exact hpresent
  | ok outcome =>
      constructor
      · exact hsound.rooted
      · exact hlater.isDirectoryTree
      · rw [granted_concat, List.map_append]
        exact hsound.records.record artifact outcome
      · rw [granted_concat, List.forall_mem_append, List.forall_mem_singleton]
        refine ⟨hpresent, ?_⟩
        rw [← hsound.rooted]
        exact hthere outcome rfl

theorem Sound.emitAll (hsound : journal.Sound root)
    {artifacts : List Artifact}
    (hkeys : ∀ artifact ∈ artifacts, ∃ type : QualifiedName,
      type.IsProper ∧ artifact.key = type.maskKey) :
    (journal.emitAll artifacts).Sound root := by
  induction artifacts generalizing journal with
  | nil => exact hsound
  | cons first rest ih =>
      rw [List.forall_mem_cons] at hkeys
      obtain ⟨⟨type, hproper, hkey⟩, hrest⟩ := hkeys
      exact ih (hsound.emit hproper hkey) hrest

/-- Nothing is granted that has not been emitted. -/
theorem mem_of_mem_granted {artifacts : List Artifact}
    {grant : Artifact × Outcome}
    (hgrant : grant ∈ (journal.emitAll artifacts).granted) :
    grant.1 ∈ journal.answers.map Prod.fst ++ artifacts := by
  rw [← answers_emitAll]
  exact List.mem_map_of_mem (mem_granted_iff.mp hgrant)

/-- What holds of the emissions below a root from the first one on. -/
structure Faithful (root : OutputPath) (journal : Journal) : Prop where
  rooted : journal.emission.root = root
  isDirectoryTree : journal.tree.IsDirectoryTree
  records : journal.emission.manifest.Records
    (journal.granted.map fun grant => .ofArtifact grant.1 grant.2)
  keyed : ∀ grant ∈ journal.granted, grant.1.IsKeyed
  present : ∀ grant ∈ journal.granted,
    journal.tree.leadsSomewhere (root.join grant.1.key.filePath) = true

theorem faithful_start (root : OutputPath) (htree : tree.IsDirectoryTree) :
    Faithful root { emission := { root }, tree } where
  rooted := rfl
  isDirectoryTree := htree
  records := rfl
  keyed := by simp [granted]
  present := by simp [granted]

theorem Faithful.sound (hfaithful : journal.Faithful root) :
    journal.Sound root :=
  ⟨hfaithful.rooted, hfaithful.isDirectoryTree, hfaithful.records,
    hfaithful.present⟩

theorem Faithful.emit (hfaithful : journal.Faithful root)
    (hkeyed : artifact.IsKeyed) : (journal.emit artifact).Faithful root := by
  have hsound := hfaithful.sound.emit hkeyed.2 hkeyed.1
  refine ⟨hsound.rooted, hsound.isDirectoryTree, hsound.records, ?_,
    hsound.present⟩
  rcases hattempt : journal.emission.attempt journal.tree artifact with
    ⟨after, fault | outcome⟩
  · rw [emit_eq hattempt, granted_refused]
    exact hfaithful.keyed
  · rw [emit_eq hattempt, granted_concat, List.forall_mem_append,
      List.forall_mem_singleton]
    exact ⟨hfaithful.keyed, hkeyed⟩

theorem Faithful.emitAll (hfaithful : journal.Faithful root)
    {artifacts : List Artifact}
    (hkeyed : ∀ artifact ∈ artifacts, artifact.IsKeyed) :
    (journal.emitAll artifacts).Faithful root := by
  induction artifacts generalizing journal with
  | nil => exact hfaithful
  | cons first rest ih =>
      rw [List.forall_mem_cons] at hkeyed
      exact ih (hfaithful.emit hkeyed.1) hkeyed.2

/-- What the manifest of a journal tells of its answers and its tree. -/
structure Truthful (journal : Journal) : Prop where
  distinct :
    (journal.emission.manifest.artifacts.map ManifestEntry.key).Nodup
  /-- The first success of each key counts. -/
  outcomes : journal.emission.manifest.outcomes =
    firstOfEach Prod.fst
      (journal.granted.map fun grant => (grant.1.key, grant.2))
  keys : ∀ key,
    key ∈ journal.emission.manifest.artifacts.map ManifestEntry.key ↔
      ∃ artifact outcome, artifact.key = key ∧
        (artifact, .ok outcome) ∈ journal.answers
  files : ∀ entry ∈ journal.emission.manifest.artifacts,
    entry.file = entry.key.filePath.text ∧
      journal.emission.root.join (OutputPath.ofText entry.file) =
        journal.emission.targetPath entry.key ∧
      journal.tree.leadsSomewhere
        (journal.emission.root.join (OutputPath.ofText entry.file)) = true
  hasArtifact : ∀ type : QualifiedName,
    journal.emission.manifest.hasArtifact type.package type.name = true ↔
      ∃ artifact outcome, artifact.type = type ∧
        (artifact, .ok outcome) ∈ journal.answers

theorem Sound.exists_grant (hsound : journal.Sound root)
    {entry : ManifestEntry}
    (hentry : entry ∈ journal.emission.manifest.artifacts) :
    ∃ grant ∈ journal.granted, entry = .ofArtifact grant.1 grant.2 := by
  rw [hsound.records] at hentry
  obtain ⟨grant, hgrant, hsame⟩ :=
    List.mem_map.mp ((firstOfEach_sublist _ _).subset hentry)
  exact ⟨grant, hgrant, hsame.symm⟩

theorem Faithful.mem_keys_iff (hfaithful : journal.Faithful root)
    {key : QualifiedName} :
    key ∈ journal.emission.manifest.artifacts.map ManifestEntry.key ↔
      ∃ artifact outcome, artifact.key = key ∧
        (artifact, .ok outcome) ∈ journal.answers := by
  rw [hfaithful.records, mem_keys_firstOfEach, List.map_map, List.mem_map]
  constructor
  · rintro ⟨⟨artifact, outcome⟩, hgrant, rfl⟩
    exact ⟨artifact, outcome, rfl, mem_granted_iff.mp hgrant⟩
  · rintro ⟨artifact, outcome, rfl, hanswer⟩
    exact ⟨_, mem_granted_iff.mpr hanswer, rfl⟩

/-- Entries are kept by key and looked up by type, which comes to the same
since different types have different keys. -/
theorem Faithful.exists_entry_iff (hfaithful : journal.Faithful root)
    {type : QualifiedName} :
    (∃ entry ∈ journal.emission.manifest.artifacts,
        entry.package = type.package ∧ entry.typeName = type.name) ↔
      ∃ artifact outcome, artifact.type = type ∧
        (artifact, .ok outcome) ∈ journal.answers := by
  have htype : ∀ grant ∈ journal.granted,
      grant.1.key.package = grant.1.type.package := fun grant hgrant => by
    rw [(hfaithful.keyed grant hgrant).1]
    rfl
  constructor
  · rintro ⟨entry, hentry, hpackage, hname⟩
    obtain ⟨⟨artifact, outcome⟩, hgrant, rfl⟩ :=
      hfaithful.sound.exists_grant hentry
    refine ⟨artifact, outcome, ?_, mem_granted_iff.mp hgrant⟩
    rw [QualifiedName.mk.injEq]
    exact ⟨(htype _ hgrant).symm.trans hpackage, hname⟩
  · rintro ⟨artifact, outcome, rfl, hanswer⟩
    have hgrant := mem_granted_iff.mpr hanswer
    have hmem := hfaithful.mem_keys_iff.mpr ⟨artifact, outcome, rfl, hanswer⟩
    obtain ⟨entry, hentry, hkey⟩ := List.mem_map.mp hmem
    obtain ⟨other, hother, rfl⟩ := hfaithful.sound.exists_grant hentry
    have hsame : other.1.key = artifact.key := hkey
    rw [(hfaithful.keyed other hother).1, (hfaithful.keyed _ hgrant).1] at hsame
    have hequal := QualifiedName.maskKey_injective hsame
    refine ⟨_, hentry, (htype other hother).trans ?_, ?_⟩
    · rw [hequal]
    · exact congrArg QualifiedName.name hequal

theorem Faithful.truthful (hfaithful : journal.Faithful root) :
    journal.Truthful := by
  have hrecords := hfaithful.records
  constructor
  · rw [hrecords]
    exact nodup_keys_firstOfEach _ _
  · rw [hrecords.outcomes_eq, List.map_map]
    rfl
  · exact fun key => hfaithful.mem_keys_iff
  · intro entry hentry
    obtain ⟨grant, hmem, rfl⟩ := hfaithful.sound.exists_grant hentry
    obtain ⟨hkey, hproper⟩ := hfaithful.keyed grant hmem
    obtain ⟨hfile, hback⟩ := hproper.file_eq hkey grant.2
    have hpresent := hfaithful.present grant hmem
    rw [hback, hfaithful.rooted]
    refine ⟨hfile, ?_, hpresent⟩
    unfold Emission.targetPath
    rw [hfaithful.rooted]
    rfl
  · intro type
    rw [← hfaithful.exists_entry_iff]
    unfold Manifest.hasArtifact Manifest.entry?
    rw [List.find?_isSome]
    simp

end Journal

/-! ## Runs -/

namespace RunState

/-- The manifest of a state records what its report says was emitted. -/
def Agrees (state : RunState) : Prop :=
  ∃ entries, state.emission.manifest.Records entries ∧
    (entries.map fun entry => (entry.key, entry.outcome)) =
      state.report.emitted

variable {state : RunState}

theorem agrees_start (root : OutputPath) (tree : OutputTree) :
    Agrees { emission := { root }, tree } :=
  ⟨[], rfl, rfl⟩

/-- What an emission adds to the report it adds to the manifest. -/
theorem Agrees.emit (hagrees : state.Agrees) (declaration : Declaration)
    (synthesis : Synthesis) :
    (state.emit declaration synthesis).Agrees := by
  obtain ⟨entries, hrecords, hreport⟩ := hagrees
  unfold RunState.emit
  rw [state.emission.emit_eq_recorded]
  rcases state.emission.attempt state.tree synthesis.artifact with
    ⟨after, fault | outcome⟩
  · exact ⟨entries, hrecords, hreport⟩
  · refine ⟨_, hrecords.record synthesis.artifact outcome, ?_⟩
    rw [List.map_append, hreport]
    rfl

end RunState

namespace Schema

variable {schema : Schema} {config : Config} {declaration : Declaration}
  {state : RunState}

theorem Processed.agrees {result : RunState × Ending}
    (hprocessed : schema.Processed config declaration state result)
    (hagrees : state.Agrees) : result.1.Agrees := by
  have hannounced : (state.announce declaration
      (schema.resolve declaration.id)).Agrees := by
    obtain ⟨entries, hrecords, hreport⟩ := hagrees
    refine ⟨entries, ?_, ?_⟩
    · rw [(state.announce_tree _ _).2]
      exact hrecords
    · rw [hreport]
      unfold RunState.announce
      split
      · rfl
      · rfl
  have hreadied : (schema.readied declaration state).Agrees := hannounced
  cases hprocessed with
  | notEligible _ => exact hannounced
  | emitted _ _ => exact hreadied.emit _ _
  | failed _ _ => exact hannounced
  | brokenOff _ _ => exact hannounced

theorem Through.agrees {models : List Declaration} {after : RunState}
    (hthrough : schema.Through config state models after)
    (hagrees : state.Agrees) : after.Agrees := by
  induction hthrough with
  | done => exact hagrees
  | next hprocess _ ih => exact ih ((processed_of_eq hprocess).agrees hagrees)

/-- In a run over different names no key comes twice, so the manifest lists
every emission that the report lists. -/
theorem Through.outcomes_eq {root : OutputPath} {tree : OutputTree}
    (hdistinct : schema.names.Nodup)
    (hthrough :
      schema.Through config { emission := { root }, tree } schema.models state) :
    state.emission.manifest.outcomes = state.report.emitted := by
  obtain ⟨entries, hrecords, hreport⟩ :=
    hthrough.agrees (RunState.agrees_start root tree)
  obtain ⟨ledger, hmodels, htallied⟩ := hthrough.tallied
  have hkeys : (state.report.emitted.map Prod.fst).Nodup := by
    refine List.Nodup.sublist (htallied.emitted_sublist hmodels) ?_
    have hids : (schema.models.map Declaration.id).Nodup :=
      hdistinct.sublist (List.filter_sublist.map Declaration.id)
    simpa [Function.comp_def] using hids.map QualifiedName.maskKey_injective
  rw [hrecords.outcomes_eq, hreport, firstOfEach_eq_self hkeys]

end Schema

/-- A manifest tells the truth.  Whatever keyed artifacts are emitted below a
root, with repetitions and failures, the manifest has one entry for each key
that succeeded, in the order and with the outcome of its first success; there
is something at the file of each entry; and the types that are found are those
with a success.  After a run over a registry the manifest lists the emissions
of the report. -/
theorem manifest_truthful (root : OutputPath) :
    (∀ tree : OutputTree, tree.IsDirectoryTree →
      ∀ artifacts : List Artifact,
        (∀ artifact ∈ artifacts, artifact.IsKeyed) →
        let journal := Journal.emitAll { emission := { root }, tree } artifacts
        journal.emission.root = root ∧
          journal.answers.map Prod.fst = artifacts ∧ journal.Truthful) ∧
      ∀ (declared : List Declaration) (marker : String) (resolved : Bool)
        (config : Config) (tree : OutputTree) (state : RunState),
        ((Registry.ofList declared).toSchema marker resolved).run config
            { root } tree = (state, .finished) →
          state.emission.manifest.outcomes = state.report.emitted := by
  constructor
  · intro tree htree artifacts hkeyed journal
    have hfaithful : journal.Faithful root :=
      (Journal.faithful_start root htree).emitAll hkeyed
    exact ⟨hfaithful.rooted, Journal.answers_emitAll _ _, hfaithful.truthful⟩
  · intro declared marker resolved config tree state hrun
    cases resolved with
    | false =>
        obtain ⟨rfl, _⟩ := Prod.mk.inj hrun
        rfl
    | true =>
        obtain ⟨after, hthrough, rfl⟩ :=
          Schema.run_through hrun (Schema.not_halted_of_resolved rfl hrun)
        refine hthrough.outcomes_eq ?_
        exact (Registry.indexed_ofList declared).nodup_names

/-- Artifacts of which the second one repeats the first and the third one has
a file in its way. -/
def Journal.sample : List Artifact :=
  [artifact "models" "Card" "// first", artifact "models" "Card" "// second",
    artifact "models::billing" "Invoice" "// in vain",
    artifact "models" "Inner" "// last"]
where
  artifact (package : Package) (name text : String) : Artifact :=
    { key := QualifiedName.maskKey ⟨package, name⟩
      type := ⟨package, name⟩
      text := text }

open Samples in
theorem obstructed_manifest_truthful :
    obstructed.IsDirectoryTree ∧
      (∀ artifact ∈ Journal.sample, artifact.IsKeyed) ∧
      (Journal.emitAll { emission := { root := ["out"] }, tree := obstructed }
        Journal.sample).Truthful ∧
      let result := ((Registry.ofList
        [invoice, model "Inner" [secret "value" text]]).toSchema "Model"
          true).run {} { root := ["out"] } obstructed
      result.2 = .finished ∧
        result.1.emission.manifest.outcomes = result.1.report.emitted := by
  have htree : obstructed.IsDirectoryTree := by decide
  have hkeyed : ∀ artifact ∈ Journal.sample, artifact.IsKeyed := by
    decide +kernel
  have hfinished : (((Registry.ofList
      [invoice, model "Inner" [secret "value" text]]).toSchema "Model"
        true).run {} { root := ["out"] } obstructed).2 = .finished := by
    decide +kernel
  obtain ⟨hemitted, hrun⟩ := manifest_truthful ["out"]
  exact ⟨htree, hkeyed, (hemitted obstructed htree _ hkeyed).2.2, hfinished,
    hrun _ "Model" true {} obstructed _ (Prod.ext rfl hfinished)⟩

end RecordMasking

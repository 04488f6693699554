import Mathlib.Logic.Function.Basic
import RecordMasking.Proofs.Writing

/-!
# Histories of emission

Any number of emissions share one tree, and their calls come in any order.
Each call keeps every file but indexes and manifests, and an emission adds
its own file where nothing was or no file at all.  So over a whole history an
artifact is written at most once and stays as it was written.
-/

namespace RecordMasking

/-- The places of indexes and manifests, which are written over. -/
def Place.IsListing (place : Place) : Prop :=
  place.getLast? = some indexFile ∨ place.getLast? = some manifestFile

instance (place : Place) : Decidable place.IsListing :=
  inferInstanceAs (Decidable (_ ∨ _))

open OutputTree in
theorem Place.not_isListing_temporary (directory : Place) (n : Nat) :
    ¬ Place.IsListing (directory ++ [temporaryName n]) := by
  unfold IsListing
  rw [List.getLast?_concat, Option.some.injEq, Option.some.injEq]
  rintro (hindex | hmanifest)
  · exact isFileName_indexFile.ne_temporary n hindex.symm
  · exact isFileName_manifestFile.ne_temporary n hmanifest.symm

/-- Writes a text unless its path leads to something. -/
def OutputTree.writeAbsent (tree : OutputTree) (path : OutputPath)
    (text : String) : OutputTree × Except Fault Outcome :=
  if tree.leadsSomewhere path then (tree, .ok .skipped)
  else tree.writeNew path text

namespace Emission

open OutputTree

/-! ## One emission -/

/-- What emitting a text to a path does to a tree, by the result. -/
inductive Emits (path : OutputPath) (text : String)
    (before after : OutputTree) : Except Fault Outcome → Prop
  | written
      (hfree : before.leadsSomewhere path = false)
      (hvacant : before.entry? path.place = none)
      (hthere : after.entry? path.place = some (.file text))
      (hothers : ∀ place, place ≠ path.place →
        after.entry? place = before.entry? place ∨
          before.entry? place = none ∧
            after.entry? place = some .directory ∧
            path.parent.Passes place) :
      Emits path text before after (.ok .written)
  | skipped (hadds : AddsDirectories path.parent.Passes before after) :
      Emits path text before after (.ok .skipped)
  | refused (fault : Fault)
      (hadds : AddsDirectories path.parent.Passes before after) :
      Emits path text before after (.error fault)

variable {emission : Emission} {tree after : OutputTree}

theorem Emits.grows {path : OutputPath} {text : String}
    {result : Except Fault Outcome}
    (hemits : Emits path text tree after result) : tree.Grows after := by
  cases hemits with
  | written _ hvacant _ hothers =>
      intro place entry hentry
      have hplace : place ≠ path.place := by
        rintro rfl
        simp [hvacant] at hentry
      rcases hothers place hplace with hsame | ⟨hnone, _⟩
      · rw [hsame, hentry]
      · simp [hnone] at hentry
  | skipped hadds => exact hadds.grows
  | refused _ hadds => exact hadds.grows

theorem Emits.gained {path : OutputPath} {text : String}
    {result : Except Fault Outcome}
    (hemits : Emits path text tree after result) {place : Place}
    {now : String} (hfile : after.entry? place = some (.file now)) :
    tree.entry? place = some (.file now) ∨
      result = .ok .written ∧ place = path.place ∧ now = text := by
  cases hemits with
  | written _ _ hthere hothers =>
      by_cases hplace : place = path.place
      · rw [hplace, hthere] at hfile
        injection hfile with hfile
        injection hfile with hfile
        exact .inr ⟨rfl, hplace, hfile.symm⟩
      · rcases hothers place hplace with hsame | ⟨_, hdirectory, _⟩
        · exact .inl (hsame ▸ hfile)
        · simp [hdirectory] at hfile
  | skipped hadds => exact .inl ((hadds.files_iff place now).mp hfile)
  | refused _ hadds => exact .inl ((hadds.files_iff place now).mp hfile)

theorem emits_writeNew (hlinks : tree.LinkFree) {path : OutputPath}
    {text : String} (hfree : tree.leadsSomewhere path = false)
    (hpath : ∃ lead last, path = lead ++ [last] ∧ IsArtifactName last)
    {result : Except Fault Outcome}
    (hwrite : tree.writeNew path text = (after, result)) :
    after.LinkFree ∧ Emits path text tree after result := by
  obtain ⟨lead, last, rfl, hname⟩ := hpath
  obtain ⟨hafter, hcases⟩ := writeNew_spec hlinks hname.isFileName hwrite
  refine ⟨hafter, ?_⟩
  rcases hcases with ⟨rfl, made, hadds, hvacant, rfl⟩ | ⟨hresult, hadds⟩
  · refine .written hfree ?_ (entry?_set_self
      (not_isStart_of_vacant hvacant) _) ?_
    · by_contra htaken
      obtain ⟨entry, hentry⟩ := Option.ne_none_iff_exists'.mp htaken
      simp [hadds.grows _ _ hentry] at hvacant
    · intro place hplace
      rw [entry?_set_of_ne hplace]
      exact hadds place
  · match result with
    | .ok .written => exact absurd rfl hresult
    | .ok .skipped => exact .skipped hadds
    | .error fault => exact .refused fault hadds

/-- What is tried for an artifact before it is recorded. -/
def attempt (emission : Emission) (tree : OutputTree) (artifact : Artifact) :
    OutputTree × Except Fault Outcome :=
  tree.writeAbsent (emission.targetPath artifact.key) artifact.text

/-- The emission after an attempt with the given result. -/
def recorded (emission : Emission) (artifact : Artifact) :
    Except Fault Outcome → Emission
  | .ok outcome =>
      { emission with manifest := emission.manifest.record artifact outcome }
  | .error _ => emission

theorem recorded_root (emission : Emission) (artifact : Artifact)
    (result : Except Fault Outcome) :
    (emission.recorded artifact result).root = emission.root := by
  cases result with
  | ok outcome => rfl
  | error fault => rfl

theorem emit_eq_recorded (emission : Emission) (tree : OutputTree)
    (artifact : Artifact) :
    emission.emit tree artifact =
      (emission.recorded artifact (emission.attempt tree artifact).2,
        emission.attempt tree artifact) := by
  unfold emit attempt writeAbsent
  dsimp only
  rcases (if tree.leadsSomewhere (emission.targetPath artifact.key) then
      (tree, .ok .skipped)
    else
      tree.writeNew (emission.targetPath artifact.key) artifact.text :
        OutputTree × Except Fault Outcome) with ⟨after, fault | outcome⟩
  · rfl
  · rfl

theorem emit_eq (emission : Emission) (tree : OutputTree)
    (artifact : Artifact) :
    ∃ next : Emission,
      emission.emit tree artifact =
          (next, emission.attempt tree artifact) ∧
        next.root = emission.root ∧
        ∀ fault, (emission.attempt tree artifact).2 = .error fault →
          next = emission := by
  refine ⟨_, emission.emit_eq_recorded tree artifact,
    emission.recorded_root artifact _, fun fault hfault => ?_⟩
  rw [hfault]
  rfl

theorem emits_attempt (emission : Emission) (hlinks : tree.LinkFree) {artifact : Artifact}
    (hkey : ∃ type : QualifiedName, artifact.key = type.maskKey) :
    (emission.attempt tree artifact).1.LinkFree ∧
      Emits (emission.targetPath artifact.key) artifact.text tree
        (emission.attempt tree artifact).1
        (emission.attempt tree artifact).2 := by
  obtain ⟨type, hkey⟩ := hkey
  have hpath := exists_targetPath emission type
  rw [← hkey] at hpath
  unfold attempt writeAbsent
  split
  next => exact ⟨hlinks, .skipped (.refl _ _)⟩
  next hfree =>
    exact emits_writeNew hlinks (by simpa using hfree) hpath rfl

/-! ## Indexes and manifests -/

/-- An index or a manifest is written where directories have been made. -/
theorem writeOver_listing {made : OutputTree} {added : Place → Prop}
    (hmade : made.LinkFree) (hadds : AddsDirectories added tree made)
    {base : OutputPath} {last : String} (hlast : IsFileName last)
    (hlisting : last = indexFile ∨ last = manifestFile) {text : String}
    {result : Except Fault Unit}
    (hover : made.writeOver (base.join [last]) text = (after, result)) :
    after.LinkFree ∧ Keeps Place.IsListing tree after := by
  obtain ⟨lead, hpath⟩ := OutputPath.exists_join_concat base [] last
  rw [List.nil_append] at hpath
  rw [hpath] at hover
  obtain ⟨hafter, hkeeps⟩ := writeOver_spec hmade hlast hover
  refine ⟨hafter, (hadds.keeps _).trans (hkeeps.mono ?_)⟩
  rintro place rfl
  have hend := place_getLast? lead hlast
  rcases hlisting with rfl | rfl
  · exact .inl hend
  · exact .inr hend

theorem writePackageIndex_spec (emission : Emission)
    (hlinks : tree.LinkFree) {package : Package}
    {result : Except Fault OutputPath}
    (hwrite : emission.writePackageIndex tree package = (after, result)) :
    after.LinkFree ∧ Keeps Place.IsListing tree after := by
  unfold writePackageIndex at hwrite
  dsimp only at hwrite
  split at hwrite
  next made obstacle hmake =>
    obtain ⟨rfl, rfl⟩ := Prod.mk.inj hwrite
    obtain ⟨hmade, hadds, _⟩ := makeDirectories_spec hlinks hmake
    exact ⟨hmade, hadds.keeps _⟩
  next made place hmake =>
    obtain ⟨hmade, hadds, _⟩ := makeDirectories_spec hlinks hmake
    split at hwrite
    next =>
      obtain ⟨rfl, _⟩ := Prod.mk.inj hwrite
      exact ⟨hmade, hadds.keeps _⟩
    next =>
      split at hwrite
      next hover =>
        obtain ⟨rfl, _⟩ := Prod.mk.inj hwrite
        exact writeOver_listing hmade hadds isFileName_indexFile (.inl rfl)
          hover
      next hover =>
        obtain ⟨rfl, _⟩ := Prod.mk.inj hwrite
        exact writeOver_listing hmade hadds isFileName_indexFile (.inl rfl)
          hover

theorem writeIndexes_spec (emission : Emission) (packages : List Package)
    (hlinks : tree.LinkFree) {result : Except Fault (List OutputPath)}
    (hwrite : emission.writeIndexes tree packages = (after, result)) :
    after.LinkFree ∧ Keeps Place.IsListing tree after := by
  induction packages generalizing tree result with
  | nil =>
      obtain ⟨rfl, _⟩ := Prod.mk.inj hwrite
      exact ⟨hlinks, .refl _ _⟩
  | cons package rest ih =>
      unfold writeIndexes at hwrite
      split at hwrite
      next hfirst =>
        obtain ⟨rfl, _⟩ := Prod.mk.inj hwrite
        exact emission.writePackageIndex_spec hlinks hfirst
      next hfirst =>
        obtain ⟨hnext, hkeeps⟩ :=
          emission.writePackageIndex_spec hlinks hfirst
        split at hwrite
        next hrest =>
          obtain ⟨rfl, _⟩ := Prod.mk.inj hwrite
          obtain ⟨hlast, hmore⟩ := ih hnext hrest
          exact ⟨hlast, hkeeps.trans hmore⟩
        next hrest =>
          obtain ⟨rfl, _⟩ := Prod.mk.inj hwrite
          obtain ⟨hlast, hmore⟩ := ih hnext hrest
          exact ⟨hlast, hkeeps.trans hmore⟩

theorem writeManifest_spec (emission : Emission) (hlinks : tree.LinkFree)
    {result : Except Fault OutputPath}
    (hwrite : emission.writeManifest tree = (after, result)) :
    after.LinkFree ∧ Keeps Place.IsListing tree after := by
  unfold writeManifest at hwrite
  dsimp only at hwrite
  split at hwrite
  next made obstacle hmake =>
    obtain ⟨rfl, rfl⟩ := Prod.mk.inj hwrite
    obtain ⟨hmade, hadds, _⟩ := makeDirectories_spec hlinks hmake
    exact ⟨hmade, hadds.keeps _⟩
  next made _ hmake =>
    obtain ⟨hmade, hadds, _⟩ := makeDirectories_spec hlinks hmake
    split at hwrite
    next hover =>
      obtain ⟨rfl, _⟩ := Prod.mk.inj hwrite
      exact writeOver_listing hmade hadds isFileName_manifestFile (.inr rfl)
        hover
    next hover =>
      obtain ⟨rfl, _⟩ := Prod.mk.inj hwrite
      exact writeOver_listing hmade hadds isFileName_manifestFile (.inr rfl)
        hover

end Emission

/-! ## Sessions -/

/-- The emissions at work and the tree they share. -/
structure Session where
  emissions : Nat → Emission
  tree : OutputTree

inductive Call where
  | emit (context : Nat) (artifact : Artifact)
  | writeIndex (context : Nat)
  | writeManifest (context : Nat)
deriving DecidableEq, Repr

inductive Answer where
  | emitted (result : Except Fault Outcome)
  | indexed (result : Except Fault (List OutputPath))
  | recorded (result : Except Fault OutputPath)

/-- An artifact is emitted under the key of a type. -/
def Call.Keyed : Call → Prop
  | .emit _ artifact =>
      ∃ type : QualifiedName, artifact.key = type.maskKey
  | _ => True

namespace Session

def step (session : Session) : Call → Session × Answer
  | .emit context artifact =>
      let (emission, tree, result) :=
        (session.emissions context).emit session.tree artifact
      ({ emissions := Function.update session.emissions context emission
         tree },
        .emitted result)
  | .writeIndex context =>
      let (tree, result) :=
        (session.emissions context).writeIndex session.tree
      ({ session with tree }, .indexed result)
  | .writeManifest context =>
      let (tree, result) :=
        (session.emissions context).writeManifest session.tree
      ({ session with tree }, .recorded result)

def after (session : Session) : List Call → Session
  | [] => session
  | call :: rest => ((session.step call).1).after rest

def target (session : Session) (context : Nat) (artifact : Artifact) :
    OutputPath :=
  (session.emissions context).targetPath artifact.key

/-- The place and the text of the artifact that a call answers to have
written. -/
def written (session : Session) (call : Call) : List (Place × String) :=
  match call, (session.step call).2 with
  | .emit context artifact, .emitted (.ok .written) =>
      [((session.target context artifact).place, artifact.text)]
  | _, _ => []

def allWritten (session : Session) : List Call → List (Place × String)
  | [] => []
  | call :: rest =>
      session.written call ++ ((session.step call).1).allWritten rest

/-- What one call does. -/
structure Effect (session : Session) (call : Call) : Prop where
  linkFree : (session.step call).1.tree.LinkFree
  occupied : ∀ place, session.tree.entry? place ≠ none →
    OutputTree.entry? (session.step call).1.tree place ≠ none
  kept : ∀ place text, ¬ place.IsListing →
    session.tree.entry? place = some (.file text) →
    OutputTree.entry? (session.step call).1.tree place = some (.file text)
  gained : ∀ place text, ¬ place.IsListing →
    OutputTree.entry? (session.step call).1.tree place = some (.file text) →
    session.tree.entry? place = some (.file text) ∨
      (place, text) ∈ session.written call
  noTemporary : ∀ directory n text,
    OutputTree.entry? (session.step call).1.tree
        (directory ++ [OutputTree.temporaryName n]) = some (.file text) →
      session.tree.entry? (directory ++ [OutputTree.temporaryName n]) =
        some (.file text)
  emits : ∀ context artifact result, call = .emit context artifact →
    (session.step call).2 = .emitted result →
    Emission.Emits (session.target context artifact) artifact.text
      session.tree (session.step call).1.tree result
  unrecorded : ∀ fault, (session.step call).2 = .emitted (.error fault) →
    (session.step call).1.emissions = session.emissions

theorem step_emit (session : Session) (context : Nat)
    (artifact : Artifact) :
    let attempt :=
      (session.emissions context).attempt session.tree artifact
    ∃ next : Emission,
      session.step (.emit context artifact) =
          ({ emissions := Function.update session.emissions context next
             tree := attempt.1 },
            .emitted attempt.2) ∧
        ∀ fault, attempt.2 = .error fault →
          next = session.emissions context := by
  intro attempt
  obtain ⟨next, hemit, _, hsame⟩ :=
    (session.emissions context).emit_eq session.tree artifact
  refine ⟨next, ?_, hsame⟩
  rw [step, hemit]

theorem mem_written_iff {session : Session} {call : Call} {place : Place}
    {text : String} :
    (place, text) ∈ session.written call ↔
      ∃ context artifact, call = .emit context artifact ∧
        (session.step call).2 = .emitted (.ok .written) ∧
        place = (session.target context artifact).place ∧
        text = artifact.text := by
  unfold written
  split
  next context artifact hanswer =>
    rw [List.mem_singleton, Prod.mk.injEq, hanswer]
    constructor
    · rintro ⟨rfl, rfl⟩
      exact ⟨context, artifact, rfl, rfl, rfl, rfl⟩
    · rintro ⟨_, _, hcall, _, hplace, htext⟩
      obtain ⟨rfl, rfl⟩ := Call.emit.inj hcall
      exact ⟨hplace, htext⟩
  next call _ hother =>
    constructor
    · intro hnone
      simp at hnone
    · rintro ⟨context, artifact, rfl, hanswer, _⟩
      exact absurd hanswer (hother context artifact rfl)

theorem last_of_mem_written {session : Session} {call : Call}
    (hkeyed : call.Keyed) {place : Place} {text : String}
    (hwritten : (place, text) ∈ session.written call) :
    ∃ last, place.getLast? = some last ∧ IsArtifactName last := by
  obtain ⟨context, artifact, rfl, _, rfl, _⟩ := mem_written_iff.mp hwritten
  obtain ⟨type, hkey⟩ := hkeyed
  obtain ⟨lead, last, htarget, hname⟩ :=
    exists_targetPath (session.emissions context) type
  rw [← hkey] at htarget
  refine ⟨last, ?_, hname⟩
  unfold target
  rw [htarget]
  exact OutputTree.place_getLast? lead hname.isFileName

theorem not_isListing_of_mem_written {session : Session} {call : Call}
    (hkeyed : call.Keyed) {place : Place} {text : String}
    (hwritten : (place, text) ∈ session.written call) :
    ¬ place.IsListing := by
  obtain ⟨last, hlast, hname⟩ := last_of_mem_written hkeyed hwritten
  unfold Place.IsListing
  rw [hlast, Option.some.injEq, Option.some.injEq]
  rintro (rfl | rfl)
  · exact not_isArtifactName_indexFile hname
  · exact not_isArtifactName_manifestFile hname

theorem effect_emit {session : Session} (hlinks : session.tree.LinkFree)
    {context : Nat} {artifact : Artifact}
    (hkeyed : (Call.emit context artifact).Keyed) :
    session.Effect (.emit context artifact) := by
  obtain ⟨next, hstep, hsame⟩ := session.step_emit context artifact
  obtain ⟨hafter, hemits⟩ :=
    (session.emissions context).emits_attempt hlinks hkeyed
  have hgained : ∀ place text,
      OutputTree.entry? (session.step (.emit context artifact)).1.tree
          place = some (.file text) →
      session.tree.entry? place = some (.file text) ∨
        (place, text) ∈ session.written (.emit context artifact) := by
    intro place text hfile
    rw [hstep] at hfile
    rcases hemits.gained hfile with hold | ⟨hresult, rfl, rfl⟩
    · exact .inl hold
    · refine .inr (mem_written_iff.mpr
        ⟨context, artifact, rfl, ?_, rfl, rfl⟩)
      rw [hstep, hresult]
  refine ⟨?_, ?_, ?_, fun place text _ => hgained place text, ?_, ?_, ?_⟩
  · rw [hstep]
    exact hafter
  · intro place hplace
    obtain ⟨entry, hentry⟩ := Option.ne_none_iff_exists'.mp hplace
    rw [hstep, hemits.grows _ _ hentry]
    simp
  · intro place text _ hfile
    rw [hstep]
    exact hemits.grows _ _ hfile
  · intro directory n text hfile
    refine (hgained _ text hfile).resolve_right fun hwritten => ?_
    obtain ⟨last, hlast, hname⟩ := last_of_mem_written hkeyed hwritten
    rw [List.getLast?_concat] at hlast
    exact hname.isFileName.ne_temporary n (Option.some.inj hlast).symm
  · intro _ _ result hcall hanswer
    obtain ⟨rfl, rfl⟩ := Call.emit.inj hcall
    rw [hstep] at hanswer ⊢
    obtain rfl := Answer.emitted.inj hanswer
    exact hemits
  · intro fault hanswer
    rw [hstep] at hanswer ⊢
    rw [hsame fault (Answer.emitted.inj hanswer)]
    exact Function.update_eq_self _ _

theorem effect_of_keeps {session : Session} {call : Call}
    (hlinks : session.tree.LinkFree)
    (hafter : (session.step call).1.tree.LinkFree)
    (hkeeps : OutputTree.Keeps Place.IsListing session.tree
      (session.step call).1.tree)
    (hanswer : ∀ result, (session.step call).2 ≠ .emitted result) :
    session.Effect call where
  linkFree := hafter
  occupied _ hplace := hkeeps.occupied hlinks hplace
  kept place text hplace := (hkeeps.files place hplace text).mpr
  gained place text hplace hfile :=
    .inl ((hkeeps.files place hplace text).mp hfile)
  noTemporary directory n text :=
    (hkeeps.files _ (Place.not_isListing_temporary directory n) text).mp
  emits _ _ result _ hresult := absurd hresult (hanswer result)
  unrecorded _ hresult := absurd hresult (hanswer _)

theorem effect_step {session : Session} (hlinks : session.tree.LinkFree)
    {call : Call} (hkeyed : call.Keyed) : session.Effect call := by
  cases call with
  | emit context artifact => exact effect_emit hlinks hkeyed
  | writeIndex context =>
      obtain ⟨hafter, hkeeps⟩ :=
        (session.emissions context).writeIndexes_spec _ hlinks rfl
      exact effect_of_keeps hlinks hafter hkeeps
        fun _ hanswer => by cases hanswer
  | writeManifest context =>
      obtain ⟨hafter, hkeeps⟩ :=
        (session.emissions context).writeManifest_spec hlinks rfl
      exact effect_of_keeps hlinks hafter hkeeps
        fun _ hanswer => by cases hanswer

/-! ## Histories -/

theorem linkFree_after {session : Session} (hlinks : session.tree.LinkFree)
    {calls : List Call} (hkeyed : ∀ call ∈ calls, call.Keyed) :
    (session.after calls).tree.LinkFree := by
  induction calls generalizing session with
  | nil => exact hlinks
  | cons call rest ih =>
      rw [List.forall_mem_cons] at hkeyed
      exact ih (effect_step hlinks hkeyed.1).linkFree hkeyed.2

theorem kept_after {session : Session} (hlinks : session.tree.LinkFree)
    {calls : List Call} (hkeyed : ∀ call ∈ calls, call.Keyed)
    {place : Place} (hplace : ¬ place.IsListing) {text : String}
    (hfile : session.tree.entry? place = some (.file text)) :
    OutputTree.entry? (session.after calls).tree place = some (.file text) := by
  induction calls generalizing session with
  | nil => exact hfile
  | cons call rest ih =>
      rw [List.forall_mem_cons] at hkeyed
      have heffect := effect_step hlinks hkeyed.1
      exact ih heffect.linkFree hkeyed.2
        (heffect.kept place text hplace hfile)

/-- Where a call writes, nothing was, and then there is the text. -/
theorem Effect.of_mem_written {session : Session} {call : Call}
    (heffect : session.Effect call) {place : Place} {text : String}
    (hwritten : (place, text) ∈ session.written call) :
    session.tree.entry? place = none ∧
      OutputTree.entry? (session.step call).1.tree place = some (.file text) := by
  obtain ⟨context, artifact, hcall, hanswer, rfl, rfl⟩ :=
    mem_written_iff.mp hwritten
  have hemits := heffect.emits context artifact _ hcall hanswer
  cases hemits with
  | written _ hvacant hthere _ => exact ⟨hvacant, hthere⟩

theorem vacant_of_mem_allWritten {session : Session}
    (hlinks : session.tree.LinkFree) {calls : List Call}
    (hkeyed : ∀ call ∈ calls, call.Keyed) {place : Place} {text : String}
    (hwritten : (place, text) ∈ session.allWritten calls) :
    session.tree.entry? place = none := by
  induction calls generalizing session with
  | nil => simp [allWritten] at hwritten
  | cons call rest ih =>
      rw [List.forall_mem_cons] at hkeyed
      have heffect := effect_step hlinks hkeyed.1
      rcases List.mem_append.mp hwritten with hnow | hlater
      · exact (heffect.of_mem_written hnow).1
      · by_contra hplace
        exact heffect.occupied place hplace
          (ih heffect.linkFree hkeyed.2 hlater)

theorem nodup_written (session : Session) (call : Call) :
    ((session.written call).map Prod.fst).Nodup := by
  unfold written
  split
  · exact List.nodup_singleton _
  · exact List.nodup_nil

theorem nodup_allWritten {session : Session}
    (hlinks : session.tree.LinkFree) {calls : List Call}
    (hkeyed : ∀ call ∈ calls, call.Keyed) :
    ((session.allWritten calls).map Prod.fst).Nodup := by
  induction calls generalizing session with
  | nil => exact List.nodup_nil
  | cons call rest ih =>
      rw [List.forall_mem_cons] at hkeyed
      have heffect := effect_step hlinks hkeyed.1
      rw [allWritten, List.map_append]
      refine List.Nodup.append (nodup_written session call)
        (ih heffect.linkFree hkeyed.2) ?_
      intro place hnow hlater
      obtain ⟨⟨_, text⟩, hwritten, rfl⟩ := List.mem_map.mp hnow
      obtain ⟨⟨_, other⟩, hagain, rfl⟩ := List.mem_map.mp hlater
      have hthere := (heffect.of_mem_written hwritten).2
      have hvacant :=
        vacant_of_mem_allWritten heffect.linkFree hkeyed.2 hagain
      simp [hthere] at hvacant

theorem there_of_mem_allWritten {session : Session}
    (hlinks : session.tree.LinkFree) {calls : List Call}
    (hkeyed : ∀ call ∈ calls, call.Keyed) {place : Place} {text : String}
    (hwritten : (place, text) ∈ session.allWritten calls) :
    OutputTree.entry? (session.after calls).tree place = some (.file text) := by
  induction calls generalizing session with
  | nil => simp [allWritten] at hwritten
  | cons call rest ih =>
      rw [List.forall_mem_cons] at hkeyed
      have heffect := effect_step hlinks hkeyed.1
      rcases List.mem_append.mp hwritten with hnow | hlater
      · exact kept_after heffect.linkFree hkeyed.2
          (not_isListing_of_mem_written hkeyed.1 hnow)
          (heffect.of_mem_written hnow).2
      · exact ih heffect.linkFree hkeyed.2 hlater

theorem effect_of_history {session : Session}
    (hlinks : session.tree.LinkFree) {earlier later : List Call}
    {call : Call} (hkeyed : ∀ other ∈ earlier ++ call :: later, other.Keyed) :
    (session.after earlier).Effect call := by
  have hbefore : ∀ other ∈ earlier, other.Keyed := fun other hother =>
    hkeyed other (List.mem_append_left _ hother)
  have hcall : call.Keyed := hkeyed call (by simp)
  exact effect_step (linkFree_after hlinks hbefore) hcall

/-- Artifacts are written at most once and never changed.  Every call of a
history has the effect of its kind.  Over the whole history all files but
indexes and manifests keep their texts, no place is written twice, and what
has been written stands where nothing was and is there in the end. -/
theorem history_keeps_artifacts (session : Session)
    (hlinks : session.tree.LinkFree) (calls : List Call)
    (hkeyed : ∀ call ∈ calls, call.Keyed) :
    (∀ earlier call later, calls = earlier ++ call :: later →
        (session.after earlier).Effect call) ∧
      (∀ place text, ¬ place.IsListing →
        session.tree.entry? place = some (.file text) →
        OutputTree.entry? (session.after calls).tree place = some (.file text)) ∧
      ((session.allWritten calls).map Prod.fst).Nodup ∧
      ∀ place text, (place, text) ∈ session.allWritten calls →
        session.tree.entry? place = none ∧
          OutputTree.entry? (session.after calls).tree place = some (.file text) := by
  refine ⟨?_, ?_, nodup_allWritten hlinks hkeyed, ?_⟩
  · rintro earlier call later rfl
    exact effect_of_history hlinks hkeyed
  · intro place text hplace hfile
    exact kept_after hlinks hkeyed hplace hfile
  · intro place text hwritten
    exact ⟨vacant_of_mem_allWritten hlinks hkeyed hwritten,
      there_of_mem_allWritten hlinks hkeyed hwritten⟩

/-- Two emissions that reach one directory by different paths, where one
artifact is there already. -/
def sample : Session where
  emissions context :=
    { root := if context = 0 then ["out"] else ["out", "..", "out"] }
  tree :=
    ⟨[(["out"], .directory), (["out", "models"], .directory),
      (["out", "models", "InnerMask.rs"], .file "// kept\n")]⟩

def sampleCalls : List Call :=
  [.emit 0 (artifact "Card" "// first\n"), .writeIndex 0,
    .emit 1 (artifact "Card" "// second\n"), .writeManifest 1,
    .emit 1 (artifact "Inner" "// new\n")]
where
  artifact (name text : String) : Artifact :=
    { key := QualifiedName.maskKey ⟨"models", name⟩
      type := ⟨"models", name⟩
      text := text }

theorem sample_keeps_artifacts :
    sample.tree.LinkFree ∧ (∀ call ∈ sampleCalls, call.Keyed) ∧
      OutputTree.entry? (sample.after sampleCalls).tree
          ["out", "models", "InnerMask.rs"] = some (.file "// kept\n") ∧
      ((sample.allWritten sampleCalls).map Prod.fst).Nodup := by
  have hlinks : sample.tree.LinkFree := by decide
  have hkeyed : ∀ call ∈ sampleCalls, call.Keyed := by
    unfold sampleCalls
    simp only [List.forall_mem_cons, List.not_mem_nil, false_implies,
      implies_true, and_true]
    exact ⟨⟨_, rfl⟩, trivial, ⟨_, rfl⟩, trivial, _, rfl⟩
  obtain ⟨_, hkept, hnodup, _⟩ :=
    history_keeps_artifacts sample hlinks sampleCalls hkeyed
  exact ⟨hlinks, hkeyed, hkept _ _ (by decide) (by decide), hnodup⟩

end Session

end RecordMasking

import RecordMasking.Proofs.Delegation
import RecordMasking.Proofs.Grounded
import RecordMasking.Proofs.ProperName
import RecordMasking.Proofs.Verdict

/-!
# Runs that are repeated

Once an emission has been tried, trying it again changes nothing: what was
written or there before is skipped, and what stood in the way stands there
still.  Nothing that other emissions add in between alters this, so a run
that is repeated fails for the same types and skips all others.
-/

namespace RecordMasking

namespace OutputTree

variable {tree after final : OutputTree}

/-! ## Directories that have been made -/

theorem entry?_startOf (tree : OutputTree) (path : OutputPath) :
    tree.entry? (startOf path) = some .directory := by
  apply entry?_of_isStart
  unfold startOf
  split
  · exact .inr rfl
  · exact .inl rfl

theorem IsDirectoryTree.way_of_makeDirectories
    (htree : tree.IsDirectoryTree) {path : OutputPath}
    (hnul : hasNul path = false) (hfits : isTooLong path = false)
    {result : Except Obstacle Place}
    (hmake : tree.makeDirectories path = (after, result)) :
    after.IsDirectoryTree ∧
      after.Way (startOf path) path.names result ∧
      ∀ goal, result = .ok goal → after.entry? goal = some .directory := by
  have hstart := tree.entry?_startOf path
  unfold makeDirectories at hmake
  rw [hnul, hfits] at hmake
  exact htree.way_of_makeFrom hstart hmake

theorem Way.makeDirectories_eq {path : OutputPath}
    {result : Except Obstacle Place}
    (hway : tree.Way (startOf path) path.names result)
    (hlinks : tree.LinkFree) (hnul : hasNul path = false)
    (hfits : isTooLong path = false) :
    tree.makeDirectories path = (tree, result) := by
  unfold makeDirectories
  rw [hnul, hfits]
  exact hway.makeFrom_eq hlinks

/-! ## A file in directories that have been made -/

section Files

variable {lead : OutputPath} {last text : String}
  {result : Except Obstacle Place}

theorem isTooLong_of_parent (hlast : OutputPath.isIdle last = false)
    (hlong : isTooLong (OutputPath.parent (lead ++ [last])) = true) :
    isTooLong (lead ++ [last]) = true := by
  have hsize := OutputPath.utf8ByteSize_parent_le lead hlast
  unfold isTooLong at hlong ⊢
  rw [decide_eq_true_iff] at hlong ⊢
  omega

theorem leadsSomewhere_eq_false_of_isTooLong {path : OutputPath}
    (hlong : isTooLong path = true) : tree.leadsSomewhere path = false := by
  rw [Bool.eq_false_iff, Ne, leadsSomewhere_iff, hlong]
  simp

/-- The file of a path is there when the way to it is open, its name can be
given and is taken. -/
theorem leadsSomewhere_behind_iff (hlinks : tree.LinkFree)
    (hlast : IsFileName last) (hnul : hasNul [last] = false)
    (hway : tree.Way (startOf (OutputPath.parent (lead ++ [last])))
      (OutputPath.parent (lead ++ [last])).names result) :
    tree.leadsSomewhere (lead ++ [last]) = true ↔
      ∃ directory, result = .ok directory ∧
        nameObstacle? (lead ++ [last]) = none ∧
        tree.entry? (directory ++ [last]) ≠ none := by
  obtain ⟨hnames, hrooted⟩ := OutputPath.parent_spec lead hlast.isIdle_eq
  have hstart : startOf (lead ++ [last]) =
      startOf (OutputPath.parent (lead ++ [last])) := by
    unfold startOf
    rw [hrooted]
  have hall : (lead ++ [last]).names =
      (OutputPath.parent (lead ++ [last])).names ++ [last] := by
    rw [hnames, OutputPath.names_concat lead hlast.isIdle_eq]
  have hobstacle : nameObstacle? (lead ++ [last]) = none ↔
      ¬ nameLimit < last.utf8ByteSize ∧
        isTooLong (lead ++ [last]) = false := by
    unfold nameObstacle?
    rw [OutputPath.lastName_concat lead hlast.isIdle_eq, hnul]
    simp
  rw [leadsSomewhere_iff, hstart, hall]
  cases result with
  | error obstacle =>
      constructor
      · rintro ⟨_, goal, hwalk⟩
        exact absurd hwalk
          (hway.walk_ne_present hlinks _ _ (List.cons_ne_nil _ _) goal)
      · rintro ⟨directory, hresult, _⟩
        cases hresult
  | ok directory =>
      rw [hway.walk_append hlinks,
        exists_walk_last_iff hlinks _ _ _ hlast.ne_up, hobstacle]
      constructor
      · rintro ⟨hshort, hfits, htaken⟩
        exact ⟨directory, rfl, ⟨hfits, hshort⟩, htaken⟩
      · rintro ⟨goal, hgoal, ⟨hfits, hshort⟩, htaken⟩
        obtain rfl := Except.ok.inj hgoal
        exact ⟨hshort, hfits, htaken⟩

/-- Behind a way nothing else than writing there decides. -/
theorem writeAbsent_eq_writeBehind (hlinks : tree.LinkFree)
    (hlast : IsFileName last) (hlastNul : hasNul [last] = false)
    (hnul : hasNul (OutputPath.parent (lead ++ [last])) = false)
    (hfits : isTooLong (OutputPath.parent (lead ++ [last])) = false)
    (hway : tree.Way (startOf (OutputPath.parent (lead ++ [last])))
      (OutputPath.parent (lead ++ [last])).names result) :
    tree.writeAbsent (lead ++ [last]) text =
      tree.writeBehind (lead ++ [last]) text result := by
  have hname : OutputPath.lastName (lead ++ [last]) = last :=
    OutputPath.lastName_concat lead hlast.isIdle_eq
  unfold writeAbsent
  split
  next hleads =>
    obtain ⟨directory, rfl, hobstacle, htaken⟩ :=
      (leadsSomewhere_behind_iff hlinks hlast hlastNul hway).mp hleads
    obtain ⟨entry, hentry⟩ := Option.ne_none_iff_exists'.mp htaken
    simp only [writeBehind, hobstacle, hname, hentry]
  next =>
    exact writeNew_eq text (lastName_ne_temporary lead hlast)
      (hway.makeDirectories_eq hlinks hnul hfits)

end Files

end OutputTree

/-! ## Trying an emission again -/

open OutputTree

/-- A directory tree that has grown from another one; files come to be below
a root only when its text can be a path. -/
structure Later (root : OutputPath) (before after : OutputTree) : Prop where
  isDirectoryTree : after.IsDirectoryTree
  grows : before.Grows after
  same : hasNul root = true → after = before

theorem Later.refl {tree : OutputTree} (htree : tree.IsDirectoryTree)
    (root : OutputPath) : Later root tree tree :=
  ⟨htree, .refl _, fun _ => rfl⟩

theorem Later.of_eq {root : OutputPath} {before after : OutputTree}
    (htree : before.IsDirectoryTree) (heq : after = before) :
    Later root before after := by
  rw [heq]
  exact .refl htree root

theorem Later.trans {root : OutputPath} {first second third : OutputTree}
    (hleft : Later root first second) (hright : Later root second third) :
    Later root first third where
  isDirectoryTree := hright.isDirectoryTree
  grows := hleft.grows.trans hright.grows
  same hnul := (hright.same hnul).trans (hleft.same hnul)

/-- What comes of an emission the second time. -/
def skipping : Except Fault Outcome → Except Fault Outcome
  | .ok _ => .ok .skipped
  | .error fault => .error fault

namespace OutputTree

variable {tree final : OutputTree} {root : OutputPath} {text : String}

/-- Behind a way, writing again changes nothing. -/
theorem writeBehind_again (htree : tree.IsDirectoryTree)
    (path : OutputPath) (text : String)
    {result : Except Obstacle Place} (hroot : hasNul root = false)
    (hgoal : ∀ goal, result = .ok goal →
      tree.entry? goal = some .directory) :
    Later root tree (tree.writeBehind path text result).1 ∧
      ∀ final, Later root (tree.writeBehind path text result).1 final →
        final.writeBehind path text result =
          (final, skipping (tree.writeBehind path text result).2) := by
  have hsame : ∀ {after : OutputTree}, hasNul root = true → after = tree := by
    intro after hnul
    simp [hroot] at hnul
  unfold writeBehind
  cases result with
  | error obstacle => exact ⟨.refl htree root, fun _ _ => rfl⟩
  | ok directory =>
      cases nameObstacle? path with
      | some obstacle => exact ⟨.refl htree root, fun _ _ => rfl⟩
      | none =>
          dsimp only
          cases hentry : tree.entry? (directory ++ [path.lastName]) with
          | some entry =>
              refine ⟨.refl htree root, fun final hfinal => ?_⟩
              rw [hfinal.grows _ _ hentry]
              rfl
          | none =>
              have hthere : entry? (tree.set (directory ++ [path.lastName])
                  (.file text)) (directory ++ [path.lastName]) =
                    some (.file text) :=
                entry?_set_self (not_isStart_of_vacant hentry) _
              refine ⟨⟨htree.set hentry (hgoal directory rfl) rfl,
                grows_set hentry _, hsame⟩, fun final hfinal => ?_⟩
              rw [hfinal.grows _ _ hthere]
              rfl

theorem writeAbsent_eq_writeNew {path : OutputPath}
    (hleads : tree.leadsSomewhere path = false) :
    tree.writeAbsent path text = tree.writeNew path text := by
  unfold writeAbsent
  rw [hleads]
  rfl

theorem writeAbsent_of_leadsSomewhere {path : OutputPath}
    (hleads : tree.leadsSomewhere path = true) :
    tree.writeAbsent path text = (tree, .ok .skipped) :=
  if_pos hleads

/-- The first writing to a path settles it: in all later trees another one
changes nothing and is skipped or fails as the first. -/
def Settles (tree : OutputTree) (root path : OutputPath) (text : String) :
    Prop :=
  Later root tree (tree.writeAbsent path text).1 ∧
    ∀ final, Later root (tree.writeAbsent path text).1 final →
      final.writeAbsent path text =
        (final, skipping (tree.writeAbsent path text).2)

theorem settles_of_leadsSomewhere (htree : tree.IsDirectoryTree)
    {path : OutputPath} (hleads : tree.leadsSomewhere path = true) :
    tree.Settles root path text := by
  unfold Settles
  rw [writeAbsent_of_leadsSomewhere hleads]
  refine ⟨.refl htree root, fun final hfinal => ?_⟩
  exact writeAbsent_of_leadsSomewhere (leadsSomewhere_grows
    htree.linkFree hfinal.isDirectoryTree.linkFree hfinal.grows hleads)

/-- No directory is made, now or later. -/
theorem settles_of_refused (htree : tree.IsDirectoryTree)
    {path : OutputPath} (obstacle : Obstacle)
    (hlast : ∀ n, path.lastName ≠ temporaryName n)
    (hrefused : ∀ final, Later root tree final →
      final.leadsSomewhere path = false ∧
        final.makeDirectories path.parent = (final, .error obstacle)) :
    tree.Settles root path text := by
  have hwrite : ∀ final, Later root tree final →
      final.writeAbsent path text =
        (final, .error (fault path.parent obstacle)) := by
    intro final hfinal
    obtain ⟨hleads, hmake⟩ := hrefused final hfinal
    rw [writeAbsent_eq_writeNew hleads, writeNew_eq text hlast hmake]
    rfl
  unfold Settles
  rw [hwrite tree (.refl htree root)]
  exact ⟨.refl htree root, hwrite⟩

theorem settles_of_makeDirectories (htree : tree.IsDirectoryTree)
    {lead : OutputPath} {last : String} (hlast : IsFileName last)
    (hlastNul : hasNul [last] = false) (hroot : hasNul root = false)
    (hnul : hasNul (OutputPath.parent (lead ++ [last])) = false)
    (hfits : isTooLong (OutputPath.parent (lead ++ [last])) = false)
    (hleads : tree.leadsSomewhere (lead ++ [last]) = false) :
    tree.Settles root (lead ++ [last]) text := by
  have htemporary := lastName_ne_temporary lead hlast
  rcases hmake : tree.makeDirectories (OutputPath.parent (lead ++ [last]))
    with ⟨made, result⟩
  obtain ⟨hmade, hway, hgoal⟩ :=
    htree.way_of_makeDirectories hnul hfits hmake
  have hgrows : tree.Grows made :=
    (makeDirectories_spec htree.linkFree hmake).2.1.grows
  obtain ⟨hlater, hagain⟩ :=
    writeBehind_again hmade (lead ++ [last]) text hroot hgoal
  unfold Settles
  rw [writeAbsent_eq_writeNew hleads, writeNew_eq text htemporary hmake]
  refine ⟨⟨hlater.isDirectoryTree, hgrows.trans hlater.grows,
    by simp [hroot]⟩, fun final hfinal => ?_⟩
  rw [writeAbsent_eq_writeBehind hfinal.isDirectoryTree.linkFree hlast
    hlastNul hnul hfits (hway.grows (hlater.grows.trans hfinal.grows))]
  exact hagain final hfinal

theorem IsDirectoryTree.settles (htree : tree.IsDirectoryTree)
    {lead : OutputPath} {last : String} (hlast : IsFileName last)
    (hlastNul : hasNul [last] = false) (hlead : hasNul lead = hasNul root)
    (text : String) : tree.Settles root (lead ++ [last]) text := by
  have hparent : hasNul (OutputPath.parent (lead ++ [last])) =
      hasNul root := by
    rw [OutputPath.hasNul_parent lead hlast.isIdle_eq, hlead]
  have htemporary := lastName_ne_temporary lead hlast
  cases hleads : tree.leadsSomewhere (lead ++ [last]) with
  | true => exact settles_of_leadsSomewhere htree hleads
  | false =>
      cases hnul : hasNul root with
      | true =>
          -- Such a root is no path, and the tree is the same all the time.
          refine settles_of_refused htree .nulCharacter htemporary
            fun final hfinal => ?_
          rw [hfinal.same hnul]
          refine ⟨hleads, ?_⟩
          unfold makeDirectories
          rw [hparent, hnul]
          rfl
      | false =>
          rw [hnul] at hparent
          cases hlong : isTooLong (OutputPath.parent (lead ++ [last])) with
          | true =>
              refine settles_of_refused htree .nameTooLong htemporary
                fun final _ => ?_
              refine ⟨leadsSomewhere_eq_false_of_isTooLong
                (isTooLong_of_parent hlast.isIdle_eq hlong), ?_⟩
              unfold makeDirectories
              rw [hparent, hlong]
              rfl
          | false =>
              exact settles_of_makeDirectories htree hlast hlastNul hnul
                hparent hlong hleads

end OutputTree

namespace Emission

variable {emission : Emission} {tree final : OutputTree}
  {artifact : Artifact} {type : QualifiedName}

/-- A second attempt leaves the tree as it is, whatever other emissions have
done since the first, and skips or fails as that one says. -/
theorem attempt_again (emission : Emission) (htree : tree.IsDirectoryTree)
    (hproper : type.IsProper) (hkey : artifact.key = type.maskKey) :
    Later emission.root tree (emission.attempt tree artifact).1 ∧
      ∀ final, Later emission.root (emission.attempt tree artifact).1 final →
        emission.attempt final artifact =
          (final, skipping (emission.attempt tree artifact).2) := by
  obtain ⟨lead, last, hpath, hname, hlastNul, hlead⟩ :=
    exists_properTarget emission hproper
  unfold attempt
  rw [hkey, hpath]
  exact htree.settles hname.isFileName hlastNul hlead artifact.text

theorem attempt_of_root {other : Emission} (hroot : other.root = emission.root)
    (tree : OutputTree) (artifact : Artifact) :
    other.attempt tree artifact = emission.attempt tree artifact := by
  unfold attempt targetPath
  rw [hroot]

end Emission

/-! ## Repeating a run -/

/-- What a run reports that finds everything done which another one has
reported. -/
structure RunReport.Repeats (first again : RunReport) : Prop where
  halted : again.halted = first.halted
  deferred : again.deferred = first.deferred
  incomplete : again.incomplete = first.incomplete
  failed : again.failed = first.failed
  emitted : again.emitted =
    first.emitted.map fun entry => (entry.1, Outcome.skipped)

theorem RunReport.Repeats.written_eq_zero {first again : RunReport}
    (hrepeats : first.Repeats again) : again.written = 0 := by
  unfold RunReport.written RunReport.count
  rw [hrepeats.emitted, List.length_eq_zero_iff, List.filter_eq_nil_iff]
  intro entry hentry
  obtain ⟨_, _, rfl⟩ := List.mem_map.mp hentry
  simp

namespace RunState

structure Repeats (first again : RunState) : Prop where
  root : again.emission.root = first.emission.root
  report : first.report.Repeats again.report

variable {first again : RunState}

theorem Repeats.tell (hrepeats : first.Repeats again)
    (diagnostics others : List Diagnostic) :
    (first.tell diagnostics).Repeats (again.tell others) :=
  ⟨hrepeats.root, hrepeats.report⟩

theorem Repeats.fail (hrepeats : first.Repeats again)
    (declaration : Declaration) (fault other : Fault) :
    (first.fail declaration fault).Repeats (again.fail declaration other) where
  root := hrepeats.root
  report :=
    { hrepeats.report with
      failed := congrArg (· ++ [declaration.id]) hrepeats.report.failed }

theorem Repeats.finish (hrepeats : first.Repeats again)
    (synthesis : Synthesis) (outcome : Outcome) :
    (first.finish synthesis outcome).Repeats
      (again.finish synthesis .skipped) where
  root := hrepeats.root
  report :=
    { hrepeats.report with
      emitted := by
        have hemitted := hrepeats.report.emitted
        unfold RunState.finish
        simp [hemitted] }

theorem Repeats.announce (hrepeats : first.Repeats again)
    (declaration : Declaration) (resolution : Resolution) :
    (first.announce declaration resolution).Repeats
      (again.announce declaration resolution) := by
  unfold RunState.announce
  split
  · exact hrepeats.tell _ _
  · exact ⟨hrepeats.root,
      { hrepeats.report with
        incomplete := congrArg (· ++ [declaration.id])
          hrepeats.report.incomplete }⟩

theorem Repeats.conclude (hrepeats : first.Repeats again)
    (declaration : Declaration) (synthesis : Synthesis)
    (result : Except Fault Outcome) :
    (first.conclude declaration synthesis result).Repeats
      (again.conclude declaration synthesis (skipping result)) := by
  cases result with
  | ok outcome => exact hrepeats.finish synthesis outcome
  | error fault => exact hrepeats.fail declaration fault fault

theorem emit_again {state : RunState} (htree : state.tree.IsDirectoryTree)
    {declaration : Declaration} (hproper : declaration.id.IsProper)
    {synthesis : Synthesis}
    (hkey : synthesis.artifact.key = declaration.id.maskKey) :
    let after := state.emit declaration synthesis
    Later state.emission.root state.tree after.tree ∧
      after.emission.root = state.emission.root ∧
      ∀ again : RunState, state.Repeats again →
        Later state.emission.root after.tree again.tree →
        (again.emit declaration synthesis).tree = again.tree ∧
          after.Repeats (again.emit declaration synthesis) := by
  intro after
  obtain ⟨hlater, hagain⟩ :=
    state.emission.attempt_again htree hproper hkey
  obtain ⟨emission, hroot, hemit⟩ :=
    state.emit_eq_conclude declaration synthesis
  have htreeAfter : after.tree =
      (state.emission.attempt state.tree synthesis.artifact).1 := by
    rw [show after = _ from hemit, (conclude_tree _ _ _ _).1]
  have hrootAfter : after.emission.root = state.emission.root := by
    rw [show after = _ from hemit, (conclude_tree _ _ _ _).2, hroot]
  rw [htreeAfter]
  refine ⟨hlater, hrootAfter, fun again hrepeats hfinal => ?_⟩
  obtain ⟨next, hnext, hemitAgain⟩ :=
    again.emit_eq_conclude declaration synthesis
  rw [Emission.attempt_of_root hrepeats.root, hagain _ hfinal] at hemitAgain
  rw [hemitAgain, show after = _ from hemit]
  refine ⟨(conclude_tree _ _ _ _).1, Repeats.conclude ⟨?_, ?_⟩ _ _ _⟩
  · exact hnext.trans (hrepeats.root.trans hroot.symm)
  · exact hrepeats.report

end RunState

namespace Schema

variable {schema : Schema} {config : Config}

theorem repeats_readied (declaration : Declaration) {first again : RunState}
    (hrepeats : first.Repeats again) :
    (schema.readied declaration first).Repeats
      (schema.readied declaration again) :=
  (hrepeats.announce declaration _).tell _ _

/-- Processing a model leaves a later tree behind, and processing it again
there changes nothing. -/
theorem processModel_again {declaration : Declaration}
    (hproper : declaration.id.IsProper) {state after : RunState}
    (htree : state.tree.IsDirectoryTree)
    (hprocess : schema.processModel config declaration state =
      (after, .finished)) :
    Later state.emission.root state.tree after.tree ∧
      after.emission.root = state.emission.root ∧
      ∀ again : RunState, state.Repeats again →
        Later state.emission.root after.tree again.tree →
        ∃ next,
          schema.processModel config declaration again = (next, .finished) ∧
            next.tree = again.tree ∧ after.Repeats next := by
  cases processed_of_eq hprocess with
  | notEligible hempty =>
      have hsame := state.announce_tree declaration
        (schema.resolve declaration.id)
      refine ⟨.of_eq htree hsame.1, congrArg Emission.root hsame.2,
        fun again hrepeats _ => ?_⟩
      have hagain := again.announce_tree declaration
        (schema.resolve declaration.id)
      exact ⟨_, processModel_of_isEmpty hempty again, hagain.1,
        (hrepeats.announce declaration _).tell _ _⟩
  | @emitted synthesis hpaths hsynthesis =>
      obtain ⟨hsame, hemission⟩ :=
        schema.readied_tree declaration state
      have hready : (schema.readied declaration state).tree.IsDirectoryTree :=
        hsame ▸ htree
      obtain ⟨hlater, hroot, hagain⟩ := RunState.emit_again hready hproper
        (synthesize_eq_ok hsynthesis).2.2
      rw [hsame, hemission] at hlater
      rw [hemission] at hroot hagain
      refine ⟨hlater, hroot, fun again hrepeats hfinal => ?_⟩
      have hreadied := schema.readied_tree declaration again
      rw [← hreadied.1] at hfinal
      obtain ⟨htreeAgain, hrepeated⟩ :=
        hagain _ (repeats_readied declaration hrepeats) hfinal
      refine ⟨(schema.readied declaration again).emit declaration synthesis,
        ?_, htreeAgain.trans hreadied.1, hrepeated⟩
      rw [processModel_eq_settled hpaths, hsynthesis]
      rfl
  | @failed fault hpaths hfault =>
      have hsame := schema.readied_tree declaration state
      refine ⟨.of_eq htree hsame.1, congrArg Emission.root hsame.2,
        fun again hrepeats _ => ?_⟩
      have hreadied := schema.readied_tree declaration again
      refine ⟨(schema.readied declaration again).fail declaration fault, ?_,
        hreadied.1,
        (repeats_readied declaration hrepeats).fail declaration _ _⟩
      rw [processModel_eq_settled hpaths, hfault]
      rfl

theorem processModels_again {declarations : List Declaration}
    (hproper : ∀ declaration ∈ declarations, declaration.id.IsProper)
    {state after : RunState} (htree : state.tree.IsDirectoryTree)
    (hrun : schema.processModels config declarations state =
      (after, .finished)) :
    Later state.emission.root state.tree after.tree ∧
      ∀ again : RunState, state.Repeats again →
        Later state.emission.root after.tree again.tree →
        ∃ next,
          schema.processModels config declarations again =
              (next, .finished) ∧
            next.tree = again.tree ∧ after.Repeats next := by
  induction declarations generalizing state with
  | nil =>
      obtain ⟨rfl, _⟩ := Prod.mk.inj hrun
      exact ⟨.refl htree _, fun again hrepeats _ => ⟨again, rfl, rfl, hrepeats⟩⟩
  | cons first rest ih =>
      rw [List.forall_mem_cons] at hproper
      unfold processModels at hrun
      split at hrun
      next hmodel =>
        split at hrun
        next middle hmiddle =>
          obtain ⟨hlater, hroot, hagain⟩ :=
            processModel_again hproper.1 htree hmiddle
          obtain ⟨hlast, hothers⟩ :=
            ih hproper.2 hlater.isDirectoryTree hrun
          rw [hroot] at hlast hothers
          refine ⟨hlater.trans hlast, fun again hrepeats hfinal => ?_⟩
          obtain ⟨next, hnext, htreeNext, hrepeated⟩ :=
            hagain again hrepeats (hlast.trans hfinal)
          rw [← htreeNext] at hfinal ⊢
          obtain ⟨last, hlastRun, hsame⟩ := hothers next hrepeated hfinal
          refine ⟨last, ?_, hsame⟩
          rw [processModels, if_pos hmodel, hnext]
          exact hlastRun
        next => simp at hrun
      next hother =>
        obtain ⟨hlater, hagain⟩ := ih hproper.2 htree hrun
        refine ⟨hlater, fun again hrepeats hfinal => ?_⟩
        obtain ⟨next, hnext, hsame⟩ := hagain again hrepeats hfinal
        refine ⟨next, ?_, hsame⟩
        rw [processModels, if_neg hother]
        exact hnext

/-- A second run changes nothing.  When a finished run started from a
directory tree, with whatever obstacles in it, the same run from the tree it
left behind finishes, leaves that tree as it is and repeats the report: it
fails for the same types and skips every key that the first one emitted. -/
theorem second_run_repeats (schema : Schema)
    (hproper : ∀ declaration ∈ schema.declarations, declaration.id.IsProper)
    (config : Config) (root : OutputPath) {tree : OutputTree}
    (htree : tree.IsDirectoryTree) {first : RunState}
    (hrun : schema.run config { root } tree = (first, .finished)) :
    ∃ second,
      schema.run config { root } first.tree = (second, .finished) ∧
        second.tree = first.tree ∧
        first.report.Repeats second.report ∧ second.report.written = 0 := by
  cases hresolved : schema.markerResolved with
  | false =>
      simp only [run, hresolved, Bool.false_eq_true, if_false] at hrun ⊢
      obtain ⟨rfl, _⟩ := Prod.mk.inj hrun
      exact ⟨_, rfl, rfl, ⟨rfl, rfl, rfl, rfl, rfl⟩, rfl⟩
  | true =>
      obtain ⟨after, hmodels, rfl⟩ :=
        run_finished hrun (not_halted_of_resolved hresolved hrun)
      obtain ⟨hlater, hagain⟩ := processModels_again hproper htree hmodels
      let again : RunState := { emission := { root }, tree := after.tree }
      have hstart : RunState.Repeats { emission := { root }, tree } again :=
        ⟨rfl, rfl, rfl, rfl, rfl, rfl⟩
      obtain ⟨next, hnext, hsame, hrepeats⟩ :=
        hagain again hstart (.refl hlater.isDirectoryTree root)
      refine ⟨summarize next, ?_, hsame, hrepeats.report,
        hrepeats.report.written_eq_zero⟩
      simp only [run, hresolved, if_true]
      rw [show schema.processModels config schema.declarations
        { emission := { root }, tree := (summarize after).tree } =
          (next, .finished) from hnext]

open Samples in
theorem obstructed_run_repeats :
    (∀ declaration ∈ billing.declarations, declaration.id.IsProper) ∧
      obstructed.IsDirectoryTree ∧
      ∃ first second,
        billing.run {} { root := ["out"] } obstructed = (first, .finished) ∧
        billing.run {} { root := ["out"] } first.tree =
          (second, .finished) ∧
        second.tree = first.tree ∧ first.report.Repeats second.report ∧
        second.report.written = 0 := by
  have hproper : ∀ declaration ∈ billing.declarations,
      declaration.id.IsProper := by decide +kernel
  have htree : obstructed.IsDirectoryTree := by decide
  have hfinished :
      (billing.run {} { root := ["out"] } obstructed).2 = .finished := by
    decide +kernel
  have hrun : billing.run {} { root := ["out"] } obstructed =
      ((billing.run {} { root := ["out"] } obstructed).1, .finished) :=
    Prod.ext rfl hfinished
  obtain ⟨second, hsecond⟩ :=
    second_run_repeats billing hproper {} ["out"] htree hrun
  exact ⟨hproper, htree, _, second, hrun, hsecond⟩

end Schema

end RecordMasking

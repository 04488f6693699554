import RecordMasking.Proofs.TargetPath

/-!
# What writing changes

A text goes through a temporary file, and the temporary file leaves no trace:
writing is the same as making the directories of a path and then, unless
something keeps the name from being given, setting the file at its place.
From this follow the frames of all calls that write.  Directories stay, files
stay where they are, and only files of the written names get another text.
-/

namespace RecordMasking

/-- The directories that a path passes. -/
def OutputPath.Passes (path : OutputPath) (passed : Place) : Prop :=
  OutputTree.OnWay (OutputTree.startOf path) path.names passed

namespace OutputTree

/-! ## Writing without temporary files -/

theorem makeDirectories_spec {tree after : OutputTree}
    (hlinks : tree.LinkFree) {path : OutputPath}
    {result : Except Obstacle Place}
    (hmake : tree.makeDirectories path = (after, result)) :
    after.LinkFree ∧ AddsDirectories path.Passes tree after ∧
      ∀ goal, result = .ok goal → goal = path.place := by
  have hrefused : ∀ obstacle, (tree, .error obstacle) = (after, result) →
      after.LinkFree ∧ AddsDirectories path.Passes tree after ∧
        ∀ goal, result = .ok goal → goal = path.place := by
    intro obstacle heq
    obtain ⟨rfl, rfl⟩ := Prod.mk.inj heq
    exact ⟨hlinks, .refl _ _, fun goal hgoal => by cases hgoal⟩
  unfold makeDirectories at hmake
  split at hmake
  next => exact hrefused _ hmake
  next =>
    split at hmake
    next => exact hrefused _ hmake
    next => exact makeFrom_spec hlinks hmake

theorem nameObstacle?_cases {path : OutputPath} {obstacle : Obstacle}
    (hobstacle : nameObstacle? path = some obstacle) :
    obstacle = .nulCharacter ∨ obstacle = .nameTooLong := by
  unfold nameObstacle? at hobstacle
  split at hobstacle
  next => exact .inl (Option.some.inj hobstacle).symm
  next =>
    split at hobstacle
    next => exact .inr (Option.some.inj hobstacle).symm
    next => simp at hobstacle

theorem move_set {tree : OutputTree} {origin goal : Place} {entry : Entry}
    (hvacant : tree.entry? origin = none) :
    (tree.set origin entry).move origin goal = tree.set goal entry := by
  have hthere : entry? (tree.set origin entry) origin = some entry :=
    entry?_set_self (not_isStart_of_vacant hvacant) entry
  unfold move
  rw [hthere]
  simp only
  rw [remove_set hvacant]

theorem stage_eq (tree : OutputTree) (directory : Place) (text : String) :
    ∃ n, tree.entry? (directory ++ [temporaryName n]) = none ∧
      tree.stage directory text =
        (tree.set (directory ++ [temporaryName n]) (.file text),
          directory ++ [temporaryName n]) := by
  obtain ⟨n, hname, hvacant⟩ := freshName_spec tree directory
  rw [hname] at hvacant
  refine ⟨n, hvacant, ?_⟩
  unfold stage
  rw [hname]

/-- The temporary file hides nothing of another name. -/
theorem entry?_staged (tree : OutputTree) (directory : Place) {n : Nat}
    {last : String} (hne : last ≠ temporaryName n) (entry : Entry) :
    entry? (tree.set (directory ++ [temporaryName n]) entry)
        (directory ++ [last]) = tree.entry? (directory ++ [last]) := by
  apply entry?_set_of_ne
  simpa using hne

/-- What writing a new file comes to when its directories have been made. -/
def writeBehind (tree : OutputTree) (path : OutputPath) (text : String) :
    Except Obstacle Place → OutputTree × Except Fault Outcome
  | .error obstacle => (tree, .error (fault path.parent obstacle))
  | .ok directory =>
      match nameObstacle? path with
      | some obstacle => (tree, .error (fault path obstacle))
      | none =>
          match tree.entry? (directory ++ [path.lastName]) with
          | some _ => (tree, .ok .skipped)
          | none =>
              (tree.set (directory ++ [path.lastName]) (.file text),
                .ok .written)

theorem writeNew_eq {tree made : OutputTree} {path : OutputPath}
    {result : Except Obstacle Place} (text : String)
    (hlast : ∀ n, path.lastName ≠ temporaryName n)
    (hmake : tree.makeDirectories path.parent = (made, result)) :
    tree.writeNew path text = made.writeBehind path text result := by
  unfold writeNew stageFor
  rw [hmake]
  cases result with
  | error obstacle => rfl
  | ok directory =>
      obtain ⟨n, hvacant, hstage⟩ := made.stage_eq directory text
      have hsame := made.entry?_staged directory (hlast n) (.file text)
      simp only [hstage, persistNew, writeBehind]
      cases hobstacle : nameObstacle? path with
      | some obstacle =>
          rcases nameObstacle?_cases hobstacle with rfl | rfl
          · simp only [remove_set hvacant]
          · simp only [remove_set hvacant]
      | none =>
          simp only [hsame]
          cases hentry : made.entry? (directory ++ [path.lastName]) with
          | some entry => simp only [remove_set hvacant]
          | none => simp only [move_set hvacant]

theorem writeOver_eq (tree : OutputTree) (path : OutputPath) (text : String)
    (hlast : ∀ n, path.lastName ≠ temporaryName n) :
    tree.writeOver path text =
      match tree.makeDirectories path.parent with
      | (made, .error obstacle) =>
          (made, .error (fault path.parent obstacle))
      | (made, .ok directory) =>
          match nameObstacle? path with
          | some obstacle => (made, .error (fault path obstacle))
          | none =>
              match made.entry? (directory ++ [path.lastName]) with
              | some .directory => (made, .error (fault path .isDirectory))
              | _ =>
                  (made.set (directory ++ [path.lastName]) (.file text),
                    .ok ()) := by
  unfold writeOver stageFor
  rcases hmake : tree.makeDirectories path.parent with
    ⟨made, obstacle | directory⟩
  · rfl
  · obtain ⟨n, hvacant, hstage⟩ := made.stage_eq directory text
    have hsame := made.entry?_staged directory (hlast n) (.file text)
    simp only [hstage, persistOver]
    cases hobstacle : nameObstacle? path with
    | some obstacle => simp only [remove_set hvacant]
    | none =>
        simp only [hsame]
        cases hentry : made.entry? (directory ++ [path.lastName]) with
        | none => simp only [move_set hvacant]
        | some entry =>
            cases entry with
            | directory => simp only [remove_set hvacant]
            | file old => simp only [move_set hvacant]
            | link target => simp only [move_set hvacant]

/-! ## Frames -/

/-- Directories and files stay, and outside of the touched places the files
are the same, each with its text. -/
structure Keeps (touched : Place → Prop) (before after : OutputTree) :
    Prop where
  directories : ∀ place, before.entry? place = some .directory →
    after.entry? place = some .directory
  files : ∀ place, ¬ touched place → ∀ text,
    after.entry? place = some (.file text) ↔
      before.entry? place = some (.file text)
  remain : ∀ place text, before.entry? place = some (.file text) →
    ∃ now, after.entry? place = some (.file now)

namespace Keeps

variable {touched more : Place → Prop} {first second third : OutputTree}

theorem refl (touched : Place → Prop) (tree : OutputTree) :
    Keeps touched tree tree :=
  ⟨fun _ hentry => hentry, fun _ _ _ => Iff.rfl,
    fun _ text hentry => ⟨text, hentry⟩⟩

theorem trans (hleft : Keeps touched first second)
    (hright : Keeps touched second third) : Keeps touched first third where
  directories place hentry :=
    hright.directories place (hleft.directories place hentry)
  files place hplace text :=
    (hright.files place hplace text).trans (hleft.files place hplace text)
  remain place text hentry := by
    obtain ⟨now, hnow⟩ := hleft.remain place text hentry
    exact hright.remain place now hnow

theorem mono (hmore : ∀ place, touched place → more place)
    (hkeeps : Keeps touched first second) : Keeps more first second where
  directories := hkeeps.directories
  files place hplace :=
    hkeeps.files place fun htouched => hplace (hmore place htouched)
  remain := hkeeps.remain

/-- What is there without being a link stays there. -/
theorem occupied (hkeeps : Keeps touched first second)
    (hlinks : first.LinkFree) {place : Place}
    (hentry : first.entry? place ≠ none) : second.entry? place ≠ none := by
  cases hfound : first.entry? place with
  | none => exact absurd hfound hentry
  | some entry =>
      cases entry with
      | directory => simp [hkeeps.directories place hfound]
      | file text =>
          obtain ⟨now, hnow⟩ := hkeeps.remain place text hfound
          simp [hnow]
      | link target => exact absurd hfound (hlinks.entry?_ne_link _ _)

end Keeps

theorem AddsDirectories.files_iff {added : Place → Prop}
    {before after : OutputTree}
    (hadds : AddsDirectories added before after) (place : Place)
    (text : String) :
    after.entry? place = some (.file text) ↔
      before.entry? place = some (.file text) := by
  rcases hadds place with hsame | ⟨hnone, hdirectory, _⟩
  · rw [hsame]
  · simp [hnone, hdirectory]

theorem AddsDirectories.keeps {added : Place → Prop}
    {before after : OutputTree} (touched : Place → Prop)
    (hadds : AddsDirectories added before after) :
    Keeps touched before after where
  directories place hentry := hadds.grows place _ hentry
  files place _ text := hadds.files_iff place text
  remain place text hentry := ⟨text, hadds.grows place _ hentry⟩

theorem keeps_set {tree : OutputTree} {place : Place}
    (hplace : ¬ place.IsStart)
    (hentry : tree.entry? place ≠ some .directory) (text : String) :
    Keeps (· = place) tree (tree.set place (.file text)) where
  directories other hother := by
    have hne : other ≠ place := by
      rintro rfl
      exact hentry hother
    rw [entry?_set_of_ne hne, hother]
  files other hother now := by rw [entry?_set_of_ne hother]
  remain other now hother := by
    by_cases heq : other = place
    · subst heq
      exact ⟨text, entry?_set_self hplace _⟩
    · exact ⟨now, by rw [entry?_set_of_ne heq, hother]⟩

/-! ## Paths that end in a file name -/

theorem lastName_ne_temporary (lead : OutputPath) {last : String}
    (hlast : IsFileName last) (n : Nat) :
    OutputPath.lastName (lead ++ [last]) ≠ temporaryName n := by
  rw [OutputPath.lastName_concat lead hlast.isIdle_eq]
  exact hlast.ne_temporary n

/-- A text is written to a path whose name is free, or nothing but directories
comes of it. -/
theorem writeNew_spec {tree after : OutputTree} (hlinks : tree.LinkFree)
    {lead : OutputPath} {last : String} (hlast : IsFileName last)
    {text : String} {result : Except Fault Outcome}
    (hwrite : tree.writeNew (lead ++ [last]) text = (after, result)) :
    let path : OutputPath := lead ++ [last]
    after.LinkFree ∧
      ((result = .ok .written ∧
          ∃ made, AddsDirectories path.parent.Passes tree made ∧
            made.entry? path.place = none ∧
            after = made.set path.place (.file text)) ∨
        result ≠ .ok .written ∧
          AddsDirectories path.parent.Passes tree after) := by
  intro path
  have hname : path.lastName = last :=
    OutputPath.lastName_concat lead hlast.isIdle_eq
  have hplace : path.place = path.parent.place ++ [last] :=
    OutputPath.place_parent lead hlast.isIdle_eq hlast.ne_up
  have htemporary := lastName_ne_temporary lead hlast
  rcases hmake : tree.makeDirectories path.parent with ⟨made, reached⟩
  obtain ⟨hmade, hadds, hgoal⟩ := makeDirectories_spec hlinks hmake
  rw [writeNew_eq text htemporary hmake] at hwrite
  have hrefused : ∀ {refusal : Except Fault Outcome},
      refusal ≠ .ok .written → (made, refusal) = (after, result) →
      after.LinkFree ∧ result ≠ .ok .written ∧
        AddsDirectories path.parent.Passes tree after := by
    rintro refusal hrefusal heq
    obtain ⟨rfl, rfl⟩ := Prod.mk.inj heq
    exact ⟨hmade, hrefusal, hadds⟩
  cases reached with
  | error obstacle =>
      exact (hrefused (by simp) hwrite).imp_right .inr
  | ok directory =>
      unfold writeBehind at hwrite
      dsimp only at hwrite
      rw [hgoal directory rfl, hname, ← hplace] at hwrite
      split at hwrite
      next =>
        exact (hrefused (by simp) hwrite).imp_right .inr
      next =>
        split at hwrite
        next =>
          exact (hrefused (by simp) hwrite).imp_right .inr
        next hvacant =>
          obtain ⟨rfl, rfl⟩ := Prod.mk.inj hwrite
          exact ⟨hmade.set rfl _, .inl ⟨rfl, made, hadds, hvacant, rfl⟩⟩

theorem writeOver_spec {tree after : OutputTree} (hlinks : tree.LinkFree)
    {lead : OutputPath} {last : String} (hlast : IsFileName last)
    {text : String} {result : Except Fault Unit}
    (hwrite : tree.writeOver (lead ++ [last]) text = (after, result)) :
    let path : OutputPath := lead ++ [last]
    after.LinkFree ∧ Keeps (· = path.place) tree after := by
  intro path
  have hname : path.lastName = last :=
    OutputPath.lastName_concat lead hlast.isIdle_eq
  have hplace : path.place = path.parent.place ++ [last] :=
    OutputPath.place_parent lead hlast.isIdle_eq hlast.ne_up
  have hstart : ¬ path.place.IsStart := by
    rw [hplace]
    exact Place.not_isStart_append hlast.ne_slash
  have htemporary := lastName_ne_temporary lead hlast
  rw [writeOver_eq _ _ _ htemporary] at hwrite
  split at hwrite
  next made obstacle hmake =>
    obtain ⟨rfl, rfl⟩ := Prod.mk.inj hwrite
    obtain ⟨hmade, hadds, _⟩ := makeDirectories_spec hlinks hmake
    exact ⟨hmade, hadds.keeps _⟩
  next made directory hmake =>
    obtain ⟨hmade, hadds, hgoal⟩ := makeDirectories_spec hlinks hmake
    rw [hgoal directory rfl, hname, ← hplace] at hwrite
    split at hwrite
    next =>
      obtain ⟨rfl, rfl⟩ := Prod.mk.inj hwrite
      exact ⟨hmade, hadds.keeps _⟩
    next =>
      split at hwrite
      next =>
        obtain ⟨rfl, rfl⟩ := Prod.mk.inj hwrite
        exact ⟨hmade, hadds.keeps _⟩
      next hother =>
        obtain ⟨rfl, rfl⟩ := Prod.mk.inj hwrite
        exact ⟨hmade.set rfl _,
          (hadds.keeps _).trans (keeps_set hstart hother text)⟩

theorem place_getLast? (lead : OutputPath) {last : String}
    (hlast : IsFileName last) :
    (OutputPath.place (lead ++ [last])).getLast? = some last := by
  rw [OutputPath.place_parent lead hlast.isIdle_eq hlast.ne_up,
    List.getLast?_concat]

end OutputTree

end RecordMasking

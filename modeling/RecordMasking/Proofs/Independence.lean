import RecordMasking.Proofs.Beside

/-!
# Artifacts of different types

Below one root, types that are made of names have their artifacts at different
places.  A name in code holds no dot, so none of the artifacts lies on the way
to another one, unless the root itself leads past it.  An attempt to emit an
artifact therefore comes to the same before and after the attempts of other
types.
-/

namespace RecordMasking

open Code OutputTree

/-! ## Ways that go down -/

theorem Place.follow_eq_append (place : Place) {names : List String}
    (hdown : ".." ∉ names) : place.follow names = place ++ names := by
  induction names generalizing place with
  | nil => simp
  | cons name rest ih =>
      rw [List.mem_cons, not_or] at hdown
      obtain ⟨hname, hrest⟩ := hdown
      rw [Place.follow_cons, Place.step_of_ne place (Ne.symm hname),
        ih _ hrest, List.append_assoc]
      rfl

theorem OutputTree.onWay_append {place : Place} {names more : List String}
    {passed : Place} :
    OnWay place (names ++ more) passed ↔
      OnWay place names passed ∨ OnWay (place.follow names) more passed := by
  constructor
  · rintro ⟨way, hway, rfl⟩
    have hnames : names <+: names ++ more := List.prefix_append _ _
    rcases List.prefix_or_prefix_of_prefix hway hnames with hshort | hlong
    · exact .inl ⟨way, hshort, rfl⟩
    · obtain ⟨rest, rfl⟩ := hlong
      have hrest := (List.prefix_append_right_inj names).mp hway
      exact .inr ⟨rest, hrest, Place.follow_append place names rest⟩
  · rintro (⟨way, hway, rfl⟩ | ⟨way, hway, rfl⟩)
    · exact ⟨way, hway.trans (List.prefix_append _ _), rfl⟩
    · exact ⟨names ++ way, (List.prefix_append_right_inj names).mpr hway,
        (Place.follow_append place names way).symm⟩

theorem OutputPath.isRooted_append (left : OutputPath) {right : OutputPath}
    (hright : "" ∉ right) : isRooted (left ++ right) = left.isRooted := by
  cases left with
  | nil => exact isRooted_of_not_mem hright
  | cons first rest =>
      rw [List.cons_append, isRooted_cons, isRooted_cons]

/-! ## Where artifacts lie -/

theorem dot_not_mem_of_isWritableName {name : String}
    (hname : isWritableName name = true) : '.' ∉ name.toList :=
  not_mem_of_isWritableName hname (by decide) (by decide)

theorem isIdle_of_isWritableName {name : String}
    (hname : isWritableName name = true) : OutputPath.isIdle name = false := by
  have hdot : name ≠ "." := by
    rintro rfl
    exact dot_not_mem_of_isWritableName hname (by decide)
  simp [OutputPath.isIdle, ne_empty_of_isWritableName hname, hdot]

theorem QualifiedName.not_isWritableName_fileName (type : QualifiedName) :
    isWritableName (fileName type.maskKey) = false := by
  rw [Bool.eq_false_iff]
  intro hwritable
  have hdot := dot_not_mem_of_isWritableName hwritable
  rw [toList_fileName] at hdot
  exact hdot (List.mem_append_right _ (by decide))

namespace QualifiedName.IsProper

variable {type other : QualifiedName}

theorem up_not_mem_segments (hproper : type.IsProper) :
    ".." ∉ type.segments := by
  intro hup
  have hdot := dot_not_mem_of_isWritableName (hproper.1 _ hup)
  exact hdot (by decide)

theorem names_segments (hproper : type.IsProper) :
    OutputPath.names type.segments = type.segments := by
  refine List.filter_eq_self.mpr fun segment hsegment => ?_
  rw [isIdle_of_isWritableName (hproper.1 segment hsegment), Bool.not_false]

variable (emission : Emission)

theorem place_targetPath (hproper : type.IsProper) :
    (emission.targetPath type.maskKey).place =
      emission.root.stem.place ++ type.segments ++
        [fileName type.maskKey] := by
  have hfile := (isArtifactName_fileName type).isFileName
  have hrooted := OutputPath.isRooted_append emission.root.stem
    (empty_not_mem_filePath hproper)
  have hdown : ".." ∉ type.segments ++ [fileName type.maskKey] := by
    rw [List.mem_append, List.mem_singleton, not_or]
    exact ⟨hproper.up_not_mem_segments, Ne.symm hfile.ne_up⟩
  rw [targetPath_eq emission hproper, List.append_assoc]
  unfold OutputPath.place OutputTree.startOf
  rw [hrooted, OutputPath.names_append, OutputPath.names_append,
    hproper.names_segments, OutputPath.names_singleton hfile.isIdle_eq,
    Place.follow_append, Place.follow_eq_append _ hdown, List.append_assoc]

/-- The way to an artifact is that of the root and then goes down. -/
theorem passes_parent_iff (hproper : type.IsProper) {passed : Place} :
    (emission.targetPath type.maskKey).parent.Passes passed ↔
      emission.root.stem.Passes passed ∨
        ∃ front, front <+: type.segments ∧
          passed = emission.root.stem.place ++ front := by
  have hfile := (isArtifactName_fileName type).isFileName
  have hrooted := OutputPath.isRooted_append emission.root.stem
    (empty_not_mem_filePath hproper)
  rw [← List.append_assoc] at hrooted
  obtain ⟨hnames, hparent⟩ := OutputPath.parent_spec
    (emission.root.stem ++ type.segments) hfile.isIdle_eq
  rw [targetPath_eq emission hproper]
  unfold OutputPath.Passes OutputTree.startOf
  rw [hnames, hparent, hrooted, OutputPath.names_append,
    hproper.names_segments, onWay_append]
  refine or_congr_right (exists_congr fun front => ?_)
  refine and_congr_right fun hfront => ?_
  have hdown : ".." ∉ front :=
    fun hup => hproper.up_not_mem_segments (hfront.subset hup)
  rw [Place.follow_eq_append _ hdown]
  rfl

/-- An artifact lies on no other artifact's way, unless on the root's. -/
theorem passes_own (hproper : type.IsProper) (hother : other.IsProper)
    (hpassed : (emission.targetPath type.maskKey).parent.Passes
      (emission.targetPath other.maskKey).place) :
    (emission.targetPath other.maskKey).parent.Passes
      (emission.targetPath other.maskKey).place := by
  rw [hother.passes_parent_iff emission]
  rcases (hproper.passes_parent_iff emission).mp hpassed with
    hroot | ⟨front, hfront, hplace⟩
  · exact .inl hroot
  · rw [hother.place_targetPath, List.append_assoc,
      List.append_cancel_left_eq] at hplace
    have hfile : fileName other.maskKey ∈ type.segments := by
      apply hfront.subset
      rw [← hplace]
      exact List.mem_append_right _ (List.mem_singleton_self _)
    have hwritable := hproper.1 _ hfile
    rw [other.not_isWritableName_fileName] at hwritable
    cases hwritable

end QualifiedName.IsProper

namespace QualifiedName.IsMadeOfNames

variable {type other : QualifiedName}

/-- A type is determined by the segments of its package and the file of its
artifact. -/
theorem eq_of_segments_eq (htype : type.IsMadeOfNames)
    (hother : other.IsMadeOfNames) (hsegments : type.segments = other.segments)
    (hfile : fileName type.maskKey = fileName other.maskKey) :
    type = other := by
  have hpackage : type.package = other.package := by
    rw [htype.joined, hother.joined, hsegments]
  have hname : type.name = other.name := by
    have hchars := congrArg String.toList hfile
    rw [toList_fileName, toList_fileName,
      List.append_cancel_right_eq] at hchars
    exact String.toList_inj.mp hchars
  cases type
  cases other
  exact congrArg₂ QualifiedName.mk hpackage hname

theorem eq_of_place_eq (emission : Emission) (htype : type.IsMadeOfNames)
    (hother : other.IsMadeOfNames)
    (hplace : (emission.targetPath type.maskKey).place =
      (emission.targetPath other.maskKey).place) : type = other := by
  rw [htype.isProper.place_targetPath, hother.isProper.place_targetPath,
    List.append_assoc, List.append_assoc,
    List.append_cancel_left_eq] at hplace
  obtain ⟨hsegments, hfile⟩ := List.append_inj' hplace rfl
  exact htype.eq_of_segments_eq hother hsegments (List.singleton_inj.mp hfile)

/-- Artifacts of different types keep out of each other's way. -/
theorem apart (emission : Emission) (htype : type.IsMadeOfNames)
    (hother : other.IsMadeOfNames) (hne : type ≠ other) :
    (emission.targetPath type.maskKey).Apart
      (emission.targetPath other.maskKey) where
  ne hplace := hne (htype.eq_of_place_eq emission hother hplace)
  left := hother.isProper.passes_own emission htype.isProper
  right := htype.isProper.passes_own emission hother.isProper

end QualifiedName.IsMadeOfNames

/-! ## Attempts of different types -/

namespace Emission

variable {emission : Emission} {tree later : OutputTree}
  {artifact : Artifact} {type : QualifiedName} {types : List QualifiedName}

/-- A tree has grown by nothing but what emissions for the given types may
leave. -/
structure LeftBy (emission : Emission) (types : List QualifiedName)
    (before after : OutputTree) : Prop where
  later : Later emission.root before after
  gained : ∀ place entry, after.entry? place = some entry →
    before.entry? place = some entry ∨
      ∃ type ∈ types, (emission.targetPath type.maskKey).Leaves place entry

theorem LeftBy.refl (emission : Emission) (htree : tree.IsDirectoryTree) :
    emission.LeftBy [] tree tree :=
  ⟨.refl htree _, fun _ _ hentry => .inl hentry⟩

theorem LeftBy.mono {more : List QualifiedName}
    (hleft : emission.LeftBy types tree later) (hmore : types ⊆ more) :
    emission.LeftBy more tree later where
  later := hleft.later
  gained place entry hentry := by
    rcases hleft.gained place entry hentry with hold | ⟨other, hmem, hother⟩
    · exact .inl hold
    · exact .inr ⟨other, hmore hmem, hother⟩

/-- One more type is attempted. -/
theorem LeftBy.attempt (hleft : emission.LeftBy types tree later)
    (hproper : type.IsProper) (hkey : artifact.key = type.maskKey) :
    emission.LeftBy (types ++ [type]) tree
      (emission.attempt later artifact).1 where
  later := hleft.later.trans
    (emission.attempt_again hleft.later.isDirectoryTree hproper hkey).1
  gained place entry hentry := by
    have hhere : later.entry? place = some entry ∨
        (emission.targetPath type.maskKey).Leaves place entry := by
      unfold Emission.attempt at hentry
      rw [hkey, targetPath_eq emission hproper] at hentry
      rw [targetPath_eq emission hproper]
      exact hleft.later.isDirectoryTree.leaves_of_writeAbsent
        (isArtifactName_fileName type).isFileName hentry
    rcases hhere with hbefore | hown
    · exact (hleft.mono (List.subset_append_left types [type])).gained place
        entry hbefore
    · exact .inr ⟨type, List.mem_append_right _ (List.mem_singleton_self _),
        hown⟩

/-- An attempt comes to the same after those of other types, and what it
leaves is added to what they left. -/
theorem attempt_beside (htree : tree.IsDirectoryTree)
    (htype : type.IsMadeOfNames) (hkey : artifact.key = type.maskKey)
    (hleft : emission.LeftBy types tree later)
    (hothers : ∀ other ∈ types, other.IsMadeOfNames ∧ type ≠ other) :
    (emission.attempt later artifact).2 =
        (emission.attempt tree artifact).2 ∧
      Joins later (emission.attempt tree artifact).1
        (emission.attempt later artifact).1 := by
  cases hnul : hasNul emission.root with
  | true =>
      -- Nothing is ever left below such a root.
      have hsame := hleft.later.same hnul
      have hattempt := (emission.attempt_again htree htype.isProper
        hkey).1.same hnul
      rw [hsame, hattempt]
      exact ⟨rfl, .of_grows (.refl tree)⟩
  | false =>
      obtain ⟨lead, last, hpath, hname, hlastNul, hlead⟩ :=
        exists_properTarget emission htype.isProper
      have hparent : hasNul (OutputPath.parent (lead ++ [last])) = false := by
        rw [OutputPath.hasNul_parent lead hname.isFileName.isIdle_eq, hlead,
          hnul]
      unfold attempt
      rw [hkey, hpath]
      refine htree.writeAbsent_beside hleft.later.isDirectoryTree
        hleft.later.grows hname.isFileName hlastNul hparent ?_
      intro place entry hentry
      refine (hleft.gained place entry hentry).imp_right ?_
      rintro ⟨other, hmem, hleaves⟩
      obtain ⟨hother, hne⟩ := hothers other hmem
      have hapart := htype.apart emission hother hne
      rw [hpath] at hapart
      exact ⟨_, hapart, hleaves⟩

end Emission

end RecordMasking

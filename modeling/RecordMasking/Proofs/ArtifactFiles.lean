import RecordMasking.Proofs.EntryFile

/-!
# Files of artifacts

Below an output directory a package is a directory, with one name for each of
its segments, and an artifact is a file in the directory of its package.  The
name of the file has a dot in it, which no name in code has, so that no file
of an artifact is a directory of a package or lies above another file; and it
has an ending that neither an index nor the manifest has.

A package is made of names when it is joined from them.  A text such as
`models::` has the segments of `models`, but its second stretch is no name.
-/

namespace RecordMasking

open Code

namespace OutputPath

/-- Paths are compared name by name: a path is within a directory when the
names of the directory are the first names of the path. -/
def IsWithin (path directory : OutputPath) : Prop :=
  directory.components <+: path.components

theorem getLast?_components (lead : OutputPath) {last : String}
    (hlast : isIdle last = false) :
    (components (lead ++ [last])).getLast? = some last := by
  unfold components
  rw [names_concat lead hlast, ← List.append_assoc, List.getLast?_concat]

end OutputPath

namespace QualifiedName

variable {type other : QualifiedName}

theorem IsProper.components_filePath (hproper : type.IsProper) :
    type.maskKey.filePath.components =
      type.segments ++ [fileName type.maskKey] := by
  rw [OutputPath.components_eq_self fun _ => hproper.isIdle_of_mem_filePath,
    filePath_eq hproper]

/-- The file of an artifact is named like no directory of a package. -/
theorem fileName_not_mem (type : QualifiedName) {names : List String}
    (hnames : ∀ name ∈ names, isWritableName name = true) :
    fileName type.maskKey ∉ names := by
  intro hfile
  have hwritable := hnames _ hfile
  rw [type.not_isWritableName_fileName] at hwritable
  cases hwritable

theorem IsMadeOfNames.components_filePath_inj (htype : type.IsMadeOfNames)
    (hother : other.IsMadeOfNames)
    (hsame : type.maskKey.filePath.components =
      other.maskKey.filePath.components) : type = other := by
  rw [htype.isProper.components_filePath,
    hother.isProper.components_filePath] at hsame
  obtain ⟨hsegments, hfile⟩ := List.append_inj' hsame rfl
  exact htype.eq_of_segments_eq hother hsegments (List.singleton_inj.mp hfile)

theorem IsMadeOfNames.not_isWithin (htype : type.IsMadeOfNames)
    (hother : other.IsMadeOfNames) (hne : type ≠ other) :
    ¬ type.maskKey.filePath.IsWithin other.maskKey.filePath := by
  intro hwithin
  unfold OutputPath.IsWithin at hwithin
  rw [htype.isProper.components_filePath, List.prefix_concat_iff] at hwithin
  rcases hwithin with hwhole | hsegments
  · rw [← htype.isProper.components_filePath] at hwhole
    exact hne (hother.components_filePath_inj htype hwhole).symm
  · apply fileName_not_mem other htype.isProper.1
    apply hsegments.subset
    rw [hother.isProper.components_filePath]
    exact List.mem_append_right _ (List.mem_singleton_self _)

theorem components_directory {names : List String}
    (hnames : ∀ name ∈ names, isWritableName name = true) :
    OutputPath.components (Package.directory (Package.ofSegments names)) =
      names := by
  have hdirectory : Package.directory (Package.ofSegments names) = names := by
    unfold Package.directory
    rw [Package.segments_ofSegments hnames,
      foldl_join_segments hnames List.not_mem_nil, List.nil_append]
  rw [hdirectory]
  apply OutputPath.components_eq_self
  intro name hname
  exact isIdle_of_isWritableName (hnames name hname)

theorem IsProper.not_isWithin_directory (hproper : type.IsProper)
    {names : List String}
    (hnames : ∀ name ∈ names, isWritableName name = true) :
    ¬ OutputPath.IsWithin (Package.directory (Package.ofSegments names))
      type.maskKey.filePath := by
  intro hwithin
  unfold OutputPath.IsWithin at hwithin
  rw [components_directory hnames, hproper.components_filePath] at hwithin
  apply fileName_not_mem type hnames
  apply hwithin.subset
  exact List.mem_append_right _ (List.mem_singleton_self _)

theorem IsProper.components_filePath_ne (hproper : type.IsProper)
    (lead : OutputPath) {last : String} (hlast : OutputPath.isIdle last = false)
    (hname : ¬ IsArtifactName last) :
    type.maskKey.filePath.components ≠
      OutputPath.components (lead ++ [last]) := by
  intro hsame
  have hends := congrArg List.getLast? hsame
  rw [hproper.components_filePath, List.getLast?_concat,
    OutputPath.getLast?_components lead hlast] at hends
  rw [← Option.some.inj hends] at hname
  exact hname (isArtifactName_fileName type)

/-- Types that are made of names have different files, none of which lies
above another one or above the directory of a package; none is the index of
any package, or the manifest; and the package of such a type is joined from
its segments. -/
theorem artifact_files_never_collide (htype : type.IsMadeOfNames) :
    (∀ other : QualifiedName, other.IsMadeOfNames → type ≠ other →
        type.maskKey.filePath.components ≠
            other.maskKey.filePath.components ∧
          ¬ type.maskKey.filePath.IsWithin other.maskKey.filePath ∧
          ¬ other.maskKey.filePath.IsWithin type.maskKey.filePath) ∧
      (∀ names : List String, (∀ name ∈ names, isWritableName name = true) →
        ¬ OutputPath.IsWithin (Package.directory (Package.ofSegments names))
          type.maskKey.filePath) ∧
      (∀ package : Package, type.maskKey.filePath.components ≠
        OutputPath.components (package.directory.join [indexFile])) ∧
      type.maskKey.filePath.components ≠
        OutputPath.components [manifestFile] ∧
      Package.ofSegments type.segments = type.package := by
  refine ⟨?_, ?_, ?_, ?_, htype.joined.symm⟩
  · intro other hother hne
    exact ⟨fun hsame => hne (htype.components_filePath_inj hother hsame),
      htype.not_isWithin hother hne, hother.not_isWithin htype hne.symm⟩
  · intro names hnames
    exact htype.isProper.not_isWithin_directory hnames
  · intro package
    obtain ⟨lead, hlead⟩ :=
      OutputPath.exists_join_concat package.directory [] indexFile
    rw [List.nil_append] at hlead
    rw [hlead]
    exact htype.isProper.components_filePath_ne lead
      isFileName_indexFile.isIdle_eq not_isArtifactName_indexFile
  · exact htype.isProper.components_filePath_ne []
      isFileName_manifestFile.isIdle_eq not_isArtifactName_manifestFile

/-- Raw names, in a module inside of the one of the other type. -/
theorem raw_artifact_files_never_collide :
    let card : QualifiedName := ⟨"models", "Card"⟩
    let raw : QualifiedName := ⟨"models::r#mod", "r#Card"⟩
    card.IsMadeOfNames ∧ raw.IsMadeOfNames ∧ card ≠ raw ∧
      card.maskKey.filePath.text = "models/CardMask.rs" ∧
      raw.maskKey.filePath.text = "models/r#mod/r#CardMask.rs" ∧
      ¬ raw.maskKey.filePath.IsWithin card.maskKey.filePath ∧
      raw.maskKey.filePath.components ≠
        OutputPath.components (Package.directory "models" |>.join [indexFile]) ∧
      Package.ofSegments raw.segments = "models::r#mod" := by
  intro card raw
  have hcard : card.IsMadeOfNames := by decide +kernel
  have hraw : raw.IsMadeOfNames := by decide +kernel
  have hne : card ≠ raw := by decide
  obtain ⟨hfiles, _, hindexes, _, hjoined⟩ := artifact_files_never_collide hraw
  exact ⟨hcard, hraw, hne, by decide +kernel, by decide +kernel,
    (hfiles card hcard hne.symm).2.1, hindexes "models", hjoined⟩

end QualifiedName

end RecordMasking

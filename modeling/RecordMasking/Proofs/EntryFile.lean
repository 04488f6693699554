import RecordMasking.Proofs.Independence

/-!
# The files of manifest entries

An entry holds the path of its file as a text.  The path of an artifact of a
properly named type is made of names without slashes, none of them empty or a
dot, so that nothing is lost in the text: it reads back to the path.
-/

namespace RecordMasking

open Code

namespace OutputPath

theorem toList_text_cons_cons (first second : String)
    (others : OutputPath) :
    (text (first :: second :: others)).toList =
      first.toList ++ '/' :: (text (second :: others)).toList := by
  unfold text
  rw [String.intercalate_cons_cons]
  simp

theorem splitAt_text {path : OutputPath} (hpath : path ≠ [])
    (hslash : ∀ name ∈ path, '/' ∉ name.toList) :
    (splitAt '/' path.text.toList).map String.ofList = path := by
  cases path with
  | nil => exact absurd rfl hpath
  | cons first rest =>
      have hpieces : splitAt '/' (text (first :: rest)).toList =
          (first :: rest).map String.toList :=
        splitAt_intercalate rfl hslash
      rw [hpieces, List.map_map]
      simp

theorem text_ne_empty {path : OutputPath} (hpath : path ≠ [])
    (hnames : ∀ name ∈ path, name ≠ "") : path.text ≠ "" := by
  cases path with
  | nil => exact absurd rfl hpath
  | cons first rest =>
      cases rest with
      | nil =>
          unfold text
          rw [String.intercalate_singleton]
          exact hnames first List.mem_cons_self
      | cons second others =>
          rw [Ne, ← String.toList_eq_nil_iff, toList_text_cons_cons]
          simp

/-- The text of a path of names reads back to it. -/
theorem ofText_text {path : OutputPath} (hpath : path ≠ [])
    (hnames : ∀ name ∈ path, name ≠ "" ∧ '/' ∉ name.toList) :
    ofText path.text = path := by
  have hsome := text_ne_empty hpath fun name hname => (hnames name hname).1
  unfold ofText
  rw [if_neg (by simpa using hsome)]
  exact splitAt_text hpath fun name hname => (hnames name hname).2

theorem components_eq_self {path : OutputPath}
    (hpath : ∀ stretch ∈ path, isIdle stretch = false) :
    path.components = path := by
  have hnames : path.names = path :=
    List.filter_eq_self.mpr fun stretch hstretch => by
      simp [hpath stretch hstretch]
  unfold components
  rw [hnames]
  split
  next => simp [isIdle] at hpath
  next => simp [isIdle] at hpath
  next => rfl

end OutputPath

namespace QualifiedName.IsProper

variable {type : QualifiedName}

theorem isIdle_of_mem_filePath (hproper : type.IsProper) {stretch : String}
    (hstretch : stretch ∈ type.maskKey.filePath) :
    OutputPath.isIdle stretch = false := by
  rw [filePath_eq hproper, List.mem_append, List.mem_singleton] at hstretch
  rcases hstretch with hsegment | rfl
  · rw [← hproper.names_segments] at hsegment
    simpa using (List.mem_filter.mp hsegment).2
  · exact (isArtifactName_fileName type).isFileName.isIdle_eq

theorem slash_not_mem_filePath (hproper : type.IsProper) {stretch : String}
    (hstretch : stretch ∈ type.maskKey.filePath) : '/' ∉ stretch.toList := by
  rw [filePath_eq hproper, List.mem_append, List.mem_singleton] at hstretch
  rcases hstretch with hsegment | rfl
  · exact not_mem_of_isWritableName (hproper.1 stretch hsegment) (by decide)
      (by decide)
  · rw [toList_fileName, List.mem_append, not_or]
    exact ⟨not_mem_of_isWritableName hproper.2 (by decide) (by decide),
      slash_not_mem_artifactEnding⟩

/-- The file of an entry is the text of its artifact's path, and reads back to
the path. -/
theorem file_eq (hproper : type.IsProper) {artifact : Artifact}
    (hkey : artifact.key = type.maskKey) (outcome : Outcome) :
    (ManifestEntry.ofArtifact artifact outcome).file =
        artifact.key.filePath.text ∧
      OutputPath.ofText (ManifestEntry.ofArtifact artifact outcome).file =
        artifact.key.filePath := by
  have hcomponents : artifact.key.filePath.components =
      artifact.key.filePath := by
    rw [hkey]
    exact OutputPath.components_eq_self fun _ => hproper.isIdle_of_mem_filePath
  have hfile : (ManifestEntry.ofArtifact artifact outcome).file =
      artifact.key.filePath.text :=
    congrArg ("/".intercalate ·) hcomponents
  refine ⟨hfile, ?_⟩
  rw [hfile, hkey]
  refine OutputPath.ofText_text ?_ fun stretch hstretch => ⟨?_, ?_⟩
  · rw [filePath_eq hproper]
    exact List.concat_ne_nil _ _
  · rintro rfl
    have hidle := hproper.isIdle_of_mem_filePath hstretch
    simp [OutputPath.isIdle] at hidle
  · exact hproper.slash_not_mem_filePath hstretch

end QualifiedName.IsProper

end RecordMasking

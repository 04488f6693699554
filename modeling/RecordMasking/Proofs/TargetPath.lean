import RecordMasking.Emission
import RecordMasking.Proofs.Route
import RecordMasking.Proofs.Splitting

/-!
# Paths that end in a file name

All paths that are written to end in a name: the name of an artifact, of an
index or of a manifest.  For such a path the parent leads to the directory of
the file, whatever the stretches before the name are.  None of the names is
one of a temporary file, and no artifact has the name of an index or of a
manifest.
-/

namespace RecordMasking

namespace OutputPath

/-- The place that a path leads to where there are no links. -/
def place (path : OutputPath) : Place :=
  (OutputTree.startOf path).follow path.names

theorem names_append (left right : OutputPath) :
    names (left ++ right) = left.names ++ right.names :=
  List.filter_append _ _

theorem names_singleton {last : String} (hlast : isIdle last = false) :
    names [last] = [last] := by
  simp [names, hlast]

theorem names_concat (lead : OutputPath) {last : String}
    (hlast : isIdle last = false) :
    names (lead ++ [last]) = lead.names ++ [last] := by
  rw [names_append, names_singleton hlast]

theorem lastName_concat (lead : OutputPath) {last : String}
    (hlast : isIdle last = false) : lastName (lead ++ [last]) = last := by
  rw [lastName, names_concat lead hlast, List.getLast?_concat]
  rfl

theorem filter_dropWhile_isIdle (path : OutputPath) :
    (path.dropWhile isIdle).filter (fun stretch => !isIdle stretch) =
      path.filter fun stretch => !isIdle stretch := by
  induction path with
  | nil => rfl
  | cons first rest ih =>
      by_cases hfirst : isIdle first = true
      · simpa [hfirst] using ih
      · simp [hfirst]

theorem withoutLastName_concat (lead : OutputPath) {last : String}
    (hlast : isIdle last = false) :
    withoutLastName (lead ++ [last]) =
      (lead.reverse.dropWhile isIdle).reverse := by
  simp [withoutLastName, hlast]

theorem names_withoutLastName (lead : OutputPath) {last : String}
    (hlast : isIdle last = false) :
    names (withoutLastName (lead ++ [last])) = lead.names := by
  rw [withoutLastName_concat lead hlast, names, List.filter_reverse,
    filter_dropWhile_isIdle, ← List.filter_reverse, List.reverse_reverse]
  rfl

theorem withoutLastName_begins (lead : OutputPath) {last : String}
    (hlast : isIdle last = false) :
    withoutLastName (lead ++ [last]) <+: lead := by
  rw [withoutLastName_concat lead hlast]
  have hsuffix := List.dropWhile_suffix isIdle (l := lead.reverse)
  simpa using List.reverse_prefix.mpr hsuffix

theorem parent_of_not_isRooted {path : OutputPath}
    (hpath : path.isRooted = false) : path.parent = withoutLastName path := by
  unfold parent
  split
  · simp [isRooted] at hpath
  · rfl

theorem isRooted_cons (first : String) (rest : OutputPath) :
    isRooted (first :: rest) = (first == "") := by
  unfold isRooted
  rw [List.head?_cons, Option.some_beq_some]

/-- The parent of a path is one of its beginnings, unless nothing but the
root is left of it. -/
theorem parent_cases (lead : OutputPath) {last : String}
    (hlast : isIdle last = false) :
    parent (lead ++ [last]) = withoutLastName (lead ++ [last]) ∧
        (lead ++ [last]).isRooted = false ∨
      ∃ rest, lead = "" :: rest ∧
        (parent (lead ++ [last]) = "" :: withoutLastName (rest ++ [last]) ∨
          parent (lead ++ [last]) = ["", ""] ∧
            withoutLastName (rest ++ [last]) = []) := by
  have hrelative : (lead ++ [last]).isRooted = false →
      parent (lead ++ [last]) = withoutLastName (lead ++ [last]) ∧
        (lead ++ [last]).isRooted = false :=
    fun hrooted => ⟨parent_of_not_isRooted hrooted, hrooted⟩
  cases lead with
  | nil =>
      have hne : last ≠ "" := by
        rintro rfl
        simp [isIdle] at hlast
      exact .inl (hrelative (by simpa [isRooted_cons] using hne))
  | cons first rest =>
      by_cases hfirst : first = ""
      · subst hfirst
        refine .inr ⟨rest, rfl, ?_⟩
        rw [List.cons_append, parent]
        split
        next hempty => exact .inr ⟨rfl, hempty⟩
        next => exact .inl rfl
      · exact .inl (hrelative (by simpa [isRooted_cons] using hfirst))

theorem parent_spec (lead : OutputPath) {last : String}
    (hlast : isIdle last = false) :
    (parent (lead ++ [last])).names = lead.names ∧
      (parent (lead ++ [last])).isRooted = (lead ++ [last]).isRooted := by
  rcases parent_cases lead hlast with
    ⟨hparent, hrooted⟩ | ⟨rest, rfl, hparent | ⟨hparent, hempty⟩⟩
  · rw [hparent, hrooted]
    refine ⟨names_withoutLastName lead hlast, ?_⟩
    -- What is left starts as the path does, or is empty.
    obtain ⟨more, hmore⟩ := withoutLastName_begins lead hlast
    cases hcut : withoutLastName (lead ++ [last]) with
    | nil => rfl
    | cons head others =>
        rw [hcut] at hmore
        rw [← hmore, List.cons_append, List.cons_append,
          isRooted_cons] at hrooted
        rw [isRooted_cons, hrooted]
  · rw [hparent]
    exact ⟨names_withoutLastName rest hlast, rfl⟩
  · have hnames := names_withoutLastName rest hlast
    rw [hempty] at hnames
    rw [hparent]
    exact ⟨hnames, rfl⟩

theorem place_parent (lead : OutputPath) {last : String}
    (hlast : isIdle last = false) (hdown : last ≠ "..") :
    (lead ++ [last]).place = (parent (lead ++ [last])).place ++ [last] := by
  obtain ⟨hnames, hrooted⟩ := parent_spec lead hlast
  unfold place OutputTree.startOf
  rw [hnames, hrooted, names_concat lead hlast, Place.follow_append,
    Place.follow_cons, Place.step_of_ne _ hdown, Place.follow_nil]

theorem utf8ByteSize_text_le {left whole : OutputPath}
    (hbegins : left <+: whole) :
    left.text.utf8ByteSize ≤ whole.text.utf8ByteSize := by
  unfold text
  induction left generalizing whole with
  | nil => exact Nat.zero_le _
  | cons first rest ih =>
      obtain ⟨more, rfl⟩ := hbegins
      have hrest := ih (List.prefix_append rest more)
      cases rest with
      | nil =>
          cases more with
          | nil => exact Nat.le_refl _
          | cons next others =>
              rw [List.cons_append, List.nil_append,
                String.intercalate_singleton, String.intercalate_cons_cons]
              simp only [String.utf8ByteSize_append]
              omega
      | cons second others =>
          rw [List.cons_append] at hrest ⊢
          rw [List.cons_append, String.intercalate_cons_cons,
            String.intercalate_cons_cons]
          simp only [String.utf8ByteSize_append]
          omega

/-- A path is at least as long as its parent. -/
theorem utf8ByteSize_parent_le (lead : OutputPath) {last : String}
    (hlast : isIdle last = false) :
    (parent (lead ++ [last])).text.utf8ByteSize ≤
      (text (lead ++ [last])).utf8ByteSize := by
  rcases parent_cases lead hlast with
    ⟨hparent, _⟩ | ⟨rest, rfl, hparent | ⟨hparent, _⟩⟩
  · rw [hparent]
    exact utf8ByteSize_text_le
      ((withoutLastName_begins lead hlast).trans (List.prefix_append _ _))
  · rw [hparent]
    refine utf8ByteSize_text_le (List.cons_prefix_cons.mpr ⟨rfl, ?_⟩)
    exact (withoutLastName_begins rest hlast).trans (List.prefix_append _ _)
  · have hroot : (text ["", ""]).utf8ByteSize = "/".utf8ByteSize := by decide
    obtain ⟨second, others, hrest⟩ :=
      List.exists_cons_of_ne_nil (List.concat_ne_nil last rest)
    rw [hparent, hroot, List.cons_append, hrest,
      text, String.intercalate_cons_cons]
    simp only [String.utf8ByteSize_append]
    omega

/-- Joining leaves the end of the joined path as it is. -/
theorem exists_join_concat (base piece : OutputPath) (last : String) :
    ∃ lead, base.join (piece ++ [last]) = lead ++ [last] := by
  unfold join
  split
  · exact ⟨piece, rfl⟩
  · split
    next hempty => simp at hempty
    next => exact ⟨base.stem ++ piece, by simp⟩

end OutputPath

/-! ## Names of files -/

theorem splitAt_append {mark : Char} {ending : List Char}
    (hmark : mark ∉ ending) (text : List Char) :
    ∃ before piece, splitAt mark (text ++ ending) =
      before ++ [piece ++ ending] := by
  induction text with
  | nil => exact ⟨[], [], splitAt_of_not_mem hmark⟩
  | cons c rest ih =>
      obtain ⟨before, piece, hrest⟩ := ih
      rw [List.cons_append, splitAt, hrest]
      split
      · exact ⟨[] :: before, piece, rfl⟩
      · cases before with
        | nil => exact ⟨[], c :: piece, rfl⟩
        | cons first others => exact ⟨(c :: first) :: others, piece, rfl⟩

def artifactEnding : List Char := "Mask.rs".toList

/-- The end of every artifact's file name. -/
def IsArtifactName (name : String) : Prop := artifactEnding <:+ name.toList

instance (name : String) : Decidable (IsArtifactName name) :=
  inferInstanceAs (Decidable (artifactEnding <:+ name.toList))

theorem slash_not_mem_artifactEnding : '/' ∉ artifactEnding := by
  decide

theorem toList_fileName (type : QualifiedName) :
    (QualifiedName.fileName type.maskKey).toList =
      type.name.toList ++ artifactEnding := by
  unfold QualifiedName.fileName QualifiedName.maskKey artifactEnding
  rw [String.toList_append, String.toList_append, List.append_assoc]
  congr 1

theorem exists_targetPath (emission : Emission) (type : QualifiedName) :
    ∃ lead last, emission.targetPath type.maskKey = lead ++ [last] ∧
      IsArtifactName last := by
  have hfile := toList_fileName type
  have hne : (QualifiedName.fileName type.maskKey).isEmpty = false := by
    rw [Bool.eq_false_iff, Ne, String.isEmpty_iff, ← String.toList_eq_nil_iff,
      hfile]
    exact List.append_ne_nil_of_right_ne_nil _ (by decide)
  obtain ⟨before, piece, hsplit⟩ :=
    splitAt_append slash_not_mem_artifactEnding type.name.toList
  have hpath : OutputPath.ofText (QualifiedName.fileName type.maskKey) =
      before.map String.ofList ++
        [String.ofList (piece ++ artifactEnding)] := by
    simp only [OutputPath.ofText, hne, hfile, hsplit, Bool.false_eq_true,
      if_false, List.map_append, List.map_cons, List.map_nil]
  unfold Emission.targetPath QualifiedName.filePath
  rw [hpath]
  obtain ⟨lead, hlead⟩ := OutputPath.exists_join_concat
    type.maskKey.package.directory (before.map String.ofList)
    (String.ofList (piece ++ artifactEnding))
  rw [hlead]
  obtain ⟨front, hfront⟩ := OutputPath.exists_join_concat emission.root lead
    (String.ofList (piece ++ artifactEnding))
  exact ⟨front, _, hfront, piece, String.toList_ofList.symm⟩

/-- A name that files are given: it leads down to them, and no temporary file
has it. -/
structure IsFileName (name : String) : Prop where
  isIdle_eq : OutputPath.isIdle name = false
  ne_up : name ≠ ".."
  ne_slash : name ≠ "/"
  ne_temporary : ∀ n, name ≠ OutputTree.temporaryName n

theorem OutputTree.exists_last_temporaryName (n : Nat) :
    ∃ c, (temporaryName n).toList.getLast? = some c ∧ c.isDigit = true := by
  have hne : Nat.toDigits 10 n ≠ [] := Nat.toDigits_ne_nil
  refine ⟨(Nat.toDigits 10 n).getLast hne, ?_,
    Nat.isDigit_of_mem_toDigits (by decide) (by decide)
      (List.getLast_mem hne)⟩
  have htext : (temporaryName n).toList =
      ".tmp".toList ++ Nat.toDigits 10 n := by
    simp [temporaryName]
  rw [htext, List.getLast?_append_of_ne_nil _ hne, List.getLast?_eq_some_getLast hne]

theorem ne_temporaryName_of_last {name : String} {c : Char}
    (hlast : name.toList.getLast? = some c) (hdigit : c.isDigit = false)
    (n : Nat) : name ≠ OutputTree.temporaryName n := by
  rintro rfl
  obtain ⟨d, hd, hisDigit⟩ := OutputTree.exists_last_temporaryName n
  obtain rfl : c = d := Option.some.inj (hlast.symm.trans hd)
  simp [hdigit] at hisDigit

theorem IsArtifactName.isFileName {name : String}
    (hname : IsArtifactName name) : IsFileName name := by
  have hne : ∀ other, ¬ IsArtifactName other → name ≠ other := by
    rintro other hother rfl
    exact hother hname
  obtain ⟨front, hfront⟩ := hname
  have hlast : name.toList.getLast? = some 's' := by
    rw [← hfront, List.getLast?_append_of_ne_nil _ (by decide)]
    decide
  refine ⟨?_, hne _ (by decide), hne _ (by decide),
    ne_temporaryName_of_last hlast (by decide)⟩
  unfold OutputPath.isIdle
  rw [Bool.or_eq_false_iff, beq_eq_false_iff_ne, Bool.eq_false_iff, Ne,
    String.isEmpty_iff]
  exact ⟨hne _ (by decide), hne _ (by decide)⟩

theorem isFileName_indexFile : IsFileName indexFile :=
  ⟨by decide, by decide, by decide,
    ne_temporaryName_of_last (c := 's') (by decide) (by decide)⟩

theorem isFileName_manifestFile : IsFileName manifestFile :=
  ⟨by decide, by decide, by decide,
    ne_temporaryName_of_last (c := 'n') (by decide) (by decide)⟩

theorem not_isArtifactName_indexFile : ¬ IsArtifactName indexFile := by
  decide

theorem not_isArtifactName_manifestFile : ¬ IsArtifactName manifestFile := by
  decide

end RecordMasking

import Mathlib.Data.List.TakeWhile
import RecordMasking.Code.Lexer
import RecordMasking.Proofs.TargetPath

/-!
# Artifacts of properly named types

The package and the name of a declared type consist of names that code can be
written with.  Such names hold no slash and no NUL, so the artifact of the
type lies below the root of its emission, one directory down for each segment
of the package, and its path holds a NUL only if the root does.
-/

namespace RecordMasking

open Code

/-- Both the segments of the package and the name are names in code. -/
def QualifiedName.IsProper (id : QualifiedName) : Prop :=
  (∀ segment ∈ id.segments, isWritableName segment = true) ∧
    isWritableName id.name = true

instance (id : QualifiedName) : Decidable id.IsProper :=
  inferInstanceAs (Decidable (_ ∧ _))

/-! ## The characters of a name -/

namespace Code

theorem continuesName_of_startsName {c : Char} (hc : startsName c = true) :
    continuesName c = true := by
  unfold startsName at hc
  unfold continuesName Char.isAlphanum
  simp only [Bool.or_eq_true, Bool.and_eq_true] at hc ⊢
  tauto

theorem continuesName_of_name? {text : List Char}
    (htext : Lexer.name? text = some []) :
    text ≠ [] ∧ ∀ c ∈ text, continuesName c = true := by
  cases text with
  | nil => simp [Lexer.name?] at htext
  | cons first rest =>
      rw [Lexer.name?] at htext
      split at htext
      next hfirst =>
        have hrest := List.dropWhile_eq_nil_iff.mp (Option.some.inj htext)
        exact ⟨List.cons_ne_nil _ _, List.forall_mem_cons.mpr
          ⟨continuesName_of_startsName hfirst, hrest⟩⟩
      next => simp at htext

theorem Lexer.dropPrefix?_append (front rest : List Char) :
    dropPrefix? front (front ++ rest) = some rest := by
  induction front with
  | nil => rfl
  | cons c others ih => simp [dropPrefix?, ih]

theorem eq_append_of_dropPrefix? {front text rest : List Char}
    (hdrop : Lexer.dropPrefix? front text = some rest) :
    text = front ++ rest := by
  fun_induction Lexer.dropPrefix? front text with
  | case1 text => exact Option.some.inj hdrop
  | case2 c front text ih => rw [ih hdrop, List.cons_append]
  | case3 => simp at hdrop
  | case4 => simp at hdrop

theorem chars_of_isWritableName {name : String}
    (hname : isWritableName name = true) :
    name.toList ≠ [] ∧
      ∀ c ∈ name.toList, continuesName c = true ∨ c = '#' := by
  unfold isWritableName at hname
  rw [beq_iff_eq] at hname
  unfold Lexer.anyName? at hname
  split at hname
  next =>
    obtain ⟨hne, hchars⟩ := continuesName_of_name? hname
    exact ⟨hne, fun c hc => .inl (hchars c hc)⟩
  next bare hbare =>
    split at hname
    next => simp at hname
    next rest hrest =>
      split at hname
      next => simp at hname
      next =>
        obtain rfl := Option.some.inj hname
        obtain ⟨_, hchars⟩ := continuesName_of_name? hrest
        rw [eq_append_of_dropPrefix? hbare]
        refine ⟨by simp, ?_⟩
        intro c hc
        rw [List.cons_append, List.cons_append, List.mem_cons,
          List.mem_cons] at hc
        rcases hc with rfl | rfl | hbody
        · exact .inl (by decide)
        · exact .inr rfl
        · exact .inl (hchars c hbody)

theorem not_mem_of_isWritableName {name : String}
    (hname : isWritableName name = true) {c : Char}
    (hc : continuesName c = false) (hmark : c ≠ '#') : c ∉ name.toList := by
  intro hmem
  rcases (chars_of_isWritableName hname).2 c hmem with hcontinues | heq
  · simp [hc] at hcontinues
  · exact hmark heq

end Code

/-! ## Packages made of names -/

namespace Package

theorem pieces_eq_splitAtPair (text : List Char) :
    pieces text = splitAtPair ':' ':' text := by
  induction text using pieces.induct with
  | case1 => rfl
  | case2 rest ih => rw [pieces, splitAtPair, if_pos ⟨rfl, rfl⟩, ih]
  | case3 c rest hpair hnil ih =>
      rw [splitAtPair_cons hpair, ← ih]
      exact pieces.eq_3 c rest hpair
  | case4 c rest hpair piece others hsplit ih =>
      rw [splitAtPair_cons hpair, ← ih]
      exact pieces.eq_3 c rest hpair

/-- A package is split into the segments it is joined from. -/
theorem segments_ofSegments {names : List String}
    (hnames : ∀ name ∈ names, isWritableName name = true) :
    segments (ofSegments names) = names := by
  cases names with
  | nil => rfl
  | cons first rest =>
      have hcolons : ∀ name ∈ first :: rest, ':' ∉ name.toList := by
        intro name hname
        exact not_mem_of_isWritableName (hnames name hname) (by decide)
          (by decide)
      have hpieces : pieces (ofSegments (first :: rest)).toList =
          (first :: rest).map String.toList := by
        rw [pieces_eq_splitAtPair]
        exact splitAtPair_intercalate rfl hcolons
      have hfilled : ∀ piece ∈ (first :: rest).map String.toList,
          (!piece.isEmpty) = true := by
        intro piece hpiece
        obtain ⟨name, hname, rfl⟩ := List.mem_map.mp hpiece
        simpa using (chars_of_isWritableName (hnames name hname)).1
      unfold segments
      rw [hpieces, List.filter_eq_self.mpr hfilled, List.map_map]
      simp

end Package

/-- A name in a package that is joined from names in code. -/
structure QualifiedName.IsMadeOfNames (id : QualifiedName) : Prop where
  package : ∃ names, id.package = Package.ofSegments names ∧
    ∀ name ∈ names, isWritableName name = true
  name : isWritableName id.name = true

namespace QualifiedName

variable {id : QualifiedName}

theorem isMadeOfNames_iff : id.IsMadeOfNames ↔
    id.IsProper ∧ id.package = Package.ofSegments id.segments := by
  constructor
  · rintro ⟨⟨names, hpackage, hnames⟩, hname⟩
    have hsegments : id.segments = names := by
      rw [segments, hpackage, Package.segments_ofSegments hnames]
    exact ⟨⟨hsegments ▸ hnames, hname⟩, hsegments ▸ hpackage⟩
  · rintro ⟨⟨hsegments, hname⟩, hpackage⟩
    exact ⟨⟨id.segments, hpackage, hsegments⟩, hname⟩

instance : Decidable id.IsMadeOfNames :=
  decidable_of_iff _ isMadeOfNames_iff.symm

theorem IsMadeOfNames.isProper (hnames : id.IsMadeOfNames) : id.IsProper :=
  (isMadeOfNames_iff.mp hnames).1

theorem IsMadeOfNames.joined (hnames : id.IsMadeOfNames) :
    id.package = Package.ofSegments id.segments :=
  (isMadeOfNames_iff.mp hnames).2

end QualifiedName

/-! ## Paths made of names -/

namespace OutputPath

theorem ofText_of_not_mem {text : String} (hne : text ≠ "")
    (hslash : '/' ∉ text.toList) : ofText text = [text] := by
  unfold ofText
  rw [if_neg (by simpa using hne), splitAt_of_not_mem hslash]
  simp

theorem stem_eq_self {path : OutputPath} (hpath : "" ∉ path) :
    path.stem = path := by
  unfold stem
  refine if_neg fun hlast => hpath ?_
  rw [beq_iff_eq] at hlast
  exact List.mem_of_getLast? hlast

theorem join_eq_stem_append (base : OutputPath) {piece : OutputPath}
    (hne : piece ≠ []) (hpiece : piece.isRooted = false) :
    base.join piece = base.stem ++ piece := by
  unfold join
  cases base with
  | nil => simp [hpiece, stem]
  | cons first rest => simp [hpiece, hne]

theorem isRooted_of_not_mem {path : OutputPath} (hpath : "" ∉ path) :
    path.isRooted = false := by
  cases path with
  | nil => rfl
  | cons first rest =>
      rw [isRooted_cons, beq_eq_false_iff_ne]
      rintro rfl
      exact hpath (List.mem_cons_self ..)

/-! ## NUL characters -/

theorem hasNul_append (left right : OutputPath) :
    OutputTree.hasNul (left ++ right) =
      (OutputTree.hasNul left || OutputTree.hasNul right) :=
  List.any_append

theorem hasNul_names (path : OutputPath) :
    OutputTree.hasNul path.names = OutputTree.hasNul path := by
  unfold OutputTree.hasNul names
  rw [List.any_filter]
  congr 1
  funext stretch
  cases hidle : isIdle stretch with
  | false => rfl
  | true =>
      have hcases : stretch = "" ∨ stretch = "." := by
        simpa [isIdle] using hidle
      rcases hcases with rfl | rfl
      · rfl
      · rfl

theorem hasNul_parent (lead : OutputPath) {last : String}
    (hlast : isIdle last = false) :
    OutputTree.hasNul (parent (lead ++ [last])) = OutputTree.hasNul lead := by
  rw [← hasNul_names, (parent_spec lead hlast).1, hasNul_names]

theorem hasNul_stem (path : OutputPath) :
    OutputTree.hasNul path.stem = OutputTree.hasNul path := by
  unfold stem
  split
  next hlast =>
    rw [beq_iff_eq] at hlast
    have hwhole := List.dropLast_append_getLast? "" hlast
    conv_rhs => rw [← hwhole, hasNul_append]
    simp [OutputTree.hasNul]
  next => rfl

end OutputPath

/-! ## The path of an artifact -/

theorem ne_empty_of_isWritableName {name : String}
    (hname : isWritableName name = true) : name ≠ "" := by
  rintro rfl
  exact (chars_of_isWritableName hname).1 rfl

theorem foldl_join_segments {segments : List String}
    (hsegments : ∀ segment ∈ segments, isWritableName segment = true)
    {base : OutputPath} (hbase : "" ∉ base) :
    segments.foldl
        (fun path segment => path.join (OutputPath.ofText segment)) base =
      base ++ segments := by
  induction segments generalizing base with
  | nil => simp
  | cons first rest ih =>
      rw [List.forall_mem_cons] at hsegments
      obtain ⟨hfirst, hrest⟩ := hsegments
      have hne := ne_empty_of_isWritableName hfirst
      have hslash := not_mem_of_isWritableName hfirst (c := '/')
        (by decide) (by decide)
      have hnext : "" ∉ base ++ [first] := by
        simp [hbase, Ne.symm hne]
      rw [List.foldl_cons, OutputPath.ofText_of_not_mem hne hslash,
        OutputPath.join_eq_stem_append base (List.cons_ne_nil _ _)
          (by simpa [OutputPath.isRooted_cons] using hne),
        OutputPath.stem_eq_self hbase, ih hrest hnext, List.append_assoc]
      rfl

theorem fileName_ne_empty (type : QualifiedName) :
    QualifiedName.fileName type.maskKey ≠ "" := by
  rw [Ne, ← String.toList_eq_nil_iff, toList_fileName]
  exact List.append_ne_nil_of_right_ne_nil _ (by decide)

theorem empty_not_mem_segments {type : QualifiedName}
    (hproper : type.IsProper) : "" ∉ type.segments :=
  fun hempty => ne_empty_of_isWritableName (hproper.1 _ hempty) rfl

theorem filePath_eq {type : QualifiedName} (hproper : type.IsProper) :
    type.maskKey.filePath =
      type.segments ++ [QualifiedName.fileName type.maskKey] := by
  have hnames := empty_not_mem_segments hproper
  have hne := fileName_ne_empty type
  obtain ⟨hsegments, hname⟩ := hproper
  have hdirectory : type.package.directory = type.segments :=
    foldl_join_segments hsegments List.not_mem_nil
  have hslash : '/' ∉ (QualifiedName.fileName type.maskKey).toList := by
    rw [toList_fileName, List.mem_append, not_or]
    exact ⟨not_mem_of_isWritableName hname (by decide) (by decide),
      by decide⟩
  have hpackage : type.maskKey.package = type.package := rfl
  unfold QualifiedName.filePath
  rw [hpackage, hdirectory, OutputPath.ofText_of_not_mem hne hslash,
    OutputPath.join_eq_stem_append _ (List.cons_ne_nil _ _)
      (by simpa [OutputPath.isRooted_cons] using hne),
    OutputPath.stem_eq_self hnames]

theorem hasNul_of_isWritableName {names : List String}
    (hnames : ∀ name ∈ names, isWritableName name = true) :
    OutputTree.hasNul names = false := by
  unfold OutputTree.hasNul
  rw [List.any_eq_false]
  intro name hname hnul
  rw [List.contains_iff_mem] at hnul
  exact not_mem_of_isWritableName (hnames name hname) (by decide)
    (by decide) hnul

theorem empty_not_mem_filePath {type : QualifiedName}
    (hproper : type.IsProper) :
    "" ∉ type.segments ++ [QualifiedName.fileName type.maskKey] := by
  rw [List.mem_append, List.mem_singleton, not_or]
  exact ⟨empty_not_mem_segments hproper, Ne.symm (fileName_ne_empty type)⟩

/-- An artifact lies below the root, one directory down for each segment. -/
theorem targetPath_eq (emission : Emission) {type : QualifiedName}
    (hproper : type.IsProper) :
    emission.targetPath type.maskKey =
      emission.root.stem ++ type.segments ++
        [QualifiedName.fileName type.maskKey] := by
  have hrooted :=
    OutputPath.isRooted_of_not_mem (empty_not_mem_filePath hproper)
  unfold Emission.targetPath
  rw [filePath_eq hproper,
    OutputPath.join_eq_stem_append _ (List.concat_ne_nil _ _) hrooted,
    List.append_assoc]

theorem isArtifactName_fileName (type : QualifiedName) :
    IsArtifactName (QualifiedName.fileName type.maskKey) :=
  ⟨type.name.toList, (toList_fileName type).symm⟩

/-- A NUL in the path of an artifact is one of the root. -/
theorem exists_properTarget (emission : Emission) {type : QualifiedName}
    (hproper : type.IsProper) :
    ∃ lead last, emission.targetPath type.maskKey = lead ++ [last] ∧
      IsArtifactName last ∧ OutputTree.hasNul [last] = false ∧
      OutputTree.hasNul lead = OutputTree.hasNul emission.root := by
  refine ⟨emission.root.stem ++ type.segments,
    QualifiedName.fileName type.maskKey, targetPath_eq emission hproper,
    isArtifactName_fileName type, ?_, ?_⟩
  · have hnul : '\x00' ∉ type.name.toList ++ artifactEnding := by
      rw [List.mem_append, not_or]
      exact ⟨not_mem_of_isWritableName hproper.2 (by decide) (by decide),
        by decide⟩
    rw [← toList_fileName] at hnul
    simpa [OutputTree.hasNul] using hnul
  · rw [OutputPath.hasNul_append, OutputPath.hasNul_stem,
      hasNul_of_isWritableName hproper.1, Bool.or_false]

end RecordMasking

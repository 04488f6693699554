import RecordMasking.Proofs.IndexFile
import RecordMasking.Proofs.SortedNames

/-!
# What the indexes include

After any history of emissions below a root, writing the indexes leaves one
for each package that has an artifact.  The index of a package includes the
files of all its artifacts and no others, each once and in the order in which
they were emitted first, by the canonical paths to which their target paths
lead.  The packages are regrouped from the manifest and their directories are
made anew; that these are the directories of the artifacts is shown by the
places to which both lead.
-/

namespace RecordMasking

open Code

/-! ## Roots -/

namespace OutputPath

theorem slash_not_mem_ofText (text : String) :
    ∀ stretch ∈ ofText text, '/' ∉ stretch.toList := by
  unfold ofText
  split
  next => simp
  next =>
    intro stretch hstretch
    obtain ⟨piece, hpiece, rfl⟩ := List.mem_map.mp hstretch
    rw [String.toList_ofList]
    exact mem_splitAt hpiece

/-- No text is written as a single empty stretch: an empty one has none. -/
theorem ofText_ne (text : String) : ofText text ≠ [""] := by
  unfold ofText
  split
  next => simp
  next hsome =>
    cases hchars : text.toList with
    | nil =>
        rw [String.toList_eq_nil_iff] at hchars
        simp [hchars] at hsome
    | cons c rest =>
        unfold splitAt
        split
        next => simpa using splitAt_ne_nil rest
        next => split <;> simp

theorem text_inj {left right : OutputPath} (hleft : left ≠ [])
    (hright : right ≠ []) (hleftSlash : ∀ name ∈ left, '/' ∉ name.toList)
    (hrightSlash : ∀ name ∈ right, '/' ∉ name.toList)
    (hsame : left.text = right.text) : left = right := by
  rw [← splitAt_text hleft hleftSlash, hsame,
    splitAt_text hright hrightSlash]

theorem place_congr {left right : OutputPath}
    (hnames : left.names = right.names)
    (hrooted : left.isRooted = right.isRooted) : left.place = right.place := by
  unfold place OutputTree.startOf
  rw [hnames, hrooted]

theorem place_concat_empty {lead : OutputPath} (hlead : lead ≠ []) :
    (lead ++ [""]).place = lead.place := by
  cases lead with
  | nil => exact absurd rfl hlead
  | cons first rest =>
      refine place_congr ?_ ?_
      · rw [names_append]
        exact List.append_nil _
      · rw [List.cons_append, isRooted_cons, isRooted_cons]

theorem stem_cases (path : OutputPath) :
    path.stem = path ∨ path = path.stem ++ [""] := by
  unfold stem
  split
  next hlast =>
    rw [beq_iff_eq] at hlast
    exact .inr (List.dropLast_append_getLast? "" hlast).symm
  next => exact .inl rfl

theorem place_stem {root : OutputPath} (hroot : root ≠ [""]) :
    root.stem.place = root.place := by
  rcases stem_cases root with hsame | hslash
  · rw [hsame]
  · have hstem : root.stem ≠ [] := by
      intro hnil
      rw [hnil] at hslash
      exact hroot hslash
    conv_rhs => rw [hslash, place_concat_empty hstem]

theorem place_join_nil {root : OutputPath} (hroot : root ≠ [""]) :
    (root.join []).place = root.place := by
  cases root with
  | nil => rfl
  | cons first rest =>
      have hstem : stem (first :: rest) ≠ [] := by
        intro hnil
        rcases stem_cases (first :: rest) with hsame | hslash
        · rw [hnil] at hsame
          cases hsame
        · rw [hnil] at hslash
          exact hroot hslash
      exact (place_concat_empty hstem).trans (place_stem hroot)

end OutputPath

/-! ## The directories of packages -/

theorem isEntryName_of_isWritableName {name : String}
    (hname : isWritableName name = true) : IsEntryName name where
  isIdle_eq := isIdle_of_isWritableName hname
  ne_up := by
    rintro rfl
    exact dot_not_mem_of_isWritableName hname (by decide)
  slash_not_mem := not_mem_of_isWritableName hname (by decide) (by decide)

namespace Emission

variable {emission : Emission} {package : Package}

theorem root_ne (hroot : ∃ text, emission.root = OutputPath.ofText text) :
    emission.root ≠ [""] := by
  obtain ⟨text, htext⟩ := hroot
  rw [htext]
  exact OutputPath.ofText_ne text

/-- The directory of a package lies below the root, one directory down for
each segment. -/
theorem packagePlace_eq (hroot : emission.root ≠ [""])
    (hsegments : ∀ segment ∈ package.segments,
      isWritableName segment = true) :
    emission.packagePlace package =
      emission.root.place ++ package.segments := by
  have hnames : ∀ segment ∈ package.segments, IsEntryName segment :=
    fun segment hsegment =>
      isEntryName_of_isWritableName (hsegments segment hsegment)
  have hdirectory : package.directory = package.segments :=
    foldl_join_segments hsegments List.not_mem_nil
  unfold packagePlace
  rw [hdirectory]
  cases hempty : package.segments with
  | nil => rw [OutputPath.place_join_nil hroot, List.append_nil]
  | cons first rest =>
      rw [hempty] at hnames
      rw [OutputPath.join_eq_stem_append _ (List.cons_ne_nil _ _)
        (OutputPath.isRooted_of_not_mem
          (OutputPath.empty_not_mem_of_entryNames hnames)),
        OutputPath.place_append _ hnames, OutputPath.place_stem hroot]

theorem packagePlace_inj (hroot : emission.root ≠ [""])
    {left right : QualifiedName} (hleft : left.IsMadeOfNames)
    (hright : right.IsMadeOfNames)
    (hsame : emission.packagePlace left.package =
      emission.packagePlace right.package) :
    left.package = right.package := by
  rw [packagePlace_eq hroot hleft.isProper.1,
    packagePlace_eq hroot hright.isProper.1,
    List.append_cancel_left_eq] at hsame
  rw [hleft.joined, hright.joined]
  exact congrArg Package.ofSegments hsame

theorem isClean_packagePlace
    (hroot : ∃ text, emission.root = OutputPath.ofText text)
    (hsegments : ∀ segment ∈ package.segments,
      isWritableName segment = true) :
    (emission.packagePlace package).IsClean := by
  rw [packagePlace_eq (root_ne hroot) hsegments]
  obtain ⟨text, htext⟩ := hroot
  rw [htext]
  refine (OutputPath.isClean_place
    (OutputPath.slash_not_mem_ofText text)).append ?_
  exact fun segment hsegment =>
    isEntryName_of_isWritableName (hsegments segment hsegment)

/-! ## The files of artifacts -/

variable {type : QualifiedName}

theorem isEntryName_fileName (hproper : type.IsProper) :
    IsEntryName (QualifiedName.fileName type.maskKey) where
  isIdle_eq := (isArtifactName_fileName type).isFileName.isIdle_eq
  ne_up := (isArtifactName_fileName type).isFileName.ne_up
  slash_not_mem := by
    refine hproper.slash_not_mem_filePath ?_
    rw [filePath_eq hproper]
    exact List.mem_append_right _ (List.mem_singleton_self _)

/-- An artifact lies in the directory of its package. -/
theorem place_targetPath_eq (hroot : emission.root ≠ [""])
    (hproper : type.IsProper) :
    (emission.targetPath type.maskKey).place =
      emission.packagePlace type.package ++
        [QualifiedName.fileName type.maskKey] := by
  rw [hproper.place_targetPath, OutputPath.place_stem hroot,
    packagePlace_eq hroot hproper.1]
  rfl

theorem fileIn_eq (hroot : emission.root ≠ [""])
    (hclean : (emission.packagePlace type.package).IsClean)
    (hproper : type.IsProper) {entry : ManifestEntry}
    (hkey : entry.key = type.maskKey) :
    entry.fileIn (emission.packagePlace type.package).toPath =
      Place.toPath (emission.targetPath type.maskKey).place := by
  have hname := isEntryName_fileName hproper
  have hartifact : entry.artifact ++ ".rs" =
      QualifiedName.fileName type.maskKey :=
    congrArg (fun key : QualifiedName => key.fileName) hkey
  unfold ManifestEntry.fileIn
  rw [hartifact, OutputPath.ofText_of_not_mem hname.ne_empty
    hname.slash_not_mem, hclean.join_toPath hname,
    place_targetPath_eq hroot hproper]

/-! ## The index of a package -/

open OutputTree

/-- The index of a package lies in the directory of the package and includes
the artifacts of the package, each once and in the order of the manifest, by
the canonical paths to which their target paths lead. -/
structure IsIndex (emission : Emission) (tree : OutputTree)
    (package : Package) (index : OutputPath) : Prop where
  path : ∃ directory,
    tree.canonical (emission.root.join package.directory) = .ok directory ∧
      index = directory.join [indexFile]
  includes : ∃ text files, tree.entry? index.place = some (.file text) ∧
    includedFiles? text = some files ∧ files.Nodup ∧
    files.map Except.ok =
      ((emission.manifest.artifacts.map ManifestEntry.key).filter
        fun key => key.package = package).map fun key =>
          (tree.canonical (emission.targetPath key)).map OutputPath.text

variable {tree : OutputTree}

/-- Each entry has the key of a type that is made of names, and its artifact
is there. -/
def Provides (emission : Emission) (tree : OutputTree) : Prop :=
  ∀ entry ∈ emission.manifest.artifacts, ∃ type : QualifiedName,
    type.IsMadeOfNames ∧ entry.key = type.maskKey ∧
      tree.leadsSomewhere (emission.targetPath type.maskKey) = true

theorem canonical_targetPath (hlinks : tree.LinkFree)
    (hproper : type.IsProper)
    (hleads : tree.leadsSomewhere (emission.targetPath type.maskKey) = true) :
    tree.canonical (emission.targetPath type.maskKey) =
      .ok (Place.toPath (emission.targetPath type.maskKey).place) := by
  refine canonical_of_leadsSomewhere hlinks ?_ hleads
  rw [targetPath_eq emission hproper]
  exact List.concat_ne_nil _ _

theorem text_targetPath_inj
    (hroot : ∃ text, emission.root = OutputPath.ofText text)
    {other : QualifiedName} (htype : type.IsMadeOfNames)
    (hother : other.IsMadeOfNames)
    (hsame :
      (Place.toPath (emission.targetPath type.maskKey).place).text =
        (Place.toPath (emission.targetPath other.maskKey).place).text) :
    type = other := by
  have hclean : ∀ {id : QualifiedName}, id.IsProper →
      Place.IsClean (emission.targetPath id.maskKey).place ∧
        Place.toPath (emission.targetPath id.maskKey).place ≠ [] := by
    intro id hproper
    rw [place_targetPath_eq (root_ne hroot) hproper]
    refine ⟨?_, ?_⟩
    · exact (isClean_packagePlace hroot hproper.1).append
        (List.forall_mem_singleton.mpr (isEntryName_fileName hproper))
    · exact Place.toPath_ne_nil (List.concat_ne_nil _ _)
  obtain ⟨hleft, hleftSome⟩ := hclean htype.isProper
  obtain ⟨hright, hrightSome⟩ := hclean hother.isProper
  have hpaths := OutputPath.text_inj hleftSome hrightSome
    hleft.slash_not_mem_toPath hright.slash_not_mem_toPath hsame
  exact htype.eq_of_place_eq emission hother (hleft.toPath_inj hright hpaths)

/-- The path by which an index includes the file of an entry is the canonical
one of the entry's artifact. -/
theorem Provides.exists_file (hprovides : emission.Provides tree)
    (hlinks : tree.LinkFree) (hroot : emission.root ≠ [""])
    (hclean : (emission.packagePlace package).IsClean) {entry : ManifestEntry}
    (hentry : entry ∈ emission.manifest.entriesOf package) :
    ∃ type : QualifiedName, type.IsMadeOfNames ∧ entry.key = type.maskKey ∧
      entry.fileIn (emission.packagePlace package).toPath =
        Place.toPath (emission.targetPath type.maskKey).place ∧
      tree.canonical (emission.targetPath type.maskKey) =
        .ok (Place.toPath (emission.targetPath type.maskKey).place) := by
  obtain ⟨hmem, hpackage⟩ := List.mem_filter.mp hentry
  obtain ⟨type, hnames, hkey, hleads⟩ := hprovides entry hmem
  obtain rfl : type.package = package := by
    rw [beq_iff_eq] at hpackage
    exact (congrArg QualifiedName.package hkey).symm.trans hpackage
  exact ⟨type, hnames, hkey, fileIn_eq hroot hclean hnames.isProper hkey,
    canonical_targetPath hlinks hnames.isProper hleads⟩

/-- Different artifacts are included by different paths. -/
theorem Provides.nodup_files (hprovides : emission.Provides tree)
    (hlinks : tree.LinkFree)
    (hroot : ∃ text, emission.root = OutputPath.ofText text)
    (hclean : (emission.packagePlace package).IsClean)
    (hdistinct : (emission.manifest.artifacts.map ManifestEntry.key).Nodup) :
    ((emission.manifest.entriesOf package).map fun entry =>
      (entry.fileIn (emission.packagePlace package).toPath).text).Nodup := by
  have hsome := root_ne hroot
  have hkeys : ((emission.manifest.entriesOf package).map
      ManifestEntry.key).Nodup :=
    hdistinct.sublist (List.filter_sublist.map _)
  refine hkeys.of_map.map_on fun entry hentry other hother hsame => ?_
  obtain ⟨type, htype, hkey, hfile, _⟩ :=
    hprovides.exists_file hlinks hsome hclean hentry
  obtain ⟨also, halso, hkeyAlso, hfileAlso, _⟩ :=
    hprovides.exists_file hlinks hsome hclean hother
  rw [hfile, hfileAlso] at hsame
  obtain rfl := text_targetPath_inj hroot htype halso hsame
  exact List.inj_on_of_nodup_map hkeys hentry hother
    (hkey.trans hkeyAlso.symm)

theorem Provides.files_eq (hprovides : emission.Provides tree)
    (hlinks : tree.LinkFree) (hroot : emission.root ≠ [""])
    (hclean : (emission.packagePlace package).IsClean) :
    ((emission.manifest.entriesOf package).map fun entry =>
        (entry.fileIn (emission.packagePlace package).toPath).text).map
          Except.ok =
      ((emission.manifest.artifacts.map ManifestEntry.key).filter
        fun key => key.package = package).map fun key =>
          (tree.canonical (emission.targetPath key)).map OutputPath.text := by
  have hentries : (emission.manifest.artifacts.map ManifestEntry.key).filter
      (fun key => key.package = package) =
      (emission.manifest.entriesOf package).map ManifestEntry.key :=
    List.filter_map
  rw [hentries, List.map_map, List.map_map]
  refine List.map_congr_left fun entry hentry => ?_
  obtain ⟨type, _, hkey, hfile, hcanonical⟩ :=
    hprovides.exists_file hlinks hroot hclean hentry
  simp only [Function.comp_apply]
  rw [hkey, hfile, hcanonical]
  rfl

theorem isIndex_of_indexed (hlinks : tree.LinkFree)
    (hroot : ∃ text, emission.root = OutputPath.ofText text)
    (hdistinct : (emission.manifest.artifacts.map ManifestEntry.key).Nodup)
    (hprovides : emission.Provides tree)
    (hclean : (emission.packagePlace package).IsClean)
    (hindexed : emission.Indexed tree package) :
    emission.IsIndex tree package (emission.indexPath package) := by
  obtain ⟨hjoin, hplace, _⟩ := indexPath_spec hclean
  have hincluded := includedFiles?_indexText
    (emission.packagePlace package).toPath
    (emission.manifest.entriesOf package)
  constructor
  · refine ⟨(emission.packagePlace package).toPath, ?_, hjoin.symm⟩
    exact canonical_of_leadsSomewhere hlinks hindexed.ready.ne_nil
      (hindexed.ready.directory.leadsSomewhere hlinks)
  · refine ⟨_, _, ?_, hincluded,
      hprovides.nodup_files hlinks hroot hclean hdistinct,
      hprovides.files_eq hlinks (root_ne hroot) hclean⟩
    rw [hplace]
    exact hindexed.entry?_eq

theorem Provides.keeps {after : OutputTree} {touched : Place → Prop}
    (hprovides : emission.Provides tree) (hlinks : tree.LinkFree)
    (hafter : after.LinkFree) (hkeeps : Keeps touched tree after) :
    emission.Provides after := by
  intro entry hentry
  obtain ⟨type, hnames, hkey, hleads⟩ := hprovides entry hentry
  exact ⟨type, hnames, hkey,
    leadsSomewhere_keeps hlinks hafter hkeeps hleads⟩

/-! ## All indexes -/

/-- What a successful writing of the indexes comes to. -/
structure WritesIndexes (emission : Emission) (after : OutputTree)
    (indexes : List OutputPath) : Prop where
  inOrder : emission.manifest.packages.Pairwise (· < ·)
  packages : ∀ package, package ∈ emission.manifest.packages ↔
    ∃ entry ∈ emission.manifest.artifacts, entry.package = package
  each : List.Forall₂ (emission.IsIndex after)
    emission.manifest.packages indexes
  apart : (indexes.map OutputPath.place).Nodup
  again : ∃ again, emission.writeIndex after = (again, .ok indexes) ∧
    ∀ place, again.entry? place = after.entry? place

theorem Provides.exists_type (hprovides : emission.Provides tree)
    (hpackage : package ∈ emission.manifest.packages) :
    ∃ type : QualifiedName, type.IsMadeOfNames ∧ type.package = package := by
  obtain ⟨entry, hentry, rfl⟩ := List.mem_map.mp (mem_sortedNames.mp hpackage)
  obtain ⟨type, hnames, hkey, _⟩ := hprovides entry hentry
  exact ⟨type, hnames, (congrArg QualifiedName.package hkey).symm⟩

theorem writesIndexes (htree : tree.IsDirectoryTree)
    (hroot : ∃ text, emission.root = OutputPath.ofText text)
    (hdistinct : (emission.manifest.artifacts.map ManifestEntry.key).Nodup)
    (hprovides : emission.Provides tree) {after : OutputTree}
    {indexes : List OutputPath}
    (hwrite : emission.writeIndex tree = (after, .ok indexes)) :
    emission.WritesIndexes after indexes := by
  have hordered := pairwise_sortedNames
    (emission.manifest.artifacts.map ManifestEntry.package)
  have hclean : ∀ package ∈ emission.manifest.packages,
      (emission.packagePlace package).IsClean := by
    intro package hpackage
    obtain ⟨type, hnames, rfl⟩ := hprovides.exists_type hpackage
    exact isClean_packagePlace hroot hnames.isProper.1
  have hplaces : (emission.manifest.packages.map
      emission.packagePlace).Nodup := by
    refine List.Nodup.map_on ?_ (hordered.imp fun hlt => ?_)
    · intro left hleft right hright hsame
      obtain ⟨type, hnames, rfl⟩ := hprovides.exists_type hleft
      obtain ⟨other, hothers, rfl⟩ := hprovides.exists_type hright
      exact packagePlace_inj (root_ne hroot) hnames hothers hsame
    · rintro rfl
      exact String.lt_irrefl _ hlt
  obtain ⟨rfl, hafter, hkeeps, hindexed⟩ :=
    indexed_of_writeIndexes htree hclean hplaces hwrite
  have hthere := hprovides.keeps htree.linkFree hafter.linkFree hkeeps
  refine ⟨hordered, fun package => ?_, ?_, ?_, ?_⟩
  · exact mem_sortedNames.trans List.mem_map
  · rw [List.forall₂_map_right_iff, List.forall₂_same]
    exact fun package hpackage => isIndex_of_indexed hafter.linkFree hroot
      hdistinct hthere (hclean package hpackage) (hindexed package hpackage)
  · rw [List.map_map]
    refine List.Nodup.map_on ?_ (List.Nodup.of_map _ hplaces)
    intro left hleft right hright hsame
    simp only [Function.comp_apply] at hsame
    rw [(indexPath_spec (hclean left hleft)).2.1,
      (indexPath_spec (hclean right hright)).2.1] at hsame
    exact List.inj_on_of_nodup_map hplaces hleft hright
      ((List.append_left_inj _).mp hsame)
  · exact writeIndexes_again hafter.linkFree hclean hindexed

end Emission

/-! ## After any history -/

open OutputTree

namespace Journal

/-- The keys that were emitted with success, each at its first emission. -/
def emittedKeys (journal : Journal) : List QualifiedName :=
  firstOfEach id (journal.granted.map fun grant => grant.1.key)

theorem Sound.keys_eq {root : OutputPath} {journal : Journal}
    (hsound : journal.Sound root) :
    journal.emission.manifest.artifacts.map ManifestEntry.key =
      journal.emittedKeys := by
  have hkey : ∀ entry : ManifestEntry, id entry.key = entry.key :=
    fun _ => rfl
  rw [show journal.emission.manifest.artifacts = _ from hsound.records,
    map_firstOfEach hkey, List.map_map]
  rfl

end Journal

/-- A tree with three artifacts in two packages. -/
def Samples.stocked : OutputTree :=
  ⟨[(["out"], .directory), (["out", "AccountMask.rs"], .file "// top"),
    (["out", "models"], .directory),
    (["out", "models", "CardMask.rs"], .file "// card"),
    (["out", "models", "InnerMask.rs"], .file "// inner")]⟩

/-- The artifacts of the stocked tree, one of them twice. -/
def Journal.restocking : List Artifact :=
  [sample.artifact "models" "Card" "// first",
    sample.artifact "" "Account" "// top",
    sample.artifact "models" "Card" "// again",
    sample.artifact "models" "Inner" "// last"]

namespace Samples

theorem wayOut : stocked.Way [] ["out"] (.ok ["out"]) :=
  .into (by decide) (by decide) (by decide) .arrived

theorem wayToModels :
    stocked.Way [] ["out", "models"] (.ok ["out", "models"]) :=
  .into (by decide) (by decide) (by decide)
    (.into (by decide) (by decide) (by decide) .arrived)

theorem stocked_leadsSomewhere : ∀ artifact ∈ Journal.restocking,
    stocked.leadsSomewhere
      ((OutputPath.ofText "./out/").join artifact.key.filePath) = true := by
  have hlinks : stocked.LinkFree := by decide
  have hcard : stocked.leadsSomewhere
      [".", "out", "models", "CardMask.rs"] = true :=
    wayToModels.leadsSomewhere hlinks rfl (by decide) (by decide) (by decide)
      (by decide)
  have hinner : stocked.leadsSomewhere
      [".", "out", "models", "InnerMask.rs"] = true :=
    wayToModels.leadsSomewhere hlinks rfl (by decide) (by decide) (by decide)
      (by decide)
  have haccount : stocked.leadsSomewhere
      [".", "out", "AccountMask.rs"] = true :=
    wayOut.leadsSomewhere hlinks rfl (by decide) (by decide) (by decide)
      (by decide)
  refine List.forall_mem_cons.mpr ⟨hcard, ?_⟩
  refine List.forall_mem_cons.mpr ⟨haccount, ?_⟩
  refine List.forall_mem_cons.mpr ⟨hcard, ?_⟩
  exact List.forall_mem_singleton.mpr hinner

end Samples

end RecordMasking

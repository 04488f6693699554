import RecordMasking.Proofs.Canonical
import RecordMasking.Proofs.StringLiteral

/-!
# The index of a package

The lines of an index include the files of the entries it is written for, one
line for each of them, and the literals in them mean the paths of the files.
Writing an index makes the directories that are missing and puts its file in
place of another one; once this has succeeded for some packages, it succeeds
again and changes nothing.
-/

namespace RecordMasking

open Code

/-! ## The files that are included -/

def includeFront : List Char := "include!(".toList

def includeEnd : List Char := ");".toList

/-- The files that a line includes.  An empty line and a comment include
none. -/
def includesOfLine? (line : List Char) : Option (List String) :=
  if line.isEmpty || Lexer.startsWith "//" line then some []
  else
    match Lexer.dropPrefix? includeFront line with
    | none => none
    | some behind =>
        match meaning? behind with
        | some (file, rest) => if rest = includeEnd then some [file] else none
        | none => none

/-- The files that a text includes in the order of its lines, if it does
nothing else. -/
def includedFiles? (text : String) : Option (List String) :=
  ((splitAt '\n' text.toList).mapM includesOfLine?).map List.flatten

/-- The line that includes a file. -/
def includeLine (file : String) : List Char :=
  includeFront ++ ((quoted file).toList ++ includeEnd)

theorem includesOfLine?_includeLine (file : String) :
    includesOfLine? (includeLine file) = some [file] := by
  have hplain : ∀ behind, ((includeFront ++ behind).isEmpty ||
      Lexer.startsWith "//" (includeFront ++ behind)) = false :=
    fun _ => rfl
  unfold includesOfLine? includeLine
  rw [hplain, Lexer.dropPrefix?_append]
  simp [meaning?_quoted]

theorem break_not_mem_includeLine (file : String) :
    '\n' ∉ includeLine file := by
  have hfront : '\n' ∉ includeFront := by decide
  have hend : '\n' ∉ includeEnd := by decide
  unfold includeLine
  rw [List.mem_append, List.mem_append, not_or, not_or]
  exact ⟨hfront, break_not_mem_quoted file, hend⟩

theorem splitAt_lines {lines : List (List Char)}
    (hlines : ∀ line ∈ lines, '\n' ∉ line) :
    splitAt '\n' (lines.flatMap fun line => line ++ ['\n']) =
      lines ++ [[]] := by
  induction lines with
  | nil => rfl
  | cons line rest ih =>
      obtain ⟨hline, hrest⟩ := List.forall_mem_cons.mp hlines
      rw [List.flatMap_cons, List.append_assoc, List.singleton_append,
        splitAt_append_mark hline, ih hrest, List.cons_append]

/-- What follows the last line is empty. -/
theorem exists_includes (files : List String) :
    ∃ includes, (files.map includeLine ++ [[]]).mapM includesOfLine? =
      some includes ∧ includes.flatten = files := by
  induction files with
  | nil => exact ⟨[[]], rfl, rfl⟩
  | cons file rest ih =>
      obtain ⟨includes, hincludes, hrest⟩ := ih
      refine ⟨[file] :: includes, ?_, ?_⟩
      · rw [List.map_cons, List.cons_append, List.mapM_cons, hincludes,
          includesOfLine?_includeLine]
        rfl
      · rw [List.flatten_cons, hrest, List.singleton_append]

/-- The path by which an entry's file is included. -/
def ManifestEntry.fileIn (entry : ManifestEntry) (directory : OutputPath) :
    OutputPath :=
  directory.join (OutputPath.ofText (entry.artifact ++ ".rs"))

theorem toList_include (file : String) :
    ("include!(" ++ quoted file ++ ");\n").toList =
      includeLine file ++ ['\n'] := by
  have hend : ");\n".toList = includeEnd ++ ['\n'] := rfl
  rw [String.toList_append, String.toList_append, hend, includeLine,
    List.append_assoc, List.append_assoc, List.append_assoc]
  rfl

def indexHeader : List Char :=
  "// @generated by masking-codegen. Do not edit.".toList

theorem Emission.toList_indexText (directory : OutputPath)
    (entries : List ManifestEntry) :
    (indexText directory entries).toList =
      (indexHeader :: (entries.map fun entry =>
        (entry.fileIn directory).text).map includeLine).flatMap
          fun line => line ++ ['\n'] := by
  have hheader :
      "// @generated by masking-codegen. Do not edit.\n".toList =
        indexHeader ++ ['\n'] := rfl
  have hlines : (entries.map fun entry =>
      "include!(" ++ quoted (entry.fileIn directory).text ++ ");\n").flatMap
        String.toList =
      ((entries.map fun entry => (entry.fileIn directory).text).map
        includeLine).flatMap fun line => line ++ ['\n'] := by
    rw [List.map_map, List.flatMap_map, List.flatMap_map]
    simp only [toList_include, Function.comp_apply]
  rw [List.flatMap_cons, ← hheader, ← hlines, ← String.toList_join,
    ← String.toList_append]
  rfl

/-- An index includes the file of each of its entries, in their order. -/
theorem Emission.includedFiles?_indexText (directory : OutputPath)
    (entries : List ManifestEntry) :
    includedFiles? (indexText directory entries) =
      some (entries.map fun entry => (entry.fileIn directory).text) := by
  have hcomment : includesOfLine? indexHeader = some [] := by decide
  obtain ⟨includes, hincludes, hfiles⟩ := exists_includes
    (entries.map fun entry => (entry.fileIn directory).text)
  unfold includedFiles?
  rw [toList_indexText, splitAt_lines, List.cons_append, List.mapM_cons,
    hcomment, hincludes]
  · exact congrArg some hfiles
  · refine List.forall_mem_cons.mpr ⟨by decide, fun line hline => ?_⟩
    obtain ⟨file, _, rfl⟩ := List.mem_map.mp hline
    exact break_not_mem_includeLine file

/-! ## Files that are written over -/

namespace OutputTree

variable {tree after : OutputTree} {lead : OutputPath} {last text : String}

theorem keeps_of_entry?_eq
    (hsame : ∀ place, after.entry? place = tree.entry? place) :
    Keeps (fun _ => False) tree after where
  directories place hentry := (hsame place).trans hentry
  files place _ text := by rw [hsame]
  remain place text hentry := ⟨text, (hsame place).trans hentry⟩

/-- Setting the same entry again changes nothing. -/
theorem entry?_set_same {place : Place} {entry : Entry}
    (hplace : ¬ place.IsStart) (hentry : tree.entry? place = some entry)
    (other : Place) :
    entry? (tree.set place entry) other = tree.entry? other := by
  by_cases hother : other = place
  · rw [hother, hentry, entry?_set_self hplace]
  · exact entry?_set_of_ne hother _

/-- Nothing keeps a path from being written over: the directories along it are
there, its name can be given, and no directory has it. -/
structure Open (tree : OutputTree) (path : OutputPath) : Prop where
  parent : tree.Reaches path.parent
  nameObstacle?_eq : nameObstacle? path = none
  free : tree.entry? path.place ≠ some .directory

theorem Open.set {path : OutputPath} (hopen : tree.Open path) {place : Place}
    (hplace : ¬ place.IsStart) (hfile : tree.entry? place ≠ some .directory)
    (text : String) : (tree.set place (.file text)).Open path where
  parent := hopen.parent.keeps (keeps_set hplace hfile text)
  nameObstacle?_eq := hopen.nameObstacle?_eq
  free := by
    by_cases hsame : path.place = place
    · rw [hsame, entry?_set_self hplace]
      simp
    · rw [entry?_set_of_ne hsame]
      exact hopen.free

theorem not_isStart_place (lead : OutputPath) (hlast : IsFileName last) :
    ¬ Place.IsStart (OutputPath.place (lead ++ [last])) := by
  rw [OutputPath.place_parent lead hlast.isIdle_eq hlast.ne_up]
  exact Place.not_isStart_append hlast.ne_slash

theorem Open.writeOver_eq (hopen : tree.Open (lead ++ [last]))
    (hlinks : tree.LinkFree) (hlast : IsFileName last) (text : String) :
    tree.writeOver (lead ++ [last]) text =
      (tree.set (OutputPath.place (lead ++ [last])) (.file text), .ok ()) := by
  rw [OutputTree.writeOver_eq _ _ _ (lastName_ne_temporary lead hlast),
    hopen.parent.makeDirectories_eq hlinks]
  simp only [OutputPath.place_parent_concat lead hlast,
    hopen.nameObstacle?_eq]
  split
  next hdirectory => exact absurd hdirectory hopen.free
  next => rfl

/-- A path that has been written over can be written over again. -/
theorem open_of_writeOver (htree : tree.IsDirectoryTree)
    (hlast : IsFileName last)
    (hover : tree.writeOver (lead ++ [last]) text = (after, .ok ())) :
    after.IsDirectoryTree ∧
      Keeps (· = OutputPath.place (lead ++ [last])) tree after ∧
      after.Open (lead ++ [last]) ∧
      after.entry? (OutputPath.place (lead ++ [last])) =
        some (.file text) := by
  have hstart := not_isStart_place lead hlast
  have hplace := OutputPath.place_parent_concat lead hlast
  rw [OutputTree.writeOver_eq _ _ _ (lastName_ne_temporary lead hlast)] at hover
  split at hover
  next => cases (Prod.mk.inj hover).2
  next made directory hmake =>
    obtain ⟨hmade, rfl, hreaches, hdirectory⟩ :=
      reaches_of_makeDirectories htree hmake
    have hadds := (makeDirectories_spec htree.linkFree hmake).2.1
    rw [hplace] at hover
    split at hover
    next => cases (Prod.mk.inj hover).2
    next hname =>
      split at hover
      next => cases (Prod.mk.inj hover).2
      next hfile =>
        obtain ⟨rfl, _⟩ := Prod.mk.inj hover
        have hopen : made.Open (lead ++ [last]) := ⟨hreaches, hname, hfile⟩
        refine ⟨⟨hmade.linkFree.set rfl _, ?_⟩,
          (hadds.keeps _).trans (keeps_set hstart hfile text),
          hopen.set hstart hfile text, entry?_set_self hstart _⟩
        refine hmade.grounded.setOver hfile ?_ _
        rw [← hplace] at hstart ⊢
        rw [Place.above_append hstart]
        exact hdirectory

end OutputTree

/-! ## One index -/

theorem isEntryName_indexFile : IsEntryName indexFile :=
  ⟨by decide, by decide, by decide⟩

namespace Emission

open OutputTree

variable {emission : Emission} {tree after : OutputTree} {package : Package}
  {packages : List Package}

/-- The place of the directory of a package. -/
def packagePlace (emission : Emission) (package : Package) : Place :=
  (emission.root.join package.directory).place

def indexPlace (emission : Emission) (package : Package) : Place :=
  emission.packagePlace package ++ [indexFile]

def indexPath (emission : Emission) (package : Package) : OutputPath :=
  (emission.indexPlace package).toPath

def packageText (emission : Emission) (package : Package) : String :=
  indexText (emission.packagePlace package).toPath
    (emission.manifest.entriesOf package)

/-- The path of the index is that of a file in the directory. -/
theorem indexPath_spec (hclean : (emission.packagePlace package).IsClean) :
    OutputPath.join (emission.packagePlace package).toPath [indexFile] =
        emission.indexPath package ∧
      (emission.indexPath package).place = emission.indexPlace package ∧
      ∃ lead, emission.indexPath package = lead ++ [indexFile] := by
  have hjoin := hclean.join_toPath isEntryName_indexFile
  refine ⟨hjoin, ?_, ?_⟩
  · exact (hclean.append (List.forall_mem_singleton.mpr
      isEntryName_indexFile)).place_toPath
  · rw [indexPath, indexPlace, ← hjoin]
    exact OutputPath.exists_join_concat _ [] indexFile

/-- Nothing keeps the index of a package from being written. -/
structure Ready (emission : Emission) (tree : OutputTree)
    (package : Package) : Prop where
  ne_nil : emission.root.join package.directory ≠ []
  directory : tree.Reaches (emission.root.join package.directory)
  index : tree.Open (emission.indexPath package)

theorem Ready.writePackageIndex_eq (hready : emission.Ready tree package)
    (hclean : (emission.packagePlace package).IsClean)
    (hlinks : tree.LinkFree) :
    emission.writePackageIndex tree package =
      (tree.set (emission.indexPlace package)
          (.file (emission.packageText package)),
        .ok (emission.indexPath package)) := by
  obtain ⟨hjoin, hplace, lead, hlead⟩ := indexPath_spec hclean
  have hcanonical := canonical_of_leadsSomewhere hlinks hready.ne_nil
    (hready.directory.leadsSomewhere hlinks)
  have hopen := hready.index
  rw [hlead] at hopen
  have hover := hopen.writeOver_eq hlinks isFileName_indexFile
    (emission.packageText package)
  rw [← hlead, hplace] at hover
  unfold writePackageIndex
  simp only [hready.directory.makeDirectories_eq hlinks, hcanonical]
  rw [packagePlace] at hjoin
  rw [packageText, packagePlace] at hover
  rw [hjoin, hover]
  rfl

theorem Ready.set (hready : emission.Ready tree package) {place : Place}
    (hplace : ¬ place.IsStart) (hfile : tree.entry? place ≠ some .directory)
    (text : String) : emission.Ready (tree.set place (.file text)) package where
  ne_nil := hready.ne_nil
  directory := hready.directory.keeps (keeps_set hplace hfile text)
  index := hready.index.set hplace hfile text

/-- The index of a package is there and can be written again. -/
structure Indexed (emission : Emission) (tree : OutputTree)
    (package : Package) : Prop where
  ready : emission.Ready tree package
  entry?_eq : tree.entry? (emission.indexPlace package) =
    some (.file (emission.packageText package))

theorem Indexed.keeps {touched : Place → Prop}
    (hindexed : emission.Indexed tree package)
    (hclean : (emission.packagePlace package).IsClean)
    (hkeeps : Keeps touched tree after)
    (hplace : ¬ touched (emission.indexPlace package)) :
    emission.Indexed after package := by
  have hfile := (hkeeps.files _ hplace _).mpr hindexed.entry?_eq
  obtain ⟨hne, hdirectory, hindex⟩ := hindexed.ready
  refine ⟨⟨hne, hdirectory.keeps hkeeps, hindex.parent.keeps hkeeps,
    hindex.nameObstacle?_eq, ?_⟩, hfile⟩
  rw [(indexPath_spec hclean).2.1, hfile]
  simp

theorem indexed_of_writePackageIndex (htree : tree.IsDirectoryTree)
    (hclean : (emission.packagePlace package).IsClean) {index : OutputPath}
    (hwrite : emission.writePackageIndex tree package = (after, .ok index)) :
    index = emission.indexPath package ∧ after.IsDirectoryTree ∧
      Keeps (· = emission.indexPlace package) tree after ∧
      emission.Indexed after package := by
  obtain ⟨hjoin, hplace, lead, hlead⟩ := indexPath_spec hclean
  rw [packagePlace] at hjoin
  unfold writePackageIndex at hwrite
  dsimp only at hwrite
  split at hwrite
  next => cases (Prod.mk.inj hwrite).2
  next made place hmake =>
    obtain ⟨hmade, rfl, hreaches, _⟩ := reaches_of_makeDirectories htree hmake
    have hadds := (makeDirectories_spec htree.linkFree hmake).2.1
    split at hwrite
    next => cases (Prod.mk.inj hwrite).2
    next below hcanonical =>
      obtain ⟨hne, rfl⟩ := canonical_eq_ok hmade.linkFree hcanonical
      rw [hjoin] at hwrite
      split at hwrite
      next hover =>
        obtain ⟨rfl, hresult⟩ := Prod.mk.inj hwrite
        rw [hlead] at hover
        obtain ⟨hafter, hkeeps, hopen, hfile⟩ :=
          open_of_writeOver hmade isFileName_indexFile hover
        rw [← hlead, hplace] at hkeeps hfile
        rw [← hlead] at hopen
        exact ⟨(Except.ok.inj hresult).symm, hafter,
          (hadds.keeps _).trans hkeeps,
          ⟨hne, hreaches.keeps hkeeps, hopen⟩, hfile⟩
      next => cases (Prod.mk.inj hwrite).2

/-- Writing an index again changes nothing. -/
theorem Indexed.again (hindexed : emission.Indexed tree package)
    (hclean : (emission.packagePlace package).IsClean)
    (hlinks : tree.LinkFree) :
    ∃ again, emission.writePackageIndex tree package =
        (again, .ok (emission.indexPath package)) ∧
      ∀ place, again.entry? place = tree.entry? place :=
  ⟨_, hindexed.ready.writePackageIndex_eq hclean hlinks,
    entry?_set_same (Place.not_isStart_append isEntryName_indexFile.ne_slash)
      hindexed.entry?_eq⟩

/-! ## All indexes -/

/-- Where nothing keeps any of them from being written, all indexes are. -/
theorem writeIndexes_of_ready (hlinks : tree.LinkFree)
    (hclean : ∀ package ∈ packages, (emission.packagePlace package).IsClean)
    (hready : ∀ package ∈ packages, emission.Ready tree package) :
    ∃ after, emission.writeIndexes tree packages =
      (after, .ok (packages.map emission.indexPath)) := by
  induction packages generalizing tree with
  | nil => exact ⟨tree, rfl⟩
  | cons package rest ih =>
      obtain ⟨hfirst, hothers⟩ := List.forall_mem_cons.mp hclean
      obtain ⟨hpackage, hrest⟩ := List.forall_mem_cons.mp hready
      have hstart : ¬ Place.IsStart (emission.indexPlace package) :=
        Place.not_isStart_append isEntryName_indexFile.ne_slash
      have hfree := hpackage.index.free
      rw [(indexPath_spec hfirst).2.1] at hfree
      obtain ⟨after, hafter⟩ := ih (hlinks.set rfl _) hothers
        fun other hother => (hrest other hother).set hstart hfree
          (emission.packageText package)
      refine ⟨after, ?_⟩
      simp only [writeIndexes, hpackage.writePackageIndex_eq hfirst hlinks,
        hafter, List.map_cons]

theorem indexed_of_writeIndexes (htree : tree.IsDirectoryTree)
    (hclean : ∀ package ∈ packages, (emission.packagePlace package).IsClean)
    (hapart : (packages.map emission.packagePlace).Nodup)
    {indexes : List OutputPath}
    (hwrite : emission.writeIndexes tree packages = (after, .ok indexes)) :
    indexes = packages.map emission.indexPath ∧
      after.IsDirectoryTree ∧
      Keeps (· ∈ packages.map emission.indexPlace) tree after ∧
      ∀ package ∈ packages, emission.Indexed after package := by
  induction packages generalizing tree indexes with
  | nil =>
      obtain ⟨rfl, hresult⟩ := Prod.mk.inj hwrite
      obtain rfl := Except.ok.inj hresult
      exact ⟨rfl, htree, .refl _ _, by simp⟩
  | cons package rest ih =>
      obtain ⟨hfirst, hothers⟩ := List.forall_mem_cons.mp hclean
      obtain ⟨hnew, hdistinct⟩ := List.nodup_cons.mp hapart
      unfold writeIndexes at hwrite
      split at hwrite
      next => cases (Prod.mk.inj hwrite).2
      next middle index hpackage =>
        obtain ⟨rfl, hmiddle, hkeeps, hindexed⟩ :=
          indexed_of_writePackageIndex htree hfirst hpackage
        split at hwrite
        next last later hrest =>
          obtain ⟨rfl, hresult⟩ := Prod.mk.inj hwrite
          obtain rfl := Except.ok.inj hresult
          obtain ⟨rfl, hafter, hlater, hall⟩ :=
            ih hmiddle hothers hdistinct hrest
          -- No later index is at the place of the first one.
          have hspared : emission.indexPlace package ∉
              rest.map emission.indexPlace := by
            intro hmem
            obtain ⟨other, hother, hsame⟩ := List.mem_map.mp hmem
            have hplaces := (List.append_left_inj _).mp hsame
            exact hnew (List.mem_map.mpr ⟨other, hother, hplaces⟩)
          refine ⟨rfl, hafter, ?_, ?_⟩
          · refine (hkeeps.mono ?_).trans (hlater.mono ?_)
            · rintro place rfl
              exact List.mem_cons_self
            · exact fun place hplace => List.mem_cons_of_mem _ hplace
          · refine List.forall_mem_cons.mpr ⟨?_, hall⟩
            exact hindexed.keeps hfirst hlater hspared
        next => cases (Prod.mk.inj hwrite).2

theorem writeIndexes_again (hlinks : tree.LinkFree)
    (hclean : ∀ package ∈ packages, (emission.packagePlace package).IsClean)
    (hindexed : ∀ package ∈ packages, emission.Indexed tree package) :
    ∃ again, emission.writeIndexes tree packages =
        (again, .ok (packages.map emission.indexPath)) ∧
      ∀ place, again.entry? place = tree.entry? place := by
  induction packages generalizing tree with
  | nil => exact ⟨tree, rfl, fun _ => rfl⟩
  | cons package rest ih =>
      obtain ⟨hfirst, hothers⟩ := List.forall_mem_cons.mp hclean
      obtain ⟨hpackage, hrest⟩ := List.forall_mem_cons.mp hindexed
      obtain ⟨middle, hwrite, hsame⟩ := hpackage.again hfirst hlinks
      have hmiddle := (emission.writePackageIndex_spec hlinks hwrite).1
      obtain ⟨again, hagain, hstill⟩ := ih hmiddle hothers fun other hother =>
        (hrest other hother).keeps (hothers other hother)
          (keeps_of_entry?_eq hsame) id
      refine ⟨again, ?_, fun place => (hstill place).trans (hsame place)⟩
      simp only [writeIndexes, hwrite, hagain, List.map_cons]

end Emission

end RecordMasking

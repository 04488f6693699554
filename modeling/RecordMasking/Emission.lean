import RecordMasking.Code.Quoted
import RecordMasking.Manifest
import RecordMasking.Output.Tree

/-!
# Emission

An emission writes artifacts below one root and records them in its manifest.
An artifact is written at most once: when its path leads to something, or its
name is taken, it is skipped.  The index of a package and the manifest are
written in place of what was there.

Every write stages its text in a temporary file of the same directory, and
the temporary file is gone afterwards whatever the outcome.
-/

namespace RecordMasking

def manifestFile : String := "manifest.json"

def indexFile : String := "masks.rs"

structure Emission where
  root : OutputPath
  manifest : Manifest := {}
deriving DecidableEq, Repr, Inhabited

namespace OutputTree

def fault (path : OutputPath) (obstacle : Obstacle) : Fault :=
  .fileAccess path.text obstacle.message

/-- A text on its way to a file: the directory of the file, and the temporary
file that holds the text. -/
structure Staged where
  directory : Place
  temporary : Place

/-- Stages a text beside the path it is for, making the directories that are
missing. -/
def stageFor (tree : OutputTree) (path : OutputPath) (text : String) :
    OutputTree × Except Fault Staged :=
  match tree.makeDirectories path.parent with
  | (made, .error obstacle) => (made, .error (fault path.parent obstacle))
  | (made, .ok directory) =>
      let (staged, temporary) := made.stage directory text
      (staged, .ok ⟨directory, temporary⟩)

/-- Writes a text to a path, unless the name is taken. -/
def writeNew (tree : OutputTree) (path : OutputPath) (text : String) :
    OutputTree × Except Fault Outcome :=
  match tree.stageFor path text with
  | (made, .error fault) => (made, .error fault)
  | (made, .ok staged) =>
      match made.persistNew staged.temporary staged.directory path with
      | (after, .ok ()) => (after, .ok .written)
      | (after, .error .taken) =>
          (after.remove staged.temporary, .ok .skipped)
      | (after, .error obstacle) =>
          (after.remove staged.temporary, .error (fault path obstacle))

/-- Writes a text to a path, in place of any file or link there. -/
def writeOver (tree : OutputTree) (path : OutputPath) (text : String) :
    OutputTree × Except Fault Unit :=
  match tree.stageFor path text with
  | (made, .error fault) => (made, .error fault)
  | (made, .ok staged) =>
      match made.persistOver staged.temporary staged.directory path with
      | (after, .ok ()) => (after, .ok ())
      | (after, .error obstacle) =>
          (after.remove staged.temporary, .error (fault path obstacle))

end OutputTree

namespace Emission

def targetPath (emission : Emission) (key : QualifiedName) : OutputPath :=
  emission.root.join key.filePath

/-- Writes an artifact unless its path leads to something, and records it. -/
def emit (emission : Emission) (tree : OutputTree) (artifact : Artifact) :
    Emission × OutputTree × Except Fault Outcome :=
  let path := emission.targetPath artifact.key
  let (after, result) :=
    if tree.leadsSomewhere path then (tree, .ok .skipped)
    else tree.writeNew path artifact.text
  match result with
  | .ok outcome =>
      ({ emission with manifest := emission.manifest.record artifact outcome },
        after, .ok outcome)
  | .error fault => (emission, after, .error fault)

/-- The text of an index, which includes the files of the given artifacts in
one directory. -/
def indexText (directory : OutputPath) (entries : List ManifestEntry) :
    String :=
  "// @generated by masking-codegen. Do not edit.\n" ++
    String.join (entries.map fun entry =>
      let file := directory.join (OutputPath.ofText (entry.artifact ++ ".rs"))
      "include!(" ++ Code.quoted file.text ++ ");\n")

/-- Writes the index of one package and answers its path. -/
def writePackageIndex (emission : Emission) (tree : OutputTree)
    (package : Package) : OutputTree × Except Fault OutputPath :=
  let directory := emission.root.join package.directory
  match tree.makeDirectories directory with
  | (made, .error obstacle) =>
      (made, .error (OutputTree.fault directory obstacle))
  | (made, .ok _) =>
      match made.canonical directory with
      | .error obstacle => (made, .error (OutputTree.fault directory obstacle))
      | .ok below =>
          let index := below.join [indexFile]
          let text := indexText below (emission.manifest.entriesOf package)
          match made.writeOver index text with
          | (after, .ok ()) => (after, .ok index)
          | (after, .error fault) => (after, .error fault)

/-- Writes the indexes of the given packages up to the first fault. -/
def writeIndexes (emission : Emission) (tree : OutputTree) :
    List Package → OutputTree × Except Fault (List OutputPath)
  | [] => (tree, .ok [])
  | package :: rest =>
      match emission.writePackageIndex tree package with
      | (after, .error fault) => (after, .error fault)
      | (after, .ok index) =>
          match emission.writeIndexes after rest with
          | (last, .ok indexes) => (last, .ok (index :: indexes))
          | (last, .error fault) => (last, .error fault)

/-- Writes the index of every package with an artifact. -/
def writeIndex (emission : Emission) (tree : OutputTree) :
    OutputTree × Except Fault (List OutputPath) :=
  emission.writeIndexes tree emission.manifest.packages

/-- Writes the manifest below the root and answers its path. -/
def writeManifest (emission : Emission) (tree : OutputTree) :
    OutputTree × Except Fault OutputPath :=
  match tree.makeDirectories emission.root with
  | (made, .error obstacle) =>
      (made, .error (OutputTree.fault emission.root obstacle))
  | (made, .ok _) =>
      let path := emission.root.join [manifestFile]
      match made.writeOver path emission.manifest.toJson with
      | (after, .ok ()) => (after, .ok path)
      | (after, .error fault) => (after, .error fault)

end Emission

end RecordMasking

import RecordMasking.Artifact
import RecordMasking.Fault
import RecordMasking.Json.Reader
import RecordMasking.SortedNames

/-!
# Manifests

A manifest lists the keys that have an artifact in the output directory, with
what happened when the artifact was emitted first.  Its JSON text reads back
to it.
-/

namespace RecordMasking

/-- What became of an artifact: it is new, or its file was there before. -/
inductive Outcome where
  | written
  | skipped
deriving DecidableEq, Repr, Inhabited

def Outcome.display : Outcome → String
  | .written => "written"
  | .skipped => "skipped"

structure ManifestEntry where
  package : Package
  typeName : String
  artifact : String
  /-- The path of the file below the output directory. -/
  file : String
  outcome : Outcome
deriving DecidableEq, Repr, Inhabited

structure Manifest where
  artifacts : List ManifestEntry := []
deriving DecidableEq, Repr, Inhabited

def ManifestEntry.ofArtifact (artifact : Artifact) (outcome : Outcome) :
    ManifestEntry where
  package := artifact.key.package
  typeName := artifact.type.name
  artifact := artifact.key.name
  file := "/".intercalate artifact.key.filePath.components
  outcome := outcome

namespace Manifest

def entry? (manifest : Manifest) (package : Package) (typeName : String) :
    Option ManifestEntry :=
  manifest.artifacts.find? fun entry =>
    entry.package == package && entry.typeName == typeName

def hasArtifact (manifest : Manifest) (package : Package) (typeName : String) :
    Bool :=
  (manifest.entry? package typeName).isSome

def holdsKey (manifest : Manifest) (key : QualifiedName) : Bool :=
  manifest.artifacts.any fun entry =>
    entry.package == key.package && entry.artifact == key.name

/-- Adds an entry for an artifact unless its key has one. -/
def record (manifest : Manifest) (artifact : Artifact) (outcome : Outcome) :
    Manifest :=
  if manifest.holdsKey artifact.key then manifest
  else ⟨manifest.artifacts ++ [.ofArtifact artifact outcome]⟩

/-- The packages with an entry in increasing order, each once. -/
def packages (manifest : Manifest) : List Package :=
  sortedNames (manifest.artifacts.map ManifestEntry.package)

def entriesOf (manifest : Manifest) (package : Package) : List ManifestEntry :=
  manifest.artifacts.filter fun entry => entry.package == package

end Manifest

/-! ## Writing -/

namespace ManifestEntry

def memberNames : List String :=
  ["package", "type_name", "artifact", "file", "outcome"]

def values (entry : ManifestEntry) : List String :=
  [entry.package, entry.typeName, entry.artifact, entry.file,
    entry.outcome.display]

/-- The lines of an entry, one for each member. -/
def toJson (entry : ManifestEntry) : String :=
  let members := (memberNames.zip entry.values).map fun member =>
    "      " ++ Json.writeText member.1 ++ ": " ++ Json.writeText member.2
  "    \x7b\n" ++ ",\n".intercalate members ++ "\n    \x7d"

end ManifestEntry

def Manifest.toJson (manifest : Manifest) : String :=
  "\x7b\n  \"artifacts\": " ++
    (if manifest.artifacts.isEmpty then "[]"
      else
        "[\n" ++
          ",\n".intercalate (manifest.artifacts.map ManifestEntry.toJson) ++
          "\n  ]") ++
    "\n\x7d"

/-! ## Reading -/

open Json

def Outcome.ofName (name : String) : JsonReader Outcome :=
  if name = "written" then return .written
  else if name = "skipped" then return .skipped
  else
    JsonReader.fail (.unsuitable ("unknown variant `" ++ name ++
      "`, expected `written` or `skipped`"))

/-- Reads an outcome: its name, or an object whose only member has its name
and the value null. -/
def Outcome.read : JsonReader Outcome := do
  match ← JsonReader.next with
  | none => JsonReader.fail .ended
  | some '"' => do
      Outcome.ofName (← JsonReader.textAs "variant identifier")
  | some '\x7b' => do
      JsonReader.drop
      let outcome ←
        Outcome.ofName (← JsonReader.textAs "variant identifier")
      JsonReader.colon
      match ← JsonReader.next with
      | none => JsonReader.fail .ended
      | some 'n' => JsonReader.keyword ['n', 'u', 'l', 'l']
      | some _ => JsonReader.refuse "unit"
      JsonReader.close '\x7d'
      return outcome
  | some _ => JsonReader.fail .malformed

namespace ManifestEntry

/-- The value of a member: a text, or an outcome. -/
inductive Part where
  | text (value : String)
  | outcome (value : Outcome)
deriving DecidableEq, Repr

def skipMember : JsonReader Unit := do
  JsonReader.colon
  JsonReader.skip

def shape : JsonReader.RecordShape Part where
  title := "struct ManifestEntry"
  names := memberNames
  value name := do
    if name = "outcome" then return .outcome (← Outcome.read)
    else return .text (← JsonReader.textAs "a string")
  unknown _ := skipMember
  optional := false

def textOf (members : JsonReader.Members Part) (name : String) : String :=
  match members.lookup name with
  | some (.text value) => value
  | _ => ""

def outcomeOf (members : JsonReader.Members Part) : Outcome :=
  match members.lookup "outcome" with
  | some (.outcome value) => value
  | _ => .written

def read : JsonReader ManifestEntry := do
  let members ← JsonReader.record shape
  return {
    package := textOf members "package"
    typeName := textOf members "type_name"
    artifact := textOf members "artifact"
    file := textOf members "file"
    outcome := outcomeOf members }

end ManifestEntry

namespace Manifest

def shape : JsonReader.RecordShape (List ManifestEntry) where
  title := "struct Manifest"
  names := ["artifacts"]
  value _ := JsonReader.array ManifestEntry.read
  unknown _ := ManifestEntry.skipMember
  optional := false

def read : JsonReader Manifest := do
  let members ← JsonReader.record shape
  return ⟨(members.lookup "artifacts").getD []⟩

def ofJson (text : String) : Except Fault Manifest :=
  match JsonReader.run read text with
  | .ok manifest => .ok manifest
  | .error fault => .error (.malformedJson fault.message)

end Manifest

end RecordMasking

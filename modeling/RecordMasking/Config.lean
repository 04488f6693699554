import RecordMasking.Fault
import RecordMasking.Json.Reader

/-!
# Configuration

The names a run looks for and the paths it writes into generated code.  A
configuration is read from a JSON record whose members are strings; members
that are left out keep their defaults, and no others are allowed.
-/

namespace RecordMasking

structure Config where
  modelMarker : String := "Model"
  sensitiveAttribute : String := "sensitive"
  /-- The path to the masking trait's crate in generated code. -/
  runtimePath : String := "::masking"
  /-- The path in front of every declared type in generated code. -/
  crateRoot : String := "crate"
deriving DecidableEq, Repr, Inhabited

namespace Config

inductive Member where
  | modelMarker
  | sensitiveAttribute
  | runtimePath
  | crateRoot
deriving DecidableEq, Repr

def Member.name : Member → String
  | .modelMarker => "model_marker"
  | .sensitiveAttribute => "sensitive_attribute"
  | .runtimePath => "runtime_path"
  | .crateRoot => "crate_root"

def withMember (config : Config) : Member → String → Config
  | .modelMarker, value => { config with modelMarker := value }
  | .sensitiveAttribute, value => { config with sensitiveAttribute := value }
  | .runtimePath, value => { config with runtimePath := value }
  | .crateRoot, value => { config with crateRoot := value }

def memberNames : List String :=
  ["model_marker", "sensitive_attribute", "runtime_path", "crate_root"]

/-- Names in code quotes, with commas between them. -/
def listNames (names : List String) : String :=
  ", ".intercalate (names.map fun name => "`" ++ name ++ "`")

open Json in
def shape : JsonReader.RecordShape String where
  title := "struct GeneratorConfig"
  names := memberNames
  value _ := JsonReader.textAs "a string"
  unknown name :=
    JsonReader.fail (.unsuitable ("unknown field `" ++ name ++
      "`, expected one of " ++ listNames memberNames))
  optional := true

/-- Sets the member of a name, if there is one. -/
def set (config : Config) (name value : String) : Config :=
  if name = "model_marker" then { config with modelMarker := value }
  else if name = "sensitive_attribute" then
    { config with sensitiveAttribute := value }
  else if name = "runtime_path" then { config with runtimePath := value }
  else if name = "crate_root" then { config with crateRoot := value }
  else config

def setAll (config : Config) (members : List (String × String)) : Config :=
  members.foldl (fun config member => config.set member.1 member.2) config

def ofJson (text : String) : Except Fault Config :=
  match Json.JsonReader.run (Json.JsonReader.record shape) text with
  | .ok members => .ok (setAll {} members)
  | .error fault => .error (.malformedJson fault.message)

/-- Reads a configuration from the bytes of a file, if there is one. -/
def ofFile (path : String) (bytes : Option ByteArray) : Except Fault Config :=
  match bytes with
  | none =>
      .error (.fileAccess path "No such file or directory (os error 2)")
  | some bytes =>
      match String.fromUTF8? bytes with
      | some text => ofJson text
      | none => .error (.fileAccess path "stream did not contain valid UTF-8")

end Config

end RecordMasking

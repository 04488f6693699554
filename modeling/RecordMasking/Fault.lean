import RecordMasking.Diagnostic
import RecordMasking.QualifiedName

/-!
# Faults

The conditions a run can meet, as causes.  Every cause has a kind, a
severity and one wording.  Only a marker that does not resolve is fatal; all
others concern the one type that is being processed.
-/

namespace RecordMasking

inductive Refusal where
  | genericType
  | hiddenField (field : String) (nested : QualifiedName)
  | invalidPath (text : String) (detail : String)
  | invalidLifetime (text : String) (detail : String)
  | invalidFieldName (text : String)
  | stated (reason : String)
deriving DecidableEq, Repr, Inhabited

def Refusal.message : Refusal → String
  | .genericType => "generic types cannot receive a generated mask"
  | .hiddenField field nested =>
      "field `" ++ field ++ "` of `" ++ nested.display ++
        "` is not visible from the model's package"
  | .invalidPath text detail => "`" ++ text ++ "` is not a valid path: " ++ detail
  | .invalidLifetime text detail =>
      "`" ++ text ++ "` is not a lifetime: " ++ detail
  | .invalidFieldName text =>
      "field name `" ++ text ++ "` is not a Rust identifier"
  | .stated reason => reason

inductive Fault where
  | missingMarker (marker : String)
  | unresolvedField (owner : QualifiedName) (field : String) (type : String)
  | cyclicType (type : QualifiedName) (path : String)
  | duplicateArtifact (key : QualifiedName)
  | unsupportedType (type : QualifiedName) (refusal : Refusal)
  | unknownType (type : QualifiedName)
  | unreadableSource (path : String) (detail : String)
  | fileAccess (path : String) (detail : String)
  | malformedJson (detail : String)
deriving DecidableEq, Repr, Inhabited

namespace Fault

def kind : Fault → String
  | .missingMarker _ => "missing_marker"
  | .unresolvedField _ _ _ => "unresolved_field_type"
  | .cyclicType _ _ => "cyclic_type_graph"
  | .duplicateArtifact _ => "duplicate_artifact"
  | .unsupportedType _ _ => "unsupported_type"
  | .unknownType _ => "unknown_type"
  | .unreadableSource _ _ => "parse"
  | .fileAccess _ _ => "io"
  | .malformedJson _ => "json"

def severity : Fault → Severity
  | .unresolvedField _ _ _ => .warning
  | .cyclicType _ _ => .info
  | .duplicateArtifact _ => .info
  | _ => .error

def isFatal : Fault → Bool
  | .missingMarker _ => true
  | _ => false

def message : Fault → String
  | .missingMarker marker =>
      "model marker `" ++ marker ++
        "` could not be resolved; deferring to the next round"
  | .unresolvedField owner field type =>
      "field `" ++ field ++ "` of `" ++ owner.display ++
        "` has unresolved type `" ++ type ++ "`; treating it as opaque"
  | .cyclicType type path =>
      "`" ++ type.display ++ "` is already on path `" ++ path ++
        "`; not descending again"
  | .duplicateArtifact key =>
      "artifact `" ++ key.display ++ "` already exists, skipping generation"
  | .unsupportedType type refusal =>
      "cannot generate a mask for `" ++ type.display ++ "`: " ++ refusal.message
  | .unknownType type => "no declaration found for `" ++ type.display ++ "`"
  | .unreadableSource path detail => "failed to parse " ++ path ++ ": " ++ detail
  | .fileAccess path detail => "i/o error on " ++ path ++ ": " ++ detail
  | .malformedJson detail => "json error: " ++ detail

def toDiagnostic (fault : Fault) (location : Option Location) : Diagnostic where
  severity := fault.severity
  kind := fault.kind
  message := fault.message
  location := location

end Fault

end RecordMasking

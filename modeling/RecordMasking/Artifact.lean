import RecordMasking.Output.Path
import RecordMasking.QualifiedName

/-!
# Artifacts

An artifact is the text of one mask.  Its key is the name of the mask in the
package of the masked type, and its file lies in a directory for each segment
of the package.
-/

namespace RecordMasking

namespace QualifiedName

def maskKey (type : QualifiedName) : QualifiedName where
  package := type.package
  name := type.name ++ "Mask"

def fileName (key : QualifiedName) : String :=
  key.name ++ ".rs"

end QualifiedName

def Package.directory (package : Package) : OutputPath :=
  package.segments.foldl
    (fun path segment => path.join (OutputPath.ofText segment)) []

/-- The path of the file of a key below the output directory. -/
def QualifiedName.filePath (key : QualifiedName) : OutputPath :=
  key.package.directory.join (OutputPath.ofText key.fileName)

/-- The code of one mask, to be written to the file of its key. -/
structure Artifact where
  key : QualifiedName
  type : QualifiedName
  text : String
deriving DecidableEq, Repr, Inhabited

end RecordMasking

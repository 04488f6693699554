import RecordMasking.Code.TypeExpr

/-!
# Shapes of field types

Before anything is looked up, the type of a field is either of a builtin
shape, and kept as its text, or a path that may lead to a declared record.
-/

namespace RecordMasking.Source

open Code

def primitiveNames : List String :=
  ["i8", "i16", "i32", "i64", "i128", "isize", "u8", "u16", "u32", "u64",
    "u128", "usize", "f32", "f64", "bool", "char", "str"]

/-- Types of the standard library that are reached by a bare name. -/
def standardNames : List String :=
  ["String", "Option", "Vec", "Box", "Rc", "Arc", "Cow", "Cell", "RefCell",
    "Mutex", "RwLock", "HashMap", "HashSet", "BTreeMap", "BTreeSet",
    "VecDeque", "PhantomData", "Duration", "Instant", "SystemTime", "PathBuf",
    "OsString"]

def standardRoots : List String := ["std", "core", "alloc"]

inductive Shape where
  | builtin (text : String)
  | path (rooted : Bool) (segments : List String)
deriving DecidableEq, Repr

/-- Whether a path is taken for a primitive type, a type of the standard
library or a generic parameter. -/
def isBuiltinPath (params : List String) (rooted : Bool) :
    List Segment → Bool
  | [] => false
  | [segment] =>
      standardNames.contains segment.name ||
        (!rooted && (params.contains segment.name ||
          (segment.arguments.isEmpty && primitiveNames.contains segment.name)))
  | segment :: _ :: _ => standardRoots.contains segment.name

/-- The shape of a type among the given generic parameters.  Round brackets
around a type are passed over. -/
def Shape.ofType (params : List String) : TypeExpr → Shape
  | .paren inner => Shape.ofType params inner
  | .path rooted segments =>
      if isBuiltinPath params rooted segments then
        .builtin (TypeExpr.render (.path rooted segments))
      else .path rooted (segments.map Segment.name)
  | type => .builtin type.render

end RecordMasking.Source

import RecordMasking.FieldPath

/-!
# Output paths

The path of an output file is the list of the stretches between the slashes
of its text.  A rooted path starts with an empty stretch.  Joining puts a
slash between two paths unless the first ends in one, and a rooted second
path replaces the first.
-/

namespace RecordMasking

abbrev OutputPath := List String

namespace OutputPath

def ofText (text : String) : OutputPath :=
  if text.isEmpty then []
  else (splitAt '/' text.toList).map String.ofList

def text (path : OutputPath) : String :=
  "/".intercalate path

def isRooted (path : OutputPath) : Bool :=
  path.head? == some ""

/-- The path without an empty stretch at its end. -/
def stem (path : OutputPath) : OutputPath :=
  if path.getLast? == some "" then path.dropLast else path

def join (base piece : OutputPath) : OutputPath :=
  if piece.isRooted || base.isEmpty then piece
  else if piece.isEmpty then base.stem ++ [""]
  else base.stem ++ piece

def isIdle (stretch : String) : Bool :=
  stretch.isEmpty || stretch == "."

/-- The names along a path; `..` is one of them. -/
def names (path : OutputPath) : List String :=
  path.filter fun stretch => !isIdle stretch

/-- The names along a path, after a slash for the root or a dot for the
current directory where the path is written from there. -/
def components (path : OutputPath) : List String :=
  (match path with
    | "" :: _ => ["/"]
    | "." :: _ => ["."]
    | _ => []) ++ path.names

def lastName (path : OutputPath) : String :=
  path.names.getLast?.getD ""

def withoutLastName (path : OutputPath) : OutputPath :=
  (((path.reverse.dropWhile isIdle).drop 1).dropWhile isIdle).reverse

def parent : OutputPath → OutputPath
  | "" :: rest =>
      match withoutLastName rest with
      | [] => ["", ""]
      | lead => "" :: lead
  | path => withoutLastName path

end OutputPath

end RecordMasking

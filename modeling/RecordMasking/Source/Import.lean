import RecordMasking.Code.Item

/-!
# Imports

An import tree stands for the imports of its leaves: each leaf binds a name
to the full path that leads to it, or opens the module at its path.
-/

namespace RecordMasking.Source

open Code

/-- What one leaf of an import tree brings in. -/
inductive Import where
  | named (name : String) (path : List String)
  | glob (path : List String)
deriving DecidableEq, Repr

namespace Import

def named? : Import → Option (String × List String)
  | .named name path => some (name, path)
  | .glob _ => none

def glob? : Import → Option (List String)
  | .named _ _ => none
  | .glob path => some path

/-- What a leaf name under a path brings in.  The leaf `self` stands for the
path itself, and for nothing when the path is empty. -/
def ofLeaf (lead : List String) (name : String) : List Import :=
  if name = "self" then
    match lead.getLast? with
    | some last => [.named last lead]
    | none => []
  else [.named name (lead ++ [name])]

mutual

/-- The imports of the leaves of a tree under a path, in their order. -/
def ofTree (lead : List String) : ImportTree → List Import
  | .under segment tree => ofTree (lead ++ [segment]) tree
  | .leaf name => ofLeaf lead name
  | .renamed name newName => [.named newName (lead ++ [name])]
  | .glob => [.glob lead]
  | .group trees => ofTrees lead trees

def ofTrees (lead : List String) : List ImportTree → List Import
  | [] => []
  | tree :: rest => ofTree lead tree ++ ofTrees lead rest

end

end Import

end RecordMasking.Source

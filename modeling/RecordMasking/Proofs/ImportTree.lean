import Mathlib.Data.List.Forall2
import RecordMasking.Source.Import

/-!
# Import trees

A walk over an import tree keeps one path, which it lengthens on the way down
and shortens on the way up, and gathers the imports of the leaves as it meets
them.  What it gathers is what the leaves bring in when each of them is
written as an import of its own.  A leaf brings in what is meant by it, but
for `self` under a new name: that name is bound to an item named `self` of the
module and not to the module.
-/

namespace RecordMasking

namespace Code

/-! ## Leaves -/

inductive ImportLeaf where
  | name (name : String)
  | renamed (name : String) (newName : String)
  | glob
deriving DecidableEq, Repr

def ImportLeaf.tree : ImportLeaf → ImportTree
  | .name text => .leaf text
  | .renamed text newName => .renamed text newName
  | .glob => .glob

/-- A leaf of an import tree with the segments that lead to it. -/
structure SingleImport where
  lead : List String
  leaf : ImportLeaf
deriving DecidableEq, Repr

namespace SingleImport

def under (segments : List String) (single : SingleImport) : SingleImport :=
  { single with lead := segments ++ single.lead }

/-- The leaf written as an import of its own. -/
def tree (single : SingleImport) : ImportTree :=
  single.lead.foldr .under single.leaf.tree

end SingleImport

namespace ImportTree

mutual

/-- The leaves of a tree in their order. -/
def leaves : ImportTree → List SingleImport
  | .under segment tree => (leaves tree).map (SingleImport.under [segment])
  | .leaf name => [⟨[], .name name⟩]
  | .renamed name newName => [⟨[], .renamed name newName⟩]
  | .glob => [⟨[], .glob⟩]
  | .group trees => leavesOf trees

def leavesOf : List ImportTree → List SingleImport
  | [] => []
  | tree :: rest => leaves tree ++ leavesOf rest

end

end ImportTree

end Code

namespace Source

open Code

/-! ## Walks -/

/-- What a walk has gathered, and the path to where it stands. -/
structure ImportWalk where
  path : List String
  named : List (String × List String)
  globs : List (List String)
deriving DecidableEq, Repr

namespace ImportWalk

def bind (walk : ImportWalk) (name : String) (path : List String) :
    ImportWalk :=
  { walk with named := walk.named ++ [(name, path)] }

def enter (walk : ImportWalk) (segment : String) : ImportWalk :=
  { walk with path := walk.path ++ [segment] }

def leave (walk : ImportWalk) : ImportWalk :=
  { walk with path := walk.path.dropLast }

mutual

def visit (walk : ImportWalk) : ImportTree → ImportWalk
  | .under segment tree => (visit (walk.enter segment) tree).leave
  | .leaf name =>
      if name = "self" then
        match walk.path.getLast? with
        | some last => walk.bind last walk.path
        | none => walk
      else walk.bind name (walk.path ++ [name])
  | .renamed name newName => walk.bind newName (walk.path ++ [name])
  | .glob => { walk with globs := walk.globs ++ [walk.path] }
  | .group trees => visitAll walk trees

def visitAll (walk : ImportWalk) : List ImportTree → ImportWalk
  | [] => walk
  | tree :: rest => visitAll (visit walk tree) rest

end

/-- The walk with some imports more, at the same path. -/
def gather (walk : ImportWalk) (imports : List Import) : ImportWalk where
  path := walk.path
  named := walk.named ++ imports.filterMap Import.named?
  globs := walk.globs ++ imports.filterMap Import.glob?

theorem gather_append (walk : ImportWalk) (imports others : List Import) :
    walk.gather (imports ++ others) =
      (walk.gather imports).gather others := by
  simp [gather]

theorem bind_eq_gather (walk : ImportWalk) (name : String)
    (path : List String) :
    walk.bind name path = walk.gather [.named name path] := by
  simp [bind, gather, Import.named?, Import.glob?]

theorem leave_gather_enter (walk : ImportWalk) (segment : String)
    (imports : List Import) :
    ((walk.enter segment).gather imports).leave = walk.gather imports := by
  simp [leave, gather, enter]

mutual

/-- A visit ends at the path at which it began. -/
theorem visit_eq_gather (walk : ImportWalk) (tree : ImportTree) :
    walk.visit tree = walk.gather (Import.ofTree walk.path tree) := by
  cases tree with
  | under segment tree =>
      rw [visit, visit_eq_gather, leave_gather_enter, Import.ofTree]
      rfl
  | leaf name =>
      rw [visit, Import.ofTree, Import.ofLeaf]
      split
      next =>
        cases walk.path.getLast? with
        | some last => exact walk.bind_eq_gather last walk.path
        | none => simp [gather]
      next => exact walk.bind_eq_gather name _
  | renamed name newName =>
      rw [visit, Import.ofTree, bind_eq_gather]
  | glob => simp [visit, Import.ofTree, gather, Import.named?, Import.glob?]
  | group trees => rw [visit, Import.ofTree, visitAll_eq_gather]

theorem visitAll_eq_gather (walk : ImportWalk) (trees : List ImportTree) :
    walk.visitAll trees = walk.gather (Import.ofTrees walk.path trees) := by
  cases trees with
  | nil => simp [visitAll, Import.ofTrees, gather]
  | cons tree rest =>
      rw [visitAll, Import.ofTrees, gather_append, visit_eq_gather,
        visitAll_eq_gather]
      rfl

end

end ImportWalk

/-! ## Imports of the leaves -/

namespace Import

mutual

theorem ofTree_eq_flatMap (lead : List String) (tree : ImportTree) :
    ofTree lead tree =
      tree.leaves.flatMap fun single =>
        ofTree (lead ++ single.lead) single.leaf.tree := by
  cases tree with
  | under segment tree =>
      rw [ofTree, ImportTree.leaves, List.flatMap_map, ofTree_eq_flatMap]
      simp [SingleImport.under]
  | leaf name => simp [ImportTree.leaves, ImportLeaf.tree]
  | renamed name newName => simp [ImportTree.leaves, ImportLeaf.tree]
  | glob => simp [ImportTree.leaves, ImportLeaf.tree]
  | group trees => rw [ofTree, ImportTree.leaves, ofTrees_eq_flatMap]

theorem ofTrees_eq_flatMap (lead : List String) (trees : List ImportTree) :
    ofTrees lead trees =
      (ImportTree.leavesOf trees).flatMap fun single =>
        ofTree (lead ++ single.lead) single.leaf.tree := by
  cases trees with
  | nil => rfl
  | cons tree rest =>
      rw [ofTrees, ImportTree.leavesOf, List.flatMap_append,
        ofTree_eq_flatMap, ofTrees_eq_flatMap]

end

theorem ofTree_single (lead : List String) (single : SingleImport) :
    ofTree lead single.tree =
      ofTree (lead ++ single.lead) single.leaf.tree := by
  obtain ⟨segments, leaf⟩ := single
  unfold SingleImport.tree
  induction segments generalizing lead with
  | nil => simp
  | cons segment rest ih =>
      rw [List.foldr_cons, ofTree, ih]
      simp

theorem length_ofTree_leaf_le (path : List String) (leaf : ImportLeaf) :
    (ofTree path leaf.tree).length ≤ 1 := by
  cases leaf with
  | name text =>
      rw [ImportLeaf.tree, ofTree, ofLeaf]
      split
      next => cases path.getLast? <;> simp
      next => simp
  | renamed text newName => simp [ImportLeaf.tree, ofTree]
  | glob => simp [ImportLeaf.tree, ofTree]

/-- What is meant by a leaf under a path: `self` stands for the path, bound to
its last segment or to a new name, every other name for an item behind the
path. -/
inductive MeantBy (path : List String) : ImportLeaf → Import → Prop where
  | module {last : String} (hlast : path.getLast? = some last) :
      MeantBy path (.name "self") (.named last path)
  | moduleAs (newName : String) :
      MeantBy path (.renamed "self" newName) (.named newName path)
  | item {text : String} (htext : text ≠ "self") :
      MeantBy path (.name text) (.named text (path ++ [text]))
  | itemAs {text : String} (htext : text ≠ "self") (newName : String) :
      MeantBy path (.renamed text newName) (.named newName (path ++ [text]))
  | glob : MeantBy path .glob (.glob path)

/-- The leaf `self` under a new name, or without a path that it could stand
for. -/
def IsLostSelf (path : List String) : ImportLeaf → Prop
  | .name text => text = "self" ∧ path = []
  | .renamed text _ => text = "self"
  | .glob => False

theorem exists_meantBy_iff (path : List String) (leaf : ImportLeaf) :
    (∃ found, ofTree path leaf.tree = [found] ∧ MeantBy path leaf found) ↔
      ¬IsLostSelf path leaf := by
  cases leaf with
  | name text =>
      rw [ImportLeaf.tree, ofTree, ofLeaf]
      by_cases htext : text = "self"
      · subst htext
        cases hlast : path.getLast? with
        | none =>
            have hpath : path = [] := List.getLast?_eq_none_iff.mp hlast
            simp [IsLostSelf, hpath]
        | some last =>
            have hpath : path ≠ [] := by
              rintro rfl
              cases hlast
            simp only [if_true, IsLostSelf, hpath, and_false,
              not_false_eq_true, iff_true]
            exact ⟨_, rfl, .module hlast⟩
      · simp only [IsLostSelf, htext, false_and, not_false_eq_true, iff_true]
        exact ⟨_, rfl, .item htext⟩
  | renamed text newName =>
      rw [ImportLeaf.tree, ofTree, IsLostSelf]
      constructor
      · rintro ⟨found, hfound, hmeant⟩ rfl
        obtain rfl := List.singleton_inj.mp hfound
        -- `moduleAs` would bind the shorter path, `itemAs` excludes `self`.
        generalize hpath : path ++ ["self"] = longer at hmeant
        cases hmeant with
        | moduleAs => simp at hpath
        | itemAs htext => exact htext rfl
      · exact fun htext => ⟨_, rfl, .itemAs htext newName⟩
  | glob =>
      rw [ImportLeaf.tree, ofTree, IsLostSelf]
      exact iff_of_true ⟨_, rfl, .glob⟩ not_false

end Import

theorem length_flatMap_le {α β : Type} {pieces : α → List β}
    (hshort : ∀ a, (pieces a).length ≤ 1) (items : List α) :
    (items.flatMap pieces).length ≤ items.length := by
  induction items with
  | nil => simp
  | cons item rest ih =>
      have hitem := hshort item
      rw [List.flatMap_cons, List.length_append, List.length_cons]
      omega

/-- Pieces of at most one member stand against the items one to one only where
each of them has its member. -/
theorem forall₂_flatMap_iff {α β : Type} {pieces : α → List β}
    {related : α → β → Prop} (hshort : ∀ a, (pieces a).length ≤ 1)
    {items : List α} :
    List.Forall₂ related items (items.flatMap pieces) ↔
      ∀ item ∈ items, ∃ member, pieces item = [member] ∧
        related item member := by
  induction items with
  | nil => simp
  | cons item rest ih =>
      rw [List.flatMap_cons, List.forall_mem_cons, ← ih]
      have hitem := hshort item
      match hpieces : pieces item with
      | [] =>
          -- The rest has no member to spare for the item that has none.
          have hfewer := length_flatMap_le hshort rest
          constructor
          · intro hall
            have hlength := hall.length_eq
            rw [List.nil_append, List.length_cons] at hlength
            omega
          · rintro ⟨⟨_, hmember, _⟩, _⟩
            cases hmember
      | [member] => simp
      | _ :: _ :: _ => simp [hpieces] at hitem

/-- Flattening an import tree.  The walk leaves its path as it was and gathers
what the leaves bring in, in their order, each as if it were an import of its
own.  That is one import for each leaf, the one that is meant by it, just when
no leaf is `self` under a new name or without a path; under a new name, `self`
is taken for the name of an item. -/
theorem flattened_leaf_by_leaf (lead : List String) (tree : ImportTree) :
    (∀ walk : ImportWalk,
      walk.visit tree = walk.gather (Import.ofTree walk.path tree)) ∧
      Import.ofTree lead tree =
        tree.leaves.flatMap (fun single =>
          Import.ofTree [] (single.under lead).tree) ∧
      (List.Forall₂ (fun single found =>
          Import.MeantBy (lead ++ single.lead) single.leaf found)
          tree.leaves (Import.ofTree lead tree) ↔
        ∀ single ∈ tree.leaves,
          ¬Import.IsLostSelf (lead ++ single.lead) single.leaf) ∧
      ∀ single ∈ tree.leaves, ∀ newName,
        single.leaf = .renamed "self" newName →
        Import.ofTree [] (single.under lead).tree =
          [.named newName (lead ++ single.lead ++ ["self"])] := by
  refine ⟨fun walk => walk.visit_eq_gather tree, ?_, ?_, ?_⟩
  · rw [Import.ofTree_eq_flatMap]
    simp only [Import.ofTree_single, SingleImport.under, List.nil_append]
  · have hshort (single : SingleImport) :=
      Import.length_ofTree_leaf_le (lead ++ single.lead) single.leaf
    rw [Import.ofTree_eq_flatMap]
    refine (forall₂_flatMap_iff hshort).trans ?_
    simp only [Import.exists_meantBy_iff]
  · intro single _ newName hleaf
    rw [Import.ofTree_single, List.nil_append, SingleImport.under, hleaf]
    rfl

/-- A vault is bound to an item of its own that does not exist. -/
example :
    Import.ofTree []
        (.under "crate" (.under "vault"
          (.group [.leaf "self", .renamed "self" "safe"]))) =
      [.named "vault" ["crate", "vault"],
        .named "safe" ["crate", "vault", "self"]] := by
  decide

end Source

end RecordMasking

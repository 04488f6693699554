import Mathlib.Data.List.Forall2
import RecordMasking.Proofs.CrateViews
import RecordMasking.Proofs.OwnNames
import RecordMasking.Proofs.Recut
import RecordMasking.Proofs.Synonyms

/-!
# Glob imports

A glob import is asked last, and only for a single name.  One that is added
behind the other items of a package therefore answers nothing but references
that were unknown, at the field itself or at any hop of a chain of synonyms:
every type that was a record or builtin stays what it was.

The first segment of a longer path is never looked for behind a glob.  A
module that only a glob brings in is taken for one of another crate, and what
is reached through it stays closed.
-/

namespace RecordMasking

/-! ## Types that were not known -/

/-- The type has changed at most where nothing was known about it. -/
def FieldType.FilledBy (one next : FieldType) : Prop :=
  next = one ∨ ∃ text, one = .unresolved text

/-- The same field but for its type, which is filled. -/
structure Field.FilledBy (one next : Field) : Prop where
  rest : next = { one with type := next.type }
  type : one.type.FilledBy next.type

structure Declaration.FilledBy (one next : Declaration) : Prop where
  rest : next = { one with fields := next.fields }
  fields : List.Forall₂ Field.FilledBy one.fields next.fields

namespace Source

open Code

namespace Crate

/-! ## Crates that refer to more -/

/-- The same items, and the same references but for unknown ones. -/
structure FilledBy (one next : Crate) : Prop where
  declares : ∀ id, next.declares id = one.declares id
  closes : ∀ id, next.closes id = one.closes id
  synonym? : ∀ id, next.synonym? id = one.synonym? id
  reference : ∀ package rooted path,
    one.reference package rooted path ≠ .unknown →
    next.reference package rooted path = one.reference package rooted path

namespace FilledBy

variable {one next : Crate} (hfilled : one.FilledBy next)

include hfilled

theorem ending_eq (ref : Reference) : next.ending ref = one.ending ref := by
  cases ref with
  | foreign => rfl
  | unknown => rfl
  | item id => simp [ending, hfilled.declares, hfilled.closes]

theorem hop?_eq_none {ref : Reference} (hend : one.hop? ref = none) :
    next.hop? ref = none := by
  cases ref with
  | foreign => rfl
  | unknown => rfl
  | item id =>
      simpa [hop?_item, hfilled.declares, hfilled.closes, hfilled.synonym?]
        using hend

theorem hop?_eq_some {ref found : Reference}
    (hhop : one.hop? ref = some found) (hknown : found ≠ .unknown) :
    next.hop? ref = some found := by
  obtain ⟨id, synonym, rfl, hdeclares, hcloses, hsynonym, rfl⟩ :=
    exists_synonym_of_hop hhop
  have hreference :
      next.referenceOf id.package synonym.1.valueNames synonym.2 =
        one.referenceOf id.package synonym.1.valueNames synonym.2 := by
    unfold referenceOf at hknown ⊢
    cases hshape : Shape.ofType synonym.1.valueNames synonym.2 with
    | builtin _ => rfl
    | path rooted path =>
        apply hfilled.reference
        simpa [hshape] using hknown
  simp [hop?_item, hfilled.declares, hfilled.closes, hfilled.synonym?,
    hdeclares, hcloses, hsynonym, hreference]

theorem settle_eq {synonyms : Nat} {ref : Reference}
    (hknown : one.settle synonyms ref ≠ .unknown) :
    next.settle synonyms ref = one.settle synonyms ref := by
  induction synonyms generalizing ref with
  | zero => rw [settle_zero, settle_zero, hfilled.ending_eq]
  | succ left ih =>
      cases hhop : one.hop? ref with
      | none =>
          rw [settle_of_end hhop, settle_of_end (hfilled.hop?_eq_none hhop),
            hfilled.ending_eq]
      | some found =>
          rw [settle_of_hop hhop] at hknown ⊢
          -- A chain that comes to an unknown reference ends there.
          have hfound : found ≠ .unknown := by
            rintro rfl
            apply hknown
            rw [settle]
          rw [settle_of_hop (hfilled.hop?_eq_some hhop hfound)]
          exact ih hknown

theorem target_eq {synonyms : Nat} {package : Package} {rooted : Bool}
    {path : List String}
    (hknown : one.target synonyms package rooted path ≠ .unknown) :
    next.target synonyms package rooted path =
      one.target synonyms package rooted path := by
  rw [target_eq_settle] at hknown ⊢
  have hreference : one.reference package rooted path ≠ .unknown := by
    intro hunknown
    apply hknown
    rw [hunknown, settle]
  rw [target_eq_settle, hfilled.reference package rooted path hreference]
  exact hfilled.settle_eq hknown

theorem fieldType_filledBy (package : Package) (params : List String)
    (type : TypeExpr) :
    (fieldType one package params type).FilledBy
      (fieldType next package params type) := by
  unfold fieldType
  cases Shape.ofType params type with
  | builtin _ => exact .inl rfl
  | path rooted path =>
      by_cases hknown : one.target synonymLimit package rooted path = .unknown
      · exact .inr ⟨type.render, by simp [hknown]⟩
      · left
        simp only [hfilled.target_eq hknown]

end FilledBy

/-! ## A glob import behind the other items -/

/-- A glob import of a path is added to a package behind its other items.
Where things stand in the texts may have changed. -/
structure GlobAppended (one next : Crate) (package : Package)
    (path : List String) : Prop where
  packages : ∀ other, one.hasPackage other = next.hasPackage other
  items : ∃ front back glob,
    one.items.map Placed.view = (front ++ back).map Placed.view ∧
      next.items.map Placed.view = (front ++ glob :: back).map Placed.view ∧
      glob.package = package ∧ glob.imports = [.glob path] ∧
      ∀ placed ∈ back, placed.package ≠ package

theorem exists_tree_of_imports {placed : Placed} {path : List String}
    (hglob : placed.imports = [.glob path]) :
    ∃ tree, placed.item = .imports tree := by
  unfold Placed.imports at hglob
  split at hglob
  next tree hitem => exact ⟨tree, hitem⟩
  next => cases hglob

theorem importsOf_eq_of_views {crate : Crate} {items : List Placed}
    (hviews : crate.items.map Placed.view = items.map Placed.view)
    (package : Package) :
    crate.importsOf package =
      (items.filter fun placed => placed.package == package).flatMap
        Placed.imports := by
  have hitems : (crate.itemsOf package).map Placed.view =
      (items.filter fun placed => placed.package == package).map
        Placed.view := by
    have hfiltered :=
      congrArg (List.filter fun view => view.package == package) hviews
    rwa [List.filter_map, List.filter_map] at hfiltered
  rw [importsOf, List.flatMap, List.flatMap, seenIn_imports.map_eq hitems]

namespace GlobAppended

variable {one next : Crate} {package : Package} {path : List String}
  (happended : one.GlobAppended next package path)

include happended

theorem filterMap_items {α : Type} {read : Placed → Option α}
    (hseen : SeenIn read)
    (himports : ∀ placed tree, placed.item = .imports tree →
      read placed = none) :
    next.items.filterMap read = one.items.filterMap read := by
  obtain ⟨front, back, glob, hone, hnext, -, hglob, -⟩ := happended.items
  obtain ⟨tree, hitem⟩ := exists_tree_of_imports hglob
  rw [hseen.filterMap_eq hone, hseen.filterMap_eq hnext, List.filterMap_append,
    List.filterMap_append, List.filterMap_cons_none (himports glob tree hitem)]

theorem any_items {read : Placed → Bool} (hseen : SeenIn read)
    (himports : ∀ placed tree, placed.item = .imports tree →
      read placed = false) :
    next.items.any read = one.items.any read := by
  obtain ⟨front, back, glob, hone, hnext, -, hglob, -⟩ := happended.items
  obtain ⟨tree, hitem⟩ := exists_tree_of_imports hglob
  rw [hseen.any_eq hone, hseen.any_eq hnext]
  simp [himports glob tree hitem]

theorem declares_eq (id : QualifiedName) :
    next.declares id = one.declares id := by
  apply happended.any_items
  · intro left right hview
    simp only [seenIn_recordId? left right hview]
  · intro placed tree hitem
    simp [Placed.recordId?, Placed.record?, hitem]

theorem closes_eq (id : QualifiedName) : next.closes id = one.closes id := by
  apply happended.any_items
  · intro left right hview
    simp only [seenIn_closedId? left right hview]
  · intro placed tree hitem
    simp [Placed.closedId?, hitem]

theorem synonym?_eq (id : QualifiedName) :
    next.synonym? id = one.synonym? id := by
  unfold synonym?
  rw [happended.filterMap_items seenIn_synonym?]
  intro placed tree hitem
  simp [Placed.synonym?, hitem]

theorem knows_eq (id : QualifiedName) : next.knows id = one.knows id := by
  simp only [knows, happended.declares_eq, happended.closes_eq,
    happended.synonym?_eq]

theorem traitsOf_eq (other : Package) (self : String) :
    next.traitsOf other self = one.traitsOf other self := by
  unfold traitsOf itemsOf
  rw [List.filterMap_filter, List.filterMap_filter,
    happended.filterMap_items]
  · intro left right hview
    have hpackage : left.package = right.package :=
      congrArg PlacedView.package hview
    simp only [hpackage, seenIn_implementation? left right hview]
  · intro placed tree hitem
    simp [Placed.implementation?, hitem]

/-- The imports of a package, with the new one at the end of its own. -/
theorem importsOf_eq (other : Package) :
    next.importsOf other =
      one.importsOf other ++ if other = package then [.glob path] else [] := by
  obtain ⟨front, back, glob, hone, hnext, hpackage, hglob, hlast⟩ :=
    happended.items
  rw [importsOf_eq_of_views hnext, importsOf_eq_of_views hone]
  by_cases hother : other = package
  · subst hother
    have hbehind : (back.filter fun placed => placed.package == other) = [] := by
      simpa [List.filter_eq_nil_iff] using hlast
    simp [List.filter_append, hbehind, hpackage, hglob]
  · have hne : (glob.package == other) = false := by
      simpa [hpackage] using Ne.symm hother
    simp [List.filter_append, hne, hother]

theorem imported?_eq (other : Package) (name : String) :
    next.imported? other name = one.imported? other name := by
  unfold imported?
  rw [happended.importsOf_eq]
  by_cases hother : other = package <;>
    simp [hother, List.filterMap_cons, Import.named?]

theorem globsOf_eq (other : Package) :
    next.globsOf other =
      one.globsOf other ++ if other = package then [path] else [] := by
  unfold globsOf
  rw [happended.importsOf_eq]
  by_cases hother : other = package <;>
    simp [hother, Import.glob?]

theorem absolute?_eq (current : Package) (full : List String) :
    next.absolute? current full = one.absolute? current full := by
  unfold absolute?
  simp only [happended.packages]

theorem globbed?_eq {other : Package} {name : String} {id : QualifiedName}
    (hfound : one.globbed? other name = some id) :
    next.globbed? other name = some id := by
  unfold globbed? at hfound ⊢
  rw [happended.globsOf_eq, List.findSome?_append]
  simp [funext happended.knows_eq, happended.absolute?_eq, hfound]

theorem reference_eq {other : Package} {rooted : Bool} {path : List String}
    (hknown : one.reference other rooted path ≠ .unknown) :
    next.reference other rooted path = one.reference other rooted path := by
  have hother : ∀ full, next.ofAbsolute other full = one.ofAbsolute other full := by
    intro full
    rw [ofAbsolute, ofAbsolute, happended.absolute?_eq]
  cases rooted with
  | true => rfl
  | false =>
      rcases path with _ | ⟨name, _ | ⟨second, rest⟩⟩
      · rfl
      · -- Only a single name is looked for behind the globs, and only last.
        simp only [reference, Bool.false_eq_true, if_false] at hknown ⊢
        rw [happended.knows_eq, happended.imported?_eq]
        by_cases hknows : one.knows ⟨other, name⟩ = true
        · simp [hknows]
        · cases himported : one.imported? other name with
          | some full => simp [hknows, hother]
          | none =>
              cases hglobbed : one.globbed? other name with
              | some id => simp [happended.globbed?_eq hglobbed]
              | none => simp [hknows, himported, hglobbed] at hknown
      · simp only [reference, happended.imported?_eq, hother]

theorem filledBy : one.FilledBy next where
  declares := happended.declares_eq
  closes := happended.closes_eq
  synonym? := happended.synonym?_eq
  reference _ _ _ := happended.reference_eq

end GlobAppended

/-- A glob import at the end of a source is added behind the other items of
its package when no later source has any of them. -/
theorem globAppended_ofSources (before : List MountedSource)
    (source : MountedSource) {after : List MountedSource} (tree : ImportTree)
    {path : List String} (htree : Import.ofTree [] tree = [.glob path])
    (hlast : ∀ other ∈ after, source.package ∉ other.contributes) :
    (ofSources (before ++ source :: after)).GlobAppended
      (ofSources (before ++
        { source with items := source.items ++ [.imports tree] } :: after))
      source.package path where
  packages other := by
    have hmounts : packagesOfItems source.package
        (source.items ++ [.imports tree]) =
          packagesOfItems source.package source.items := by
      rw [packagesOfItems_append]
      simp [packagesOfItems, packagesOfItem]
    simp [hasPackage, ofSources, hmounts]
  items := by
    let glob : Placed := ⟨source.package, source.file, .imports tree⟩
    have hitems : ∀ sources,
        (ofSources sources).items = sources.flatMap MountedSource.placed :=
      fun _ => rfl
    have hsource : MountedSource.placed
        { source with items := source.items ++ [.imports tree] } =
          source.placed ++ [glob] := by
      simp [MountedSource.placed, placedItems_append, placedItems, placedItem,
        glob]
    refine ⟨before.flatMap MountedSource.placed ++ source.placed,
      after.flatMap MountedSource.placed, glob, ?_, ?_, rfl, htree, ?_⟩
    · simp [hitems]
    · simp [hitems, hsource]
    · intro placed hplaced hpackage
      obtain ⟨other, hother, hmem⟩ := List.mem_flatMap.mp hplaced
      apply hlast other hother
      exact List.mem_map.mpr ⟨placed, hmem, hpackage⟩

end Crate

/-! ## The declarations of filled crates -/

variable {config : Config} {one next : Crate}

theorem FieldView.filledBy (hfilled : one.FilledBy next) (package : Package)
    (params : List String) (index : Nat) (view : FieldView) :
    (FieldView.field config one package params index view).FilledBy
      (FieldView.field config next package params index view) where
  rest := rfl
  type := hfilled.fieldType_filledBy package params view.type

theorem RecordView.filledBy (hfilled : one.FilledBy next)
    (htraits : ∀ package self,
      next.traitsOf package self = one.traitsOf package self)
    (package : Package) (view : RecordView) :
    (RecordView.declaration config one package view).FilledBy
      (RecordView.declaration config next package view) where
  rest := by
    unfold RecordView.declaration
    rw [htraits]
  fields := by
    simp only [RecordView.declaration, List.mapIdx_eq_zipIdx_map]
    rw [List.forall₂_map_left_iff, List.forall₂_map_right_iff,
      List.forall₂_same]
    intro entry _
    exact FieldView.filledBy hfilled package _ entry.2 entry.1

theorem Crate.GlobAppended.declarations_filledBy {package : Package}
    {path : List String} (happended : one.GlobAppended next package path) :
    List.Forall₂ Declaration.FilledBy
      ((declarations config one).map Declaration.unlocated)
      ((declarations config next).map Declaration.unlocated) := by
  obtain ⟨front, back, glob, hone, hnext, -, hglob, -⟩ := happended.items
  obtain ⟨tree, hitem⟩ := Crate.exists_tree_of_imports hglob
  have hnone : glob.view.declaration? config next = none := by
    simp [Placed.view, hitem, Item.view, PlacedView.declaration?]
  have hlisted : (next.items.map Placed.view).filterMap
      (PlacedView.declaration? config next) =
        (one.items.map Placed.view).filterMap
          (PlacedView.declaration? config next) := by
    rw [hone, hnext]
    simp [hnone]
  rw [declarations_unlocated, declarations_unlocated, hlisted]
  apply List.rel_filterMap (R := Eq)
  · rintro view _ rfl
    cases hview : view.item with
    | record record =>
        simp only [PlacedView.declaration?, hview]
        exact .some (RecordView.filledBy happended.filledBy
          happended.traitsOf_eq view.package record)
    | mounted _ _ => simp [PlacedView.declaration?, hview]
    | plain _ => simp [PlacedView.declaration?, hview]
  · exact List.forall₂_same.mpr fun _ _ => rfl

/-- A glob import that is added behind the other items of a package changes
the type of no field that was a record or builtin, in whatever package.  The
same holds for every reference, and so at every hop of a chain of synonyms:
own items, named imports and earlier globs are asked before. -/
theorem globs_fill_gaps (config : Config) {package : Package}
    {path : List String} (happended : one.GlobAppended next package path) :
    List.Forall₂ Declaration.FilledBy
        ((schemaOf config one).declarations.map Declaration.unlocated)
        ((schemaOf config next).declarations.map Declaration.unlocated) ∧
      ∀ other rooted written,
        one.reference other rooted written ≠ .unknown →
        next.reference other rooted written =
          one.reference other rooted written :=
  ⟨happended.declarations_filledBy, fun _ _ _ => happended.reference_eq⟩

open SampleSources in
theorem openShop_fills_gaps :
    closedShop.GlobAppended openShop "shop" ["crate", "models"] ∧
      List.Forall₂ Declaration.FilledBy
        ((schemaOf {} closedShop).declarations.map Declaration.unlocated)
        ((schemaOf {} openShop).declarations.map Declaration.unlocated) ∧
      ((schemaOf {} closedShop).fields ⟨"shop", "Purchase"⟩).map Field.type =
        [.declared ⟨"shop", "Note"⟩, .unresolved "Receipt",
          .unresolved "crate :: desk :: Slip", .builtin "vault :: Card"] ∧
      ((schemaOf {} openShop).fields ⟨"shop", "Purchase"⟩).map Field.type =
        [.declared ⟨"shop", "Note"⟩, .declared ⟨"models", "Receipt"⟩,
          .declared ⟨"models", "Receipt"⟩, .builtin "vault :: Card"] := by
  have happended : closedShop.GlobAppended openShop "shop"
      ["crate", "models"] :=
    Crate.globAppended_ofSources (shopSources shopItems).dropLast
      ⟨"shop", "src/shop.rs", shopItems⟩ openModels rfl
      (List.forall_mem_nil _)
  exact ⟨happended, (globs_fill_gaps {} happended).1, by decide +kernel,
    by decide +kernel⟩

/-! ## Names and modules behind globs -/

namespace Crate

variable {crate : Crate} {package : Package}

/-- The package that a name at the start of a path stands for when it is not
imported: a module inside the package where it is written, or one that is
mounted under the name. -/
def moduleNamed? (crate : Crate) (package : Package) (name : String) :
    Option Package :=
  if crate.hasPackage (package.child name) then some (package.child name)
  else if crate.hasPackage name then some name
  else none

theorem reference_globbed {name : String}
    (hunknown : crate.knows ⟨package, name⟩ = false)
    (hfree : crate.imported? package name = none) :
    crate.reference package false [name] =
      match crate.globbed? package name with
      | some id => .item id
      | none => .unknown := by
  cases hglobbed : crate.globbed? package name <;>
    simp [reference, hunknown, hfree, hglobbed]

theorem reference_in_module {module : String} (hmodule : module ∉ anchors)
    (hfree : crate.imported? package module = none) (name : String) :
    crate.reference package false [module, name] =
      match crate.moduleNamed? package module with
      | some found => .item ⟨found, name⟩
      | none => .foreign := by
  have hlead : Package.ofSegments [module] = module :=
    String.intercalate_singleton
  by_cases hchild : crate.hasPackage (package.child module) = true
  · simp [reference_child hmodule hchild hfree, moduleNamed?, hchild]
  · by_cases hroot : crate.hasPackage module = true <;>
      simp [reference, hfree, ofAbsolute, absolute?, moduleNamed?,
        anchored?_of_not_mem hmodule, hlead, hchild, hroot]

end Crate

/-- Glob imports bring in single names and no modules.  A name that is neither
an item of its package nor imported is the first one that a glob brings in,
and unresolved when none does.  A module that is not imported is one inside
the package or one that is mounted under its name; any other one, whatever the
globs of the package open, is taken for a module of another crate. -/
theorem globs_bring_in_names_only (config : Config) {crate : Crate}
    (written : WrittenField crate) :
    (∀ name arguments,
      written.field.type = .path false [.mk name arguments] →
      isBuiltinPath written.params false [.mk name arguments] = false →
      crate.knows ⟨written.package, name⟩ = false →
      crate.imported? written.package name = none →
      written.type? config =
        some ((match crate.globbed? written.package name with
          | some id => crate.settle synonymLimit (.item id)
          | none => .unknown).fieldType written.field.type.render)) ∧
    ∀ module name outer inner,
      written.field.type = .path false [.mk module outer, .mk name inner] →
      module ∉ anchors → module ∉ standardRoots →
      crate.imported? written.package module = none →
      written.type? config =
        some ((match crate.moduleNamed? written.package module with
          | some found => crate.settle synonymLimit (.item ⟨found, name⟩)
          | none => .foreign).fieldType written.field.type.render) := by
  constructor
  · intro name arguments htype hbuiltin hunknown hfree
    have hreference := Crate.reference_globbed hunknown hfree
    have hnames : [Segment.mk name arguments].map Segment.name = [name] := rfl
    rw [written.type?_eq, htype, fieldType_path, hbuiltin, hnames,
      Crate.target_eq_settle, hreference]
    cases crate.globbed? written.package name <;> rfl
  · intro module name outer inner htype hmodule hroot hfree
    have hbuiltin : isBuiltinPath written.params false
        [.mk module outer, .mk name inner] = false := by
      simpa [isBuiltinPath, Segment.name] using hroot
    have hreference := Crate.reference_in_module hmodule hfree name
    have hnames : [Segment.mk module outer, .mk name inner].map Segment.name =
        [module, name] := rfl
    rw [written.type?_eq, htype, fieldType_path, hbuiltin, hnames,
      Crate.target_eq_settle, hreference]
    cases crate.moduleNamed? written.package module <;> rfl

namespace SampleSources

/-- A field of the purchase in the shop that opens the models. -/
def purchaseField (index : Nat)
    (hindex : index < purchase.fields.toList.length) :
    WrittenField openShop :=
  .ofRecord ⟨"shop", "src/shop.rs", .record purchase⟩
    (List.mem_of_getElem? (i := 4) rfl) rfl index hindex

end SampleSources

open SampleSources in
/-- The receipt is found behind the glob.  The card stays closed, though the
glob opens the package whose module declares it. -/
theorem openShop_card_stays_closed :
    openShop.globsOf "shop" = [["crate", "models"]] ∧
      openShop.knows ⟨"shop", "Receipt"⟩ = false ∧
      openShop.imported? "shop" "Receipt" = none ∧
      (purchaseField 1 (by decide)).type? {} =
        some (.declared ⟨"models", "Receipt"⟩) ∧
      openShop.declares ⟨"models::vault", "Card"⟩ = true ∧
      openShop.imported? "shop" "vault" = none ∧
      openShop.moduleNamed? "shop" "vault" = none ∧
      (purchaseField 3 (by decide)).type? {} =
        some (.builtin "vault :: Card") := by
  have hunknown : openShop.knows ⟨"shop", "Receipt"⟩ = false := by
    decide +kernel
  have hfree : openShop.imported? "shop" "Receipt" = none := by
    decide +kernel
  have hreceipt := (globs_bring_in_names_only {}
    (purchaseField 1 (by decide))).1 "Receipt" .none rfl (by decide +kernel)
      hunknown hfree
  have hvault : openShop.imported? "shop" "vault" = none := by
    decide +kernel
  have hmodule : openShop.moduleNamed? "shop" "vault" = none := by
    decide +kernel
  have hcard := (globs_bring_in_names_only {}
    (purchaseField 3 (by decide))).2 "vault" "Card" .none .none rfl
      (by decide) (by decide) hvault
  refine ⟨by decide +kernel, hunknown, hfree, ?_, by decide +kernel, hvault,
    hmodule, ?_⟩
  · rw [hreceipt]
    decide +kernel
  · rw [hcard]
    decide +kernel

end Source

end RecordMasking

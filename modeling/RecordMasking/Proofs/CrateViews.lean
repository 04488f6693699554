import Mathlib.Data.List.Perm.Basic
import RecordMasking.Source.SourceSchema

/-!
# What a schema sees of a crate

The schema of a crate looks at an item as a view of it, in which nothing is
left of the places in the text, and at the items of a package in their order.
Two crates with the same packages agree when every package has the same views
in both.  Whatever is looked up in a crate is looked up among the items of one
package, so crates that agree have the same schema but for locations and for
the order of the packages.
-/

namespace RecordMasking

def Field.unlocated (field : Field) : Field :=
  { field with location := none }

/-- A declaration without the places it was read at. -/
def Declaration.unlocated (declaration : Declaration) : Declaration :=
  { declaration with
    fields := declaration.fields.map Field.unlocated
    location := none }

namespace Code

/-! ## Views -/

structure AttributeView where
  rooted : Bool
  path : List String
  /-- What the attribute lists, as a derive does. -/
  listed : List String

def AttributeForm.listed : AttributeForm → List String
  | .list _ arguments => listedNames arguments
  | _ => []

def Attribute.view (attr : Attribute) : AttributeView where
  rooted := attr.rooted
  path := attr.path
  listed := attr.form.listed

def AttributeView.isNamed (attr : AttributeView) (name : String) : Bool :=
  !attr.rooted && attr.path == [name]

structure FieldView where
  attributes : List AttributeView
  visibility : Visibility
  name : Option String
  type : TypeExpr

def FieldItem.view (field : FieldItem) : FieldView where
  attributes := field.attributes.map Attribute.view
  visibility := field.visibility
  name := field.name
  type := field.type

structure RecordView where
  attributes : List AttributeView
  name : String
  generics : Generics
  fields : List FieldView

def RecordItem.view (item : RecordItem) : RecordView where
  attributes := item.attributes.map Attribute.view
  name := item.name
  generics := item.generics
  fields := item.fields.toList.map FieldItem.view

/-- An item without the places in its text.  Only records and modules have
any. -/
inductive ItemView where
  | record (record : RecordView)
  | mounted (name : String) (items : List ItemView)
  | plain (item : Item)

mutual

def Item.view : Item → ItemView
  | .record item => .record item.view
  | .mounted name items => .mounted name (Item.views items)
  | item => .plain item

def Item.views : List Item → List ItemView
  | [] => []
  | item :: rest => item.view :: Item.views rest

end

end Code

namespace Source

open Code

structure PlacedView where
  package : Package
  item : ItemView

def Placed.view (placed : Placed) : PlacedView where
  package := placed.package
  item := placed.item.view

/-- A property of placed items that their views decide. -/
def SeenIn {α : Type} (read : Placed → α) : Prop :=
  ∀ one next : Placed, one.view = next.view → read one = read next

theorem SeenIn.map_eq {α : Type} {read : Placed → α} (hseen : SeenIn read)
    {ones others : List Placed}
    (hviews : ones.map Placed.view = others.map Placed.view) :
    ones.map read = others.map read := by
  induction ones generalizing others with
  | nil =>
      rw [List.map_nil, eq_comm, List.map_eq_nil_iff] at hviews
      rw [hviews]
  | cons one rest ih =>
      cases others with
      | nil => simp at hviews
      | cons next behind =>
          rw [List.map_cons, List.map_cons, List.cons.injEq] at hviews
          rw [List.map_cons, List.map_cons, hseen one next hviews.1,
            ih hviews.2]

theorem SeenIn.filterMap_eq {α : Type} {read : Placed → Option α}
    (hseen : SeenIn read) {ones others : List Placed}
    (hviews : ones.map Placed.view = others.map Placed.view) :
    ones.filterMap read = others.filterMap read := by
  have hmap := congrArg (List.filterMap id) (hseen.map_eq hviews)
  simpa [List.filterMap_map] using hmap

theorem SeenIn.any_eq {read : Placed → Bool} (hseen : SeenIn read)
    {ones others : List Placed}
    (hviews : ones.map Placed.view = others.map Placed.view) :
    ones.any read = others.any read := by
  have hmap := congrArg (List.any · id) (hseen.map_eq hviews)
  simpa [List.any_map] using hmap

/-! ## What views decide -/

theorem eq_of_view_eq_plain {item plain : Item}
    (hview : item.view = .plain plain) : item = plain := by
  cases item with
  | record => simp [Item.view] at hview
  | mounted => simp [Item.view] at hview
  | _ => simpa [Item.view] using hview

/-- Items with the same view are records with the same view, modules, or the
same item. -/
theorem view_cases {one next : Item} (hview : one.view = next.view) :
    (∃ left right, one = .record left ∧ next = .record right ∧
        left.view = right.view) ∨
      (∃ name left right, one = .mounted name left ∧
        next = .mounted name right) ∨
      one = next := by
  cases one with
  | record left =>
      cases next with
      | record right =>
          rw [Item.view, Item.view, ItemView.record.injEq] at hview
          exact .inl ⟨left, right, rfl, rfl, hview⟩
      | _ => simp [Item.view] at hview
  | mounted name left =>
      cases next with
      | mounted again right =>
          rw [Item.view, Item.view, ItemView.mounted.injEq] at hview
          obtain ⟨rfl, _⟩ := hview
          exact .inr (.inl ⟨name, left, right, rfl, rfl⟩)
      | _ => simp [Item.view] at hview
  | _ => exact .inr (.inr (eq_of_view_eq_plain hview.symm).symm)

/-- What is read off a placed item is seen in its view when records with the
same view agree and modules are passed over. -/
theorem seenIn_of_cases {α : Type} {read : Placed → α} {passed : α}
    (hfile : ∀ package file label item,
      read ⟨package, file, item⟩ = read ⟨package, label, item⟩)
    (hrecord : ∀ package file (left right : RecordItem),
      left.view = right.view →
      read ⟨package, file, .record left⟩ = read ⟨package, file, .record right⟩)
    (hmounted : ∀ package file name items,
      read ⟨package, file, .mounted name items⟩ = passed) : SeenIn read := by
  rintro ⟨package, file, one⟩ ⟨again, label, next⟩ hview
  obtain ⟨hpackage, hitem⟩ := PlacedView.mk.inj hview
  obtain rfl : package = again := hpackage
  rw [hfile package file label one]
  rcases view_cases hitem with
    ⟨left, right, rfl, rfl, hrecords⟩ | ⟨name, left, right, rfl, rfl⟩ | rfl
  · exact hrecord package label left right hrecords
  · rw [hmounted, hmounted]
  · rfl

theorem derivedNames_eq (attributes : List Attribute) :
    derivedNames attributes =
      (attributes.map Attribute.view).flatMap fun attr =>
        if attr.isNamed "derive" then attr.listed else [] := by
  rw [List.flatMap_map]
  refine List.flatMap_congr fun attr _ => ?_
  show (if attr.isNamed "derive" then _ else _) =
    if attr.isNamed "derive" then attr.form.listed else []
  split
  · cases attr.form <;> rfl
  · rfl

theorem derivedNames_eq_of_views {one next : List Attribute}
    (hviews : one.map Attribute.view = next.map Attribute.view) :
    derivedNames one = derivedNames next := by
  rw [derivedNames_eq, hviews, ← derivedNames_eq]

theorem seenIn_recordId? : SeenIn Placed.recordId? :=
  seenIn_of_cases (fun _ _ _ _ => rfl)
    (fun package _ left right hview => by
      have hname : left.name = right.name := congrArg RecordView.name hview
      show some (QualifiedName.mk package left.name) =
        some (QualifiedName.mk package right.name)
      rw [hname])
    fun _ _ _ _ => rfl

theorem seenIn_closedId? : SeenIn Placed.closedId? :=
  seenIn_of_cases (fun _ _ _ _ => rfl) (fun _ _ _ _ _ => rfl)
    fun _ _ _ _ => rfl

theorem seenIn_synonym? : SeenIn Placed.synonym? :=
  seenIn_of_cases (fun _ _ _ _ => rfl) (fun _ _ _ _ _ => rfl)
    fun _ _ _ _ => rfl

theorem seenIn_imports : SeenIn Placed.imports :=
  seenIn_of_cases (fun _ _ _ _ => rfl) (fun _ _ _ _ _ => rfl)
    fun _ _ _ _ => rfl

theorem seenIn_implementation? : SeenIn Placed.implementation? :=
  seenIn_of_cases (fun _ _ _ _ => rfl) (fun _ _ _ _ _ => rfl)
    fun _ _ _ _ => rfl

theorem seenIn_mentions (marker : String) :
    SeenIn (Placed.mentions marker) :=
  seenIn_of_cases (fun _ _ _ _ => rfl)
    (fun _ _ left right hview => by
      show (derivedNames left.attributes).contains marker =
        (derivedNames right.attributes).contains marker
      rw [derivedNames_eq_of_views (congrArg RecordView.attributes hview)])
    fun _ _ _ _ => rfl

/-! ## Looking up in one package -/

theorem any_itemsOf (crate : Crate) {package : Package}
    {chosen : Placed → Bool}
    (hchosen : ∀ placed, chosen placed = true → placed.package = package) :
    (crate.itemsOf package).any chosen = crate.items.any chosen := by
  rw [Crate.itemsOf, List.any_filter]
  congr 1
  funext placed
  cases hplaced : chosen placed with
  | true => simp [hchosen placed hplaced]
  | false => simp

theorem find?_itemsOf {β : Type} (crate : Crate) {package : Package}
    {read : Placed → Option β} {chosen : β → Bool}
    (hchosen : ∀ placed value, read placed = some value →
      chosen value = true → placed.package = package) :
    ((crate.itemsOf package).filterMap read).reverse.find? chosen =
      (crate.items.filterMap read).reverse.find? chosen := by
  rw [Crate.itemsOf, ← List.filterMap_reverse, ← List.filterMap_reverse,
    ← List.filter_reverse]
  generalize crate.items.reverse = items
  induction items with
  | nil => rfl
  | cons placed rest ih =>
      cases hread : read placed with
      | none =>
          rw [List.filterMap_cons_none hread, ← ih, List.filter_cons]
          split
          · rw [List.filterMap_cons_none hread]
          · rfl
      | some value =>
          rw [List.filterMap_cons_some hread, List.filter_cons]
          cases hvalue : chosen value with
          | true =>
              have hpackage := hchosen placed value hread hvalue
              simp [hpackage, List.filterMap_cons_some hread, hvalue]
          | false =>
              rw [List.find?_cons_of_neg (by simp [hvalue]), ← ih]
              split
              · rw [List.filterMap_cons_some hread,
                  List.find?_cons_of_neg (by simp [hvalue])]
              · rfl

/-! ## Crates that agree -/

/-- Two crates with the same packages and, but for places in the text, the
same items in each of them. -/
structure Crate.Agrees (one next : Crate) : Prop where
  packages : ∀ package, one.hasPackage package = next.hasPackage package
  items : ∀ package,
    (one.itemsOf package).map Placed.view =
      (next.itemsOf package).map Placed.view

namespace Crate.Agrees

variable {one next : Crate} (hagrees : one.Agrees next)

include hagrees

theorem symm : next.Agrees one :=
  ⟨fun package => (hagrees.packages package).symm,
    fun package => (hagrees.items package).symm⟩

theorem trans {last : Crate} (hlast : next.Agrees last) : one.Agrees last :=
  ⟨fun package => (hagrees.packages package).trans (hlast.packages package),
    fun package => (hagrees.items package).trans (hlast.items package)⟩

theorem declares_eq (id : QualifiedName) :
    one.declares id = next.declares id := by
  have hpackage : ∀ placed : Placed,
      (placed.recordId? == some id) = true → placed.package = id.package := by
    intro placed hid
    obtain ⟨item, _, rfl⟩ := Option.map_eq_some_iff.mp (beq_iff_eq.mp hid)
    rfl
  unfold declares
  rw [← any_itemsOf one hpackage, ← any_itemsOf next hpackage]
  refine SeenIn.any_eq (fun left right hview => ?_) (hagrees.items id.package)
  rw [seenIn_recordId? left right hview]

theorem closes_eq (id : QualifiedName) : one.closes id = next.closes id := by
  have hpackage : ∀ placed : Placed,
      (placed.closedId? == some id) = true → placed.package = id.package := by
    intro placed hid
    have hclosed := beq_iff_eq.mp hid
    unfold Placed.closedId? at hclosed
    split at hclosed
    next => rw [← Option.some.inj hclosed]
    next => simp at hclosed
  unfold closes
  rw [← any_itemsOf one hpackage, ← any_itemsOf next hpackage]
  refine SeenIn.any_eq (fun left right hview => ?_) (hagrees.items id.package)
  rw [seenIn_closedId? left right hview]

theorem synonym?_eq (id : QualifiedName) :
    one.synonym? id = next.synonym? id := by
  have hpackage : ∀ (placed : Placed) entry, placed.synonym? = some entry →
      (entry.1 == id) = true → placed.package = id.package := by
    intro placed entry hsynonym hid
    unfold Placed.synonym? at hsynonym
    split at hsynonym
    next =>
      rw [← Option.some.inj hsynonym] at hid
      rw [← beq_iff_eq.mp hid]
    next => simp at hsynonym
  unfold synonym?
  rw [← find?_itemsOf one hpackage, ← find?_itemsOf next hpackage,
    seenIn_synonym?.filterMap_eq (hagrees.items id.package)]

theorem importsOf_eq (package : Package) :
    one.importsOf package = next.importsOf package := by
  unfold importsOf
  rw [List.flatMap, List.flatMap,
    seenIn_imports.map_eq (hagrees.items package)]

theorem imported?_eq (package : Package) (name : String) :
    one.imported? package name = next.imported? package name := by
  unfold imported?
  rw [hagrees.importsOf_eq]

theorem globsOf_eq (package : Package) :
    one.globsOf package = next.globsOf package := by
  unfold globsOf
  rw [hagrees.importsOf_eq]

theorem traitsOf_eq (package : Package) (self : String) :
    one.traitsOf package self = next.traitsOf package self := by
  unfold traitsOf
  rw [seenIn_implementation?.filterMap_eq (hagrees.items package)]

theorem mentions_of_mentions {marker : String}
    (hmentions : one.mentions marker = true) :
    next.mentions marker = true := by
  obtain ⟨placed, hplaced, hmention⟩ := List.any_eq_true.mp hmentions
  have hone : (one.itemsOf placed.package).any (Placed.mentions marker) =
      true :=
    List.any_eq_true.mpr
      ⟨placed, List.mem_filter.mpr ⟨hplaced, by simp⟩, hmention⟩
  rw [(seenIn_mentions marker).any_eq (hagrees.items placed.package)] at hone
  obtain ⟨found, hfound, hmention⟩ := List.any_eq_true.mp hone
  exact List.any_eq_true.mpr
    ⟨found, (List.mem_filter.mp hfound).1, hmention⟩

theorem mentions_eq (marker : String) :
    one.mentions marker = next.mentions marker := by
  rw [Bool.eq_iff_iff]
  exact ⟨hagrees.mentions_of_mentions, hagrees.symm.mentions_of_mentions⟩

/-! ## What paths name -/

theorem knows_eq (id : QualifiedName) : one.knows id = next.knows id := by
  unfold knows
  rw [hagrees.declares_eq, hagrees.closes_eq, hagrees.synonym?_eq]

theorem absolute?_eq (current : Package) (path : List String) :
    one.absolute? current path = next.absolute? current path := by
  unfold absolute?
  simp only [hagrees.packages]

theorem globbed?_eq (package : Package) (name : String) :
    one.globbed? package name = next.globbed? package name := by
  unfold globbed?
  rw [hagrees.globsOf_eq, funext hagrees.knows_eq]
  simp only [hagrees.absolute?_eq]

theorem reference_eq (package : Package) (rooted : Bool)
    (path : List String) :
    one.reference package rooted path = next.reference package rooted path := by
  unfold reference ofAbsolute
  simp only [hagrees.knows_eq, hagrees.imported?_eq, hagrees.absolute?_eq,
    hagrees.globbed?_eq]

theorem target_eq (synonyms : Nat) (package : Package) (rooted : Bool)
    (path : List String) :
    one.target synonyms package rooted path =
      next.target synonyms package rooted path := by
  induction synonyms generalizing package rooted path with
  | zero =>
      unfold target
      simp only [hagrees.reference_eq, hagrees.declares_eq, hagrees.closes_eq,
        hagrees.synonym?_eq]
  | succ left ih =>
      unfold target
      simp only [hagrees.reference_eq, hagrees.declares_eq, hagrees.closes_eq,
        hagrees.synonym?_eq, ih]

theorem fieldType_eq (package : Package) (params : List String)
    (type : TypeExpr) :
    fieldType one package params type = fieldType next package params type := by
  unfold fieldType
  simp only [hagrees.target_eq]

end Crate.Agrees

/-! ## Declarations from views -/

def FieldView.field (config : Config) (crate : Crate) (package : Package)
    (params : List String) (index : Nat) (view : FieldView) : Field where
  name :=
    match view.name with
    | some text => .named text
    | none => .position index
  type := fieldType crate package params view.type
  sensitive :=
    view.attributes.any fun attr => attr.isNamed config.sensitiveAttribute
  visibleIn := visibleIn package view.visibility

theorem fieldOf_unlocated (config : Config) (crate : Crate) (placed : Placed)
    (params : List String) (index : Nat) (item : FieldItem) :
    (fieldOf config crate placed params index item).unlocated =
      FieldView.field config crate placed.package params index item.view := by
  have hsensitive : isSensitive config.sensitiveAttribute item =
      item.view.attributes.any fun attr =>
        attr.isNamed config.sensitiveAttribute := by
    unfold isSensitive FieldItem.view
    rw [List.any_map]
    rfl
  unfold fieldOf Field.unlocated FieldView.field
  rw [hsensitive]
  rfl

def RecordView.declaration (config : Config) (crate : Crate)
    (package : Package) (view : RecordView) : Declaration where
  id := ⟨package, view.name⟩
  fields :=
    view.fields.mapIdx
      (FieldView.field config crate package view.generics.valueNames)
  supertypes :=
    sortedNames
      ((view.attributes.flatMap fun attr =>
          if attr.isNamed "derive" then attr.listed else []) ++
        crate.traitsOf package view.name)
  generics := view.generics.valueNames
  lifetimes := view.generics.lifetimes.map fun name => "'" ++ name

theorem declarationOf_unlocated (config : Config) (crate : Crate)
    (placed : Placed) (item : RecordItem) :
    (declarationOf config crate placed item).unlocated =
      RecordView.declaration config crate placed.package item.view := by
  unfold declarationOf Declaration.unlocated RecordView.declaration
  rw [derivedNames_eq]
  congr 1
  refine List.ext_getElem? fun index => ?_
  simp only [RecordItem.view, List.getElem?_map, List.getElem?_mapIdx,
    Option.map_map]
  congr 1
  funext field
  exact fieldOf_unlocated config crate placed _ index field

def PlacedView.declaration? (config : Config) (crate : Crate)
    (view : PlacedView) : Option Declaration :=
  match view.item with
  | .record record =>
      some (RecordView.declaration config crate view.package record)
  | _ => none

theorem declaration?_view (config : Config) (crate : Crate)
    (placed : Placed) :
    (placed.record?.map (declarationOf config crate placed)).map
        Declaration.unlocated =
      placed.view.declaration? config crate := by
  obtain ⟨package, file, item⟩ := placed
  cases item with
  | record item =>
      exact congrArg some (declarationOf_unlocated config crate _ item)
  | _ => rfl

theorem declarations_unlocated (config : Config) (crate : Crate) :
    (declarations config crate).map Declaration.unlocated =
      (crate.items.map Placed.view).filterMap
        (PlacedView.declaration? config crate) := by
  unfold declarations
  rw [List.map_filterMap, List.filterMap_map]
  refine List.filterMap_congr fun placed _ => ?_
  exact declaration?_view config crate placed

theorem lookup_unlocated (config : Config) (crate : Crate)
    (id : QualifiedName) :
    ((schemaOf config crate).lookup id).map Declaration.unlocated =
      (((crate.itemsOf id.package).map Placed.view).filterMap
        (PlacedView.declaration? config crate)).reverse.find?
          fun declaration => declaration.id == id := by
  have hpackage : ∀ (placed : Placed) declaration,
      (placed.record?.map (declarationOf config crate placed)).map
        Declaration.unlocated = some declaration →
      (declaration.id == id) = true → placed.package = id.package := by
    intro placed declaration hread hid
    rw [Option.map_map] at hread
    obtain ⟨item, _, rfl⟩ := Option.map_eq_some_iff.mp hread
    rw [← beq_iff_eq.mp hid]
    rfl
  have hfound := find?_itemsOf crate hpackage
  have hviews : (((crate.itemsOf id.package).map Placed.view).filterMap
      (PlacedView.declaration? config crate)) =
        (crate.itemsOf id.package).filterMap fun placed =>
          (placed.record?.map (declarationOf config crate placed)).map
            Declaration.unlocated := by
    rw [List.filterMap_map]
    exact List.filterMap_congr fun placed _ =>
      (declaration?_view config crate placed).symm
  rw [hviews, hfound, ← List.map_filterMap, ← List.map_reverse,
    List.find?_map]
  rfl

end Source

/-- The same declarations, but for their order and their locations. -/
structure Schema.Matches (one next : Schema) : Prop where
  declarations :
    (one.declarations.map Declaration.unlocated).Perm
      (next.declarations.map Declaration.unlocated)
  lookup : ∀ id,
    (one.lookup id).map Declaration.unlocated =
      (next.lookup id).map Declaration.unlocated
  marker : one.marker = next.marker
  markerResolved : one.markerResolved = next.markerResolved

namespace Source

namespace Crate.Agrees

variable {one next : Crate} (hagrees : one.Agrees next)

include hagrees

theorem declaration?_eq (config : Config) :
    PlacedView.declaration? config one =
      PlacedView.declaration? config next := by
  funext view
  unfold PlacedView.declaration? RecordView.declaration FieldView.field
  simp only [hagrees.fieldType_eq, hagrees.traitsOf_eq]

open Classical in
/-- The items of crates that agree are the same, package by package. -/
theorem views_perm :
    (one.items.map Placed.view).Perm (next.items.map Placed.view) := by
  have hcount : ∀ (crate : Crate) (view : PlacedView),
      (crate.items.map Placed.view).count view =
        ((crate.itemsOf view.package).map Placed.view).count view := by
    intro crate view
    have hfilter : (crate.itemsOf view.package).map Placed.view =
        (crate.items.map Placed.view).filter fun found =>
          found.package == view.package := by
      rw [List.filter_map]
      rfl
    rw [hfilter, List.count_filter (by simp)]
  rw [List.perm_iff_count]
  intro view
  rw [hcount one view, hcount next view, hagrees.items view.package]

theorem schema_matches (config : Config) :
    (schemaOf config one).Matches (schemaOf config next) where
  declarations := by
    show ((declarations config one).map Declaration.unlocated).Perm
      ((declarations config next).map Declaration.unlocated)
    rw [declarations_unlocated, declarations_unlocated,
      hagrees.declaration?_eq config]
    exact hagrees.views_perm.filterMap _
  lookup id := by
    rw [lookup_unlocated, lookup_unlocated, hagrees.declaration?_eq config,
      hagrees.items id.package]
  marker := rfl
  markerResolved := hagrees.mentions_eq config.modelMarker

end Crate.Agrees

end Source

end RecordMasking

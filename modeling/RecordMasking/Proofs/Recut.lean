import Mathlib.Data.List.Forall2
import Mathlib.Logic.Relation
import RecordMasking.Proofs.CrateViews
import RecordMasking.Source.SampleSources

/-!
# Cutting a crate into sources

A crate can be cut into sources in many ways: sources come in some order, a
module is written out where it is declared or in a source of its own, and the
text around an item decides at which place it stands.  As long as no two
sources have items in the same package, every cut gives crates that agree, and
with them the same schema.
-/

namespace RecordMasking.Source

open Code

namespace MountedSource

/-- The items of a source with their packages. -/
def placed (source : MountedSource) : List Placed :=
  Crate.placedItems source.package source.file source.items

/-- The packages at which a source mounts something. -/
def mounts (source : MountedSource) : List Package :=
  source.package :: Crate.packagesOfItems source.package source.items

/-- The packages in which a source has items. -/
def contributes (source : MountedSource) : List Package :=
  source.placed.map Placed.package

/-- The items of a source that stand in a package. -/
def itemsIn (source : MountedSource) (package : Package) : List Placed :=
  source.placed.filter fun placed => placed.package == package

end MountedSource

/-- No two sources have items in the same package. -/
def Separate (sources : List MountedSource) : Prop :=
  sources.Pairwise fun one next => one.contributes.Disjoint next.contributes

/-! ## Recutting -/

/-- A module is cut out of items that are mounted at a package: the items
before and after, the package of the module and the items inside it. -/
inductive CutOut :
    Package → List Item → List Item → Package → List Item → Prop
  | here {package : Package} {name : String} {before after inner : List Item} :
      CutOut package (before ++ .mounted name inner :: after)
        (before ++ after) (package.child name) inner
  | inside {package mounted : Package} {name : String}
      {before after body rest inner : List Item}
      (hcut : CutOut (package.child name) body rest mounted inner) :
      CutOut package (before ++ .mounted name body :: after)
        (before ++ .mounted name rest :: after) mounted inner

/-- The same items at the same package, wherever they stand in a text. -/
def SameItems (one next : MountedSource) : Prop :=
  one.package = next.package ∧ Item.views one.items = Item.views next.items

/-- A change of the sources that the items of a crate survive. -/
inductive Recut : List MountedSource → List MountedSource → Prop
  | reordered {one next : List MountedSource} (hperm : one.Perm next) :
      Recut one next
  | rewritten {one next : List MountedSource}
      (hsame : List.Forall₂ SameItems one next) : Recut one next
  | cutOut {before after : List MountedSource} {source : MountedSource}
      {rest inner : List Item} {mounted : Package} {file : String}
      (hcut : CutOut source.package source.items rest mounted inner) :
      Recut (before ++ source :: after)
        (before ++ { source with items := rest } :: ⟨mounted, file, inner⟩ ::
          after)

/-! ## Crates by sources -/

theorem itemsOf_ofSources (sources : List MountedSource) (package : Package) :
    (Crate.ofSources sources).itemsOf package =
      sources.flatMap fun source => source.itemsIn package := by
  show (sources.flatMap MountedSource.placed).filter _ = _
  rw [List.filter_flatMap]
  rfl

theorem hasPackage_ofSources (sources : List MountedSource)
    (package : Package) :
    (Crate.ofSources sources).hasPackage package = true ↔
      ∃ source ∈ sources, package ∈ source.mounts := by
  show (sources.flatMap MountedSource.mounts).contains package = true ↔ _
  rw [List.contains_iff_mem, List.mem_flatMap]

theorem agrees_of_mounts {one next : List MountedSource}
    (hmounts : ∀ package, (∃ source ∈ one, package ∈ source.mounts) ↔
      ∃ source ∈ next, package ∈ source.mounts)
    (hitems : ∀ package,
      (one.flatMap fun source => source.itemsIn package).map Placed.view =
        (next.flatMap fun source => source.itemsIn package).map
          Placed.view) :
    (Crate.ofSources one).Agrees (Crate.ofSources next) where
  packages package := by
    rw [Bool.eq_iff_iff, hasPackage_ofSources, hasPackage_ofSources]
    exact hmounts package
  items package := by
    rw [itemsOf_ofSources, itemsOf_ofSources]
    exact hitems package

theorem itemsIn_eq_nil_iff {source : MountedSource} {package : Package} :
    source.itemsIn package = [] ↔ package ∉ source.contributes := by
  unfold MountedSource.itemsIn MountedSource.contributes
  rw [List.filter_eq_nil_iff, List.mem_map]
  simp only [beq_iff_eq, not_exists, not_and]

/-- Of two sources without a common package one has nothing in a package. -/
theorem itemsIn_eq_nil_of_disjoint {one next : MountedSource}
    (hdisjoint : one.contributes.Disjoint next.contributes)
    (package : Package) :
    one.itemsIn package = [] ∨ next.itemsIn package = [] := by
  rw [itemsIn_eq_nil_iff, itemsIn_eq_nil_iff]
  by_cases hone : package ∈ one.contributes
  · exact .inr (hdisjoint hone)
  · exact .inl hone

/-! ## The order of sources -/

theorem flatMap_eq_of_perm {α β : Type} {part : α → List β}
    {one next : List α} (hperm : one.Perm next)
    (halone : one.Pairwise fun left right => part left = [] ∨ part right = []) :
    one.flatMap part = next.flatMap part := by
  induction hperm with
  | nil => rfl
  | cons item _ ih =>
      rw [List.flatMap_cons, List.flatMap_cons,
        ih (List.pairwise_cons.mp halone).2]
  | swap left right rest =>
      have hpair := (List.pairwise_cons.mp halone).1 left List.mem_cons_self
      simp only [List.flatMap_cons]
      rcases hpair with hempty | hempty
      · simp [hempty]
      · simp [hempty]
  | trans hfirst _ ihfirst ihsecond =>
      rw [ihfirst halone]
      exact ihsecond (hfirst.pairwise halone fun hpair => hpair.symm)

theorem Separate.perm {one next : List MountedSource} (hperm : one.Perm next)
    (hseparate : Separate next) : Separate one :=
  hperm.symm.pairwise hseparate fun hpair _ hnext hone => hpair hone hnext

theorem agrees_of_perm {one next : List MountedSource}
    (hperm : one.Perm next) (hseparate : Separate one) :
    (Crate.ofSources one).Agrees (Crate.ofSources next) := by
  apply agrees_of_mounts
  · intro package
    simp only [hperm.mem_iff]
  · intro package
    rw [flatMap_eq_of_perm hperm]
    exact hseparate.imp fun hdisjoint =>
      itemsIn_eq_nil_of_disjoint hdisjoint package

/-! ## The text around the items -/

mutual

theorem placedItem_views (package : Package) (file label : String) :
    ∀ {one next : Item}, one.view = next.view →
      (Crate.placedItem package file one).map Placed.view =
          (Crate.placedItem package label next).map Placed.view ∧
        Crate.packagesOfItem package one = Crate.packagesOfItem package next
  | .mounted name body, next, hview => by
      cases next with
      | mounted again other =>
          rw [Item.view, Item.view, ItemView.mounted.injEq] at hview
          obtain ⟨rfl, hbody⟩ := hview
          obtain ⟨hplaced, hpackages⟩ :=
            placedItems_views (package.child name) file label hbody
          exact ⟨hplaced, congrArg (package.child name :: ·) hpackages⟩
      | _ => simp [Item.view] at hview
  | .record item, next, hview => by
      cases next with
      | record other => exact ⟨by simpa [Crate.placedItem, Placed.view], rfl⟩
      | _ => simp [Item.view] at hview
  | .closed name, next, hview => by
      obtain rfl := eq_of_view_eq_plain hview.symm
      exact ⟨rfl, rfl⟩
  | .synonym name generics target, next, hview => by
      obtain rfl := eq_of_view_eq_plain hview.symm
      exact ⟨rfl, rfl⟩
  | .imports tree, next, hview => by
      obtain rfl := eq_of_view_eq_plain hview.symm
      exact ⟨rfl, rfl⟩
  | .implementation trait self, next, hview => by
      obtain rfl := eq_of_view_eq_plain hview.symm
      exact ⟨rfl, rfl⟩
  | .other, next, hview => by
      obtain rfl := eq_of_view_eq_plain hview.symm
      exact ⟨rfl, rfl⟩

theorem placedItems_views (package : Package) (file label : String) :
    ∀ {ones nexts : List Item}, Item.views ones = Item.views nexts →
      (Crate.placedItems package file ones).map Placed.view =
          (Crate.placedItems package label nexts).map Placed.view ∧
        Crate.packagesOfItems package ones =
          Crate.packagesOfItems package nexts
  | [], nexts, hviews => by
      cases nexts with
      | nil => exact ⟨rfl, rfl⟩
      | cons => simp [Item.views] at hviews
  | one :: ones, nexts, hviews => by
      cases nexts with
      | nil => simp [Item.views] at hviews
      | cons next nexts =>
          rw [Item.views, Item.views, List.cons.injEq] at hviews
          obtain ⟨hplaced, hpackages⟩ :=
            placedItem_views package file label hviews.1
          obtain ⟨hothers, hrest⟩ :=
            placedItems_views package file label hviews.2
          simp only [Crate.placedItems, Crate.packagesOfItems,
            List.map_append, hplaced, hpackages, hothers, hrest,
            and_self]

end

namespace SameItems

variable {one next : MountedSource} (hsame : SameItems one next)

include hsame

theorem placed_views :
    one.placed.map Placed.view = next.placed.map Placed.view := by
  unfold MountedSource.placed
  rw [hsame.1]
  exact (placedItems_views next.package one.file next.file hsame.2).1

theorem mounts_eq : one.mounts = next.mounts := by
  unfold MountedSource.mounts
  rw [hsame.1, (placedItems_views next.package "" "" hsame.2).2]

theorem contributes_eq : one.contributes = next.contributes := by
  have hpackages := congrArg (List.map PlacedView.package) hsame.placed_views
  rw [List.map_map, List.map_map] at hpackages
  exact hpackages

theorem itemsIn_views (package : Package) :
    (one.itemsIn package).map Placed.view =
      (next.itemsIn package).map Placed.view := by
  have hviews := congrArg
    (List.filter fun view => view.package == package) hsame.placed_views
  rw [List.filter_map, List.filter_map] at hviews
  exact hviews

end SameItems

theorem Separate.of_sameItems {one next : List MountedSource}
    (hsame : List.Forall₂ SameItems one next) (hseparate : Separate next) :
    Separate one := by
  have hcontributes : one.map MountedSource.contributes =
      next.map MountedSource.contributes := by
    induction hsame with
    | nil => rfl
    | cons hfirst _ ih =>
        rw [List.map_cons, List.map_cons, hfirst.contributes_eq,
          ih (List.pairwise_cons.mp hseparate).2]
  unfold Separate at hseparate ⊢
  have hmapped := List.pairwise_map.mpr hseparate
  rw [← hcontributes] at hmapped
  exact List.pairwise_map.mp hmapped

theorem agrees_of_sameItems {one next : List MountedSource}
    (hsame : List.Forall₂ SameItems one next) :
    (Crate.ofSources one).Agrees (Crate.ofSources next) := by
  apply agrees_of_mounts
  · intro package
    induction hsame with
    | nil => rfl
    | cons hfirst _ ih =>
        simp only [List.exists_mem_cons_iff, hfirst.mounts_eq, ih]
  · intro package
    induction hsame with
    | nil => rfl
    | cons hfirst _ ih =>
        simp only [List.flatMap_cons, List.map_append,
          hfirst.itemsIn_views, ih]

/-! ## Modules in sources of their own -/

theorem placedItems_append (package : Package) (file : String)
    (before after : List Item) :
    Crate.placedItems package file (before ++ after) =
      Crate.placedItems package file before ++
        Crate.placedItems package file after := by
  induction before with
  | nil => rfl
  | cons item rest ih =>
      rw [List.cons_append, Crate.placedItems, Crate.placedItems, ih,
        List.append_assoc]

theorem packagesOfItems_append (package : Package)
    (before after : List Item) :
    Crate.packagesOfItems package (before ++ after) =
      Crate.packagesOfItems package before ++
        Crate.packagesOfItems package after := by
  induction before with
  | nil => rfl
  | cons item rest ih =>
      rw [List.cons_append, Crate.packagesOfItems, Crate.packagesOfItems, ih,
        List.append_assoc]

namespace CutOut

variable {package mounted : Package} {items rest inner : List Item}

/-- The items of the module stand between those that are left. -/
theorem placed (hcut : CutOut package items rest mounted inner)
    (file : String) :
    ∃ front back,
      Crate.placedItems package file items =
          front ++ Crate.placedItems mounted file inner ++ back ∧
        Crate.placedItems package file rest = front ++ back := by
  induction hcut with
  | @here package name before after inner =>
      refine ⟨Crate.placedItems package file before,
        Crate.placedItems package file after, ?_, placedItems_append ..⟩
      rw [placedItems_append, Crate.placedItems, Crate.placedItem,
        List.append_assoc]
  | @inside package mounted name before after body rest inner _ ih =>
      obtain ⟨front, back, hbody, hrest⟩ := ih
      refine ⟨Crate.placedItems package file before ++ front,
        back ++ Crate.placedItems package file after, ?_, ?_⟩
      · rw [placedItems_append, Crate.placedItems, Crate.placedItem, hbody]
        simp only [List.append_assoc]
      · rw [placedItems_append, Crate.placedItems, Crate.placedItem, hrest]
        simp only [List.append_assoc]

theorem mem_packages (hcut : CutOut package items rest mounted inner)
    (found : Package) :
    found ∈ Crate.packagesOfItems package items ↔
      found ∈ Crate.packagesOfItems package rest ∨
        found ∈ mounted :: Crate.packagesOfItems mounted inner := by
  induction hcut with
  | here =>
      simp only [packagesOfItems_append, Crate.packagesOfItems,
        Crate.packagesOfItem, List.mem_append, List.mem_cons]
      tauto
  | inside _ ih =>
      simp only [packagesOfItems_append, Crate.packagesOfItems,
        Crate.packagesOfItem, List.mem_append, List.mem_cons, ih]
      tauto

end CutOut

section CutSource

variable {source : MountedSource} {rest inner : List Item}
  {mounted : Package} {file : String}
  (hcut : CutOut source.package source.items rest mounted inner)

include hcut

theorem mem_mounts_of_cutOut (package : Package) :
    package ∈ source.mounts ↔
      package ∈ ({ source with items := rest } : MountedSource).mounts ∨
        package ∈ (⟨mounted, file, inner⟩ : MountedSource).mounts := by
  unfold MountedSource.mounts
  rw [List.mem_cons, List.mem_cons, hcut.mem_packages, or_assoc]

theorem mem_contributes_of_cutOut (package : Package) :
    package ∈ source.contributes ↔
      package ∈ ({ source with items := rest } : MountedSource).contributes ∨
        package ∈ (⟨mounted, file, inner⟩ : MountedSource).contributes := by
  obtain ⟨front, back, hitems, hrest⟩ := hcut.placed source.file
  have hmoved : SameItems ⟨mounted, source.file, inner⟩
      ⟨mounted, file, inner⟩ := ⟨rfl, rfl⟩
  rw [← hmoved.contributes_eq]
  unfold MountedSource.contributes MountedSource.placed
  rw [hitems, hrest]
  simp only [List.map_append, List.mem_append]
  tauto

/-- In every package either the module or what is left has nothing, so that
the items of the package stay in their order. -/
theorem itemsIn_of_cutOut
    (hdisjoint : ({ source with items := rest } :
        MountedSource).contributes.Disjoint
      (⟨mounted, file, inner⟩ : MountedSource).contributes)
    (package : Package) :
    (source.itemsIn package).map Placed.view =
      (({ source with items := rest } : MountedSource).itemsIn package ++
        (⟨mounted, file, inner⟩ : MountedSource).itemsIn package).map
          Placed.view := by
  obtain ⟨front, back, hitems, hrest⟩ := hcut.placed source.file
  have hmoved : SameItems ⟨mounted, source.file, inner⟩
      ⟨mounted, file, inner⟩ := ⟨rfl, rfl⟩
  have hwhole : source.itemsIn package =
      front.filter (fun placed => placed.package == package) ++
        MountedSource.itemsIn ⟨mounted, source.file, inner⟩ package ++
        back.filter fun placed => placed.package == package := by
    unfold MountedSource.itemsIn MountedSource.placed
    rw [hitems, List.filter_append, List.filter_append]
  have hleft : MountedSource.itemsIn { source with items := rest } package =
      front.filter (fun placed => placed.package == package) ++
        back.filter fun placed => placed.package == package := by
    unfold MountedSource.itemsIn MountedSource.placed
    rw [hrest, List.filter_append]
  rw [List.map_append, ← hmoved.itemsIn_views, ← List.map_append]
  rcases itemsIn_eq_nil_of_disjoint hdisjoint package with hempty | hempty
  · rw [hempty, List.nil_append]
    rw [hempty, eq_comm, List.append_eq_nil_iff] at hleft
    rw [hwhole, hleft.1, hleft.2, List.nil_append, List.append_nil]
  · have hviews := hmoved.itemsIn_views package
    rw [hempty, List.map_nil, List.map_eq_nil_iff] at hviews
    rw [hwhole, hleft, hviews, List.append_nil, List.append_nil]

theorem Separate.of_cutOut {before after : List MountedSource}
    (hseparate : Separate
      (before ++ { source with items := rest } :: ⟨mounted, file, inner⟩ ::
        after)) :
    Separate (before ++ source :: after) := by
  have hmem : ∀ package, _ ↔ _ ∨ package ∈ MountedSource.contributes
      ⟨mounted, file, inner⟩ := mem_contributes_of_cutOut hcut
  obtain ⟨hbefore, hrest, hacross⟩ := List.pairwise_append.mp hseparate
  obtain ⟨hleft, hbehind⟩ := List.pairwise_cons.mp hrest
  obtain ⟨hinner, hafter⟩ := List.pairwise_cons.mp hbehind
  refine List.pairwise_append.mpr
    ⟨hbefore, List.pairwise_cons.mpr ⟨?_, hafter⟩, ?_⟩
  · intro next hnext package hsource hother
    rcases (hmem package).mp hsource with hrest | hmodule
    · exact hleft next (List.mem_cons_of_mem _ hnext) hrest hother
    · exact hinner next hnext hmodule hother
  · intro one hone next hnext
    rcases List.mem_cons.mp hnext with rfl | hnext
    · intro package hother hsource
      rcases (hmem package).mp hsource with hrest | hmodule
      · exact hacross one hone _ List.mem_cons_self hother hrest
      · exact hacross one hone _
          (List.mem_cons_of_mem _ List.mem_cons_self) hother hmodule
    · exact hacross one hone next
        (List.mem_cons_of_mem _ (List.mem_cons_of_mem _ hnext))

theorem agrees_of_cutOut {before after : List MountedSource}
    (hseparate : Separate
      (before ++ { source with items := rest } :: ⟨mounted, file, inner⟩ ::
        after)) :
    (Crate.ofSources (before ++ source :: after)).Agrees
      (Crate.ofSources
        (before ++ { source with items := rest } :: ⟨mounted, file, inner⟩ ::
          after)) := by
  obtain ⟨_, hrest, _⟩ := List.pairwise_append.mp hseparate
  have hdisjoint := (List.pairwise_cons.mp hrest).1 _ List.mem_cons_self
  have hmounts : ∀ package, _ ↔ _ ∨ package ∈ MountedSource.mounts
      ⟨mounted, file, inner⟩ := mem_mounts_of_cutOut hcut
  apply agrees_of_mounts
  · intro package
    simp only [List.mem_append, List.mem_cons, or_and_right, exists_or,
      exists_eq_left, hmounts package, or_assoc]
  · intro package
    have hitems := itemsIn_of_cutOut hcut hdisjoint package
    rw [List.map_append] at hitems
    simp only [List.flatMap_append, List.flatMap_cons, List.map_append,
      hitems, List.append_assoc]

end CutSource

/-! ## Schemas of recut sources -/

theorem Recut.separate {one next : List MountedSource}
    (hrecut : Recut one next) (hseparate : Separate next) : Separate one := by
  cases hrecut with
  | reordered hperm => exact hseparate.perm hperm
  | rewritten hsame => exact hseparate.of_sameItems hsame
  | cutOut hcut => exact Separate.of_cutOut hcut hseparate

theorem Recut.agrees {one next : List MountedSource}
    (hrecut : Recut one next) (hseparate : Separate next) :
    (Crate.ofSources one).Agrees (Crate.ofSources next) := by
  cases hrecut with
  | reordered hperm => exact agrees_of_perm hperm (hseparate.perm hperm)
  | rewritten hsame => exact agrees_of_sameItems hsame
  | cutOut hcut => exact agrees_of_cutOut hcut hseparate

theorem separate_and_agrees {one next : List MountedSource}
    (hrecut : Relation.ReflTransGen Recut one next)
    (hseparate : Separate next) :
    Separate one ∧ (Crate.ofSources one).Agrees (Crate.ofSources next) := by
  induction hrecut using Relation.ReflTransGen.head_induction_on with
  | refl => exact ⟨hseparate, fun _ => rfl, fun _ => rfl⟩
  | head hstep _ ih =>
      obtain ⟨hmiddle, hagrees⟩ := ih
      exact ⟨hstep.separate hmiddle, (hstep.agrees hmiddle).trans hagrees⟩

/-- However the items of a crate are cut into sources, without two sources
having items in one package, its schema declares the same records: but for
their order and their locations, what is listed and what is found under each
name is the same, and so is whether the marker is in scope. -/
theorem recut_matches (config : Config) {one next : List MountedSource}
    (hrecut : Relation.ReflTransGen Recut one next)
    (hseparate : Separate next) :
    (schemaOf config (Crate.ofSources one)).Matches
      (schemaOf config (Crate.ofSources next)) :=
  (separate_and_agrees hrecut hseparate).2.schema_matches config

open SampleSources in
theorem invoice_recut_matches :
    Relation.ReflTransGen Recut oneSource twoSources ∧ Separate twoSources ∧
      (schemaOf {} (Crate.ofSources oneSource)).Matches
        (schemaOf {} (Crate.ofSources twoSources)) ∧
      (((schemaOf {} (Crate.ofSources twoSources)).lookup
          ⟨"billing", "Invoice"⟩).map fun invoice =>
        invoice.fields.map Field.type) =
          some [.declared ⟨"", "Customer"⟩] := by
  let left : MountedSource := ⟨"", "src/lib.rs", [customerItem]⟩
  have hmodule : CutOut ""
      ([] ++ .mounted "billing" (billingItems 2) :: [customerItem])
      ([] ++ [customerItem]) "billing" (billingItems 2) := .here
  have hcut : Recut ([] ++ ⟨"", "src/lib.rs", _⟩ :: [])
      ([] ++ left :: ⟨"billing", "src/billing.rs", billingItems 2⟩ :: []) :=
    .cutOut hmodule
  have hmoved : Recut
      [left, ⟨"billing", "src/billing.rs", billingItems 2⟩]
      [left, ⟨"billing", "src/billing.rs", billingItems 1⟩] :=
    .rewritten (.cons ⟨rfl, rfl⟩ (.cons ⟨rfl, rfl⟩ .nil))
  have hswapped : Recut
      [left, ⟨"billing", "src/billing.rs", billingItems 1⟩] twoSources :=
    .reordered (List.Perm.swap _ _ _)
  have hrecut : Relation.ReflTransGen Recut oneSource twoSources :=
    ((Relation.ReflTransGen.single hcut).tail hmoved).tail hswapped
  have hseparate : Separate twoSources := by
    unfold Separate List.Disjoint
    decide
  exact ⟨hrecut, hseparate, recut_matches {} hrecut hseparate,
    by decide +kernel⟩

end RecordMasking.Source
